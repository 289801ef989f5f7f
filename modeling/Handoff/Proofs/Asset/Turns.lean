import Handoff.Proofs.Asset.Scheduling

/-!
Batches that take turns.

An export asks for one format after the other, batch by batch, and downloads the pictures of a batch in
their order. Here the batches of the formats take turns, and the pictures of a batch are downloaded in
any order. When answers depend on the request alone, each turn delivers what its batch would by itself.
-/

namespace Handoff.Asset

open Action Config Design Files Remote Workspace

/-! ### Turns -/

/-- A batch of a format, with its number and the number of all batches of the format. -/
structure NumberedBatch where
  format : ExportFormat
  index : Nat
  total : Nat
  layers : List Layer

/-- The batches of a format in order, numbered from `index`. -/
def numbered (format : ExportFormat) (total index : Nat) : List (List Layer) → List NumberedBatch
  | [] => []
  | layers :: rest => ⟨format, index, total, layers⟩ :: numbered format total (index + 1) rest

/-- A batch whose turn it is, and how its pictures are downloaded. -/
structure Turn where
  batch : NumberedBatch
  fetches : List (Layer × Value) → Action (List (Option Text))

/-- The files of a format: those of its batches, in the order of the batches. -/
def tableOf (found : List (ExportFormat × Exported)) (format : ExportFormat) : Exported :=
  ((found.filter (·.1 = format)).map Prod.snd).foldl Table.merge []

/-- Notes how many of the assets were not exported. -/
def noteMissing (records : List Record) : Action (List Record) := do
  let missing := (records.filter fun record => record.file.isNone).length
  if missing != 0 then
    Action.log .warning ("⚠ " ++ toString missing ++ " of " ++ toString records.length ++
      " assets were not exported; re-run with --assets-only to retry")
  return records

/-- Exports the layers that are candidates, once it is said how the files of the formats are found. -/
def exportAllBy (exportFormats : Partitions → Action (List Exported)) (layers : List Layer) :
    Action (List Record) := do
  Action.log .info "ℹ Finding exportable images..."
  let candidates ← Action.ofLogged (candidates layers)
  if candidates.isEmpty then
    Action.log .warning "⚠ No exportable images found"
    return []
  else
    let partitions ← Action.ofExcept (partition candidates)
    Action.log .info ("ℹ Found " ++ toString candidates.length ++ " exportable nodes (vectors: " ++
      toString partitions.svg.length ++ ", images: " ++ toString partitions.png.length ++ ")")
    let tables ← exportFormats partitions
    let exported : Exported :=
      tables.flatten.foldl (fun table entry => table.put entry.1 entry.2) []
    let records ← Action.ofExcept (candidates.mapM (Exporter.record exported))
    noteMissing records

namespace Exporter

variable (exporter : Exporter)

/-- Exports the batch whose turn it is. -/
def exportTurn (turn : Turn) : Action Exported := do
  Action.log .info ("ℹ Exporting " ++
    batchName turn.batch.format turn.batch.index turn.batch.total ++ "...")
  match ← exporter.addresses turn.batch.format turn.batch.index turn.batch.total turn.batch.layers with
  | none => return []
  | some urls =>
    let jobs ← jobs urls turn.batch.layers
    let files ← turn.fetches jobs
    Action.ofExcept (collect [] (jobs.zip files))

/-- Exports batches, turn by turn. -/
def exportTurns : List Turn → Action (List (ExportFormat × Exported))
  | [] => return []
  | turn :: rest => do
    let found ← exporter.exportTurn turn
    let others ← exportTurns rest
    return (turn.batch.format, found) :: others

/-- Exports the assets of a design, the batches of its formats taking turns. -/
def exportInTurns (turns : List Turn) : List Layer → Action (List Record) :=
  exportAllBy fun partitions => do
    let found ← exporter.exportTurns turns
    return partitions.formats.map (tableOf found)

/-- The batches of a format. -/
def batchesOf (partitions : Partitions) (format : ExportFormat) : List NumberedBatch :=
  match batches (partitions.of format) exporter.settings.batchSize with
  | .ok parts => numbered format parts.length 1 parts
  | .error _ => []

/-- The batches of each format have their turns in order, and nothing else has one. -/
def IsSchedule (layers : List Layer) (turns : List Turn) : Prop :=
  ∀ partitions, (candidatesAmong layers).bind partition = .ok partitions → ∀ format,
    (turns.map Turn.batch).filter (·.format = format) = exporter.batchesOf partitions format

/-- The turn of a batch whose pictures are downloaded in their order. -/
def inOrder (batch : NumberedBatch) : Turn where
  batch := batch
  fetches jobs := Action.all (jobs.map fun job => exporter.fetch batch.format job.1 job.2)

/-- An export takes its formats one after the other. -/
lemma exportAll_eq : exporter.exportAll = exportAllBy fun partitions =>
    Action.all (partitions.formats.map fun format =>
      exporter.exportFormat format (partitions.of format)) := rfl

/-! ### What a batch comes to -/

variable {exporter} {format : ExportFormat} {s t u : World} {w w' : Workspace} {batch : NumberedBatch}
  {found : Exported} {layers : List Layer} {records : List Record} {turns turns' : List Turn}
  {batches : List NumberedBatch}

variable (exporter) in
/-- The addresses of the pictures of layers. -/
def addressesOf (format : ExportFormat) (layers : List Layer) : Except Fault Value :=
  ((exporter.ask format layers).exec (.start .empty)).1

variable (exporter) in
/-- The jobs of a batch, none when the request for it fails. -/
def jobsOfBatch (batch : NumberedBatch) : List (Layer × Value) :=
  match (exporter.addressesOf batch.format batch.layers).bind (jobsAmong · batch.layers) with
  | .ok jobs => jobs
  | .error _ => []

variable (exporter) in
/-- The files that batches save. -/
def filesOfBatches (batches : List NumberedBatch) : List (Text × ByteArray) :=
  batches.flatMap fun batch => exporter.filesOf batch.format (exporter.jobsOfBatch batch)

variable (exporter) in
/-- The request for a batch is answered with addresses, or fails for the request or its content. -/
structure Answered (batch : NumberedBatch) : Prop where
  handled : ∀ fault, exporter.addressesOf batch.format batch.layers = .error fault →
    (fault.ofRequest || fault.ofContent) = true
  listed : ∀ urls, exporter.addressesOf batch.format batch.layers = .ok urls →
    ∃ jobs, jobsAmong urls batch.layers = .ok jobs

lemma answered_iff_of_error {fault : Fault}
    (h : exporter.addressesOf batch.format batch.layers = .error fault) :
    exporter.Answered batch ↔ (fault.ofRequest || fault.ofContent) = true := by
  refine ⟨fun hanswered => hanswered.handled fault h, fun hhandled =>
    ⟨fun fault' hf => ?_, fun urls hf => ?_⟩⟩
  · cases h.symm.trans hf
    exact hhandled
  · cases h.symm.trans hf

lemma answered_iff_of_ok {urls : Value}
    (h : exporter.addressesOf batch.format batch.layers = .ok urls) :
    exporter.Answered batch ↔ ∃ jobs, jobsAmong urls batch.layers = .ok jobs := by
  refine ⟨fun hanswered => hanswered.listed urls h, fun hlisted =>
    ⟨fun fault hf => ?_, fun urls' hf => ?_⟩⟩
  · cases h.symm.trans hf
  · cases h.symm.trans hf
    exact hlisted

lemma jobsOfBatch_of_error {fault : Fault}
    (h : exporter.addressesOf batch.format batch.layers = .error fault) :
    exporter.jobsOfBatch batch = [] := by
  rw [jobsOfBatch, h]
  rfl

lemma jobsOfBatch_of_ok {urls : Value} {jobs : List (Layer × Value)}
    (h : exporter.addressesOf batch.format batch.layers = .ok urls)
    (hjobs : jobsAmong urls batch.layers = .ok jobs) : exporter.jobsOfBatch batch = jobs := by
  simp only [jobsOfBatch, h, Except.bind, hjobs]

variable (exporter) in
/-- A batch whose request and whose downloads fail in the expected ways at most. -/
structure Reliable (batch : NumberedBatch) : Prop extends exporter.Answered batch where
  fair : ∀ job ∈ exporter.jobsOfBatch batch, exporter.Fair batch.format job

variable (exporter) in
/-- What a batch delivers in a tree: the files that its jobs report. -/
def Delivers (w : Workspace) (batch : NumberedBatch) (found : Exported) : Prop :=
  ∃ files, List.Forall₂ (exporter.IsFetched batch.format w) (exporter.jobsOfBatch batch) files ∧
    collect [] ((exporter.jobsOfBatch batch).zip files) = .ok found

lemma Delivers.unique {found' : Exported} (h : exporter.Delivers w batch found)
    (h' : exporter.Delivers w batch found') : found = found' := by
  obtain ⟨files, hfetched, hcollect⟩ := h
  obtain ⟨files', hfetched', hcollect'⟩ := h'
  obtain rfl := List.right_unique_forall₂' (fun _ _ _ h h' => h.unique h') hfetched hfetched'
  exact Except.ok.inj (hcollect.symm.trans hcollect')

lemma Delivers.congr (h : exporter.Delivers w' batch found)
    (htakes : ∀ name, w'.Takes (exporter.settings.assetsDir.file name) ↔
      w.Takes (exporter.settings.assetsDir.file name)) : exporter.Delivers w batch found := by
  obtain ⟨files, hfetched, hcollect⟩ := h
  exact ⟨files, hfetched.imp fun _ _ hf => hf.congr htakes, hcollect⟩

lemma AnswersAlone.exec_ask (h : exporter.AnswersAlone) (format : ExportFormat) (layers : List Layer)
    (s : World) : ∃ u, SameFiles s u ∧
      (exporter.ask format layers).exec s = (exporter.addressesOf format layers, u) := by
  have hsteady := (exporter.steady_ask format layers).sameFiles s
  refine ⟨((exporter.ask format layers).exec s).2, hsteady, Prod.ext ?_ rfl⟩
  rcases hids : (layers.map Layer.id).mapM (Value.asText .wrongType) with fault | texts
  · rw [addressesOf, ask, Client.imageUrls, hids]
    rfl
  · rw [addressesOf, ask, exporter.client.exec_imageUrls _ hids, exporter.client.exec_imageUrls _ hids,
      answered, answered, h _ (.inl ⟨_, _, _, rfl⟩), h _ (.inl ⟨_, _, _, rfl⟩) (World.requests _)]

lemma ne_dots_of_mem_filesOfBatches : ∀ file ∈ exporter.filesOfBatches batches, file.1 ≠ ".." := by
  intro file hfile
  obtain ⟨batch, -, hfile⟩ := List.mem_flatMap.1 hfile
  exact ne_dots_of_mem_filesOf file hfile

lemma filesOfBatches_cons : exporter.filesOfBatches (batch :: batches) =
    exporter.filesOf batch.format (exporter.jobsOfBatch batch) ++ exporter.filesOfBatches batches :=
  List.flatMap_cons

/-! ### One turn -/

/-- How asking for the addresses of a batch ends. -/
def asked (answer : Except Fault Value) : Except Fault (Option Value) :=
  match answer with
  | .ok urls => .ok (some urls)
  | .error fault => if fault.ofRequest || fault.ofContent then .ok none else .error fault

lemma AnswersAlone.exec_addresses (h : exporter.AnswersAlone) (format : ExportFormat)
    (index total : Nat) (layers : List Layer) (s : World) : ∃ u, SameFiles s u ∧
      (exporter.addresses format index total layers).exec s =
        (asked (exporter.addressesOf format layers), u) := by
  obtain ⟨u, hsame, hask⟩ := h.exec_ask format layers s
  rw [Exporter.exec_addresses, hask]
  rcases exporter.addressesOf format layers with fault | urls
  · cases hhandled : fault.ofRequest || fault.ofContent <;> simp only [asked, hhandled]
    · exact ⟨u, hsame, rfl⟩
    · refine ⟨_, ?_, rfl⟩
      exact hsame.trans ⟨rfl, rfl, rfl, rfl⟩
  · exact ⟨u, hsame, rfl⟩

/-- A turn asks for the addresses of its batch, and goes on with those that it is answered. -/
lemma exec_exportTurn (halone : exporter.AnswersAlone) (turn : Turn) (s : World) :
    ∃ u, SameFiles s u ∧ (exporter.exportTurn turn).exec s =
      match asked (exporter.addressesOf turn.batch.format turn.batch.layers) with
      | .error fault => (.error fault, u)
      | .ok none => (.ok [], u)
      | .ok (some urls) => (do
          let jobs ← jobs urls turn.batch.layers
          let files ← turn.fetches jobs
          Action.ofExcept (collect [] (jobs.zip files)) : Action Exported).exec u := by
  obtain ⟨s', hlog⟩ : ∃ s', (Action.log .info ("ℹ Exporting " ++
      batchName turn.batch.format turn.batch.index turn.batch.total ++ "...")).exec s = (.ok (), s') :=
    ⟨_, exec_log ..⟩
  obtain ⟨u, hasked, haddresses⟩ := halone.exec_addresses turn.batch.format turn.batch.index
    turn.batch.total turn.batch.layers s'
  refine ⟨u, ((Steady.log ..).sameFiles_of_exec hlog).trans hasked, ?_⟩
  rw [exportTurn, exec_bind_of_ok hlog, exec_bind, haddresses]
  rcases asked (exporter.addressesOf turn.batch.format turn.batch.layers) with fault | _ | urls <;> rfl

/-- A turn runs the downloads of its batch, unless its request fails in an unexpected way. -/
lemma exec_exportTurn_cases (halone : exporter.AnswersAlone) {turn : Turn}
    (hany : exporter.InAnyOrder turn.batch.format turn.fetches) (s : World) :
    (¬ exporter.Answered turn.batch ∧
      ∃ fault u, (exporter.exportTurn turn).exec s = (.error fault, u)) ∨
    (exporter.Answered turn.batch ∧ ∃ u outcomes t, SameFiles s u ∧
      exporter.Fetches turn.batch.format (exporter.jobsOfBatch turn.batch) u outcomes t ∧
      (exporter.exportTurn turn).exec s = ((outcomes.mapM id).bind fun files =>
        collect [] ((exporter.jobsOfBatch turn.batch).zip files), t)) := by
  obtain ⟨batch, fetches⟩ := turn
  obtain ⟨v, hbefore, hexec⟩ := exec_exportTurn halone ⟨batch, fetches⟩ s
  simp only at hany hexec ⊢
  rw [hexec]
  rcases hanswer : exporter.addressesOf batch.format batch.layers with fault | urls
  · rw [answered_iff_of_error hanswer, jobsOfBatch_of_error hanswer]
    cases hhandled : fault.ofRequest || fault.ofContent
    · exact Or.inl ⟨Bool.false_ne_true, fault, v, by simp only [asked, hhandled]; rfl⟩
    · refine Or.inr ⟨rfl, v, [], v, hbefore, .done v, ?_⟩
      simp only [asked, hhandled]
      rfl
  · rw [answered_iff_of_ok hanswer]
    obtain ⟨journal, hlisting⟩ := exec_jobs urls batch.layers v
    simp only [asked, exec_bind, hlisting]
    rcases hjobs : jobsAmong urls batch.layers with fault | jobs
    · exact Or.inl ⟨by simp, fault, _, rfl⟩
    · obtain ⟨outcomes, t, hfetches, hrun⟩ := hany jobs { v with journal }
      rw [jobsOfBatch_of_ok hanswer hjobs]
      refine Or.inr ⟨⟨jobs, rfl⟩, { v with journal }, outcomes, t, ?_, hfetches, ?_⟩
      · exact hbefore.trans ⟨rfl, rfl, rfl, rfl⟩
      · simp only [hrun]
        cases outcomes.mapM id with
        | error fault => rfl
        | ok files => exact exec_ofExcept _ t

/-- A turn that returns met failures of the expected kinds at most. It saves the files of its batch, and
delivers those that the tree takes. -/
lemma of_exec_exportTurn (halone : exporter.AnswersAlone) {turn : Turn}
    (hany : exporter.InAnyOrder turn.batch.format turn.fetches) (hs : s.workspace.Sound)
    (hnames : ((exporter.filesOf turn.batch.format
      (exporter.jobsOfBatch turn.batch)).map Prod.fst).Nodup)
    (h : (exporter.exportTurn turn).exec s = (.ok found, t)) :
    exporter.Reliable turn.batch ∧
      s.workspace.FilesOrdinarily exporter.settings.assetsDir
        (exporter.filesOf turn.batch.format (exporter.jobsOfBatch turn.batch)) ∧
      Deposits exporter.settings.assetsDir
        (exporter.filesOf turn.batch.format (exporter.jobsOfBatch turn.batch)) s t ∧
      exporter.Delivers s.workspace turn.batch found := by
  rcases exec_exportTurn_cases halone hany s with ⟨-, fault, u, hexec⟩ |
    ⟨hanswered, u, outcomes, t', hsame, hfetches, hexec⟩
  · cases hexec.symm.trans h
  · obtain ⟨hresult, rfl⟩ := Prod.mk.inj (hexec.symm.trans h)
    obtain ⟨files, hfiles, hcollect⟩ := bind_eq_ok.1 hresult
    obtain ⟨hfair, hordinarily, hdeposits, hfetched⟩ := of_fetches halone hfetches
      (hsame.workspace ▸ hs) hnames (mapM_id_eq_ok.1 hfiles)
    rw [hsame.workspace] at hordinarily hfetched
    exact ⟨⟨hanswered, hfair⟩, hordinarily, hdeposits.between hsame (.refl _), files, hfetched, hcollect⟩

/-- A turn returns when its batch is reliable, the system is all that can fail, and what is to be
delivered can be entered. -/
lemma exists_of_reliable (halone : exporter.AnswersAlone) {turn : Turn}
    (hany : exporter.InAnyOrder turn.batch.format turn.fetches) (hs : s.workspace.Sound)
    (hnames : ((exporter.filesOf turn.batch.format
      (exporter.jobsOfBatch turn.batch)).map Prod.fst).Nodup)
    (hreliable : exporter.Reliable turn.batch)
    (ho : s.workspace.FilesOrdinarily exporter.settings.assetsDir
      (exporter.filesOf turn.batch.format (exporter.jobsOfBatch turn.batch)))
    (hd : exporter.Delivers s.workspace turn.batch found) :
    ∃ t, (exporter.exportTurn turn).exec s = (.ok found, t) := by
  rcases exec_exportTurn_cases halone hany s with ⟨hanswered, -⟩ |
    ⟨-, u, outcomes, t, hsame, hfetches, hexec⟩
  · exact absurd hreliable.toAnswered hanswered
  · have hu : u.workspace.Sound := hsame.workspace ▸ hs
    rw [← hsame.workspace] at ho hd
    obtain ⟨files, rfl⟩ := exists_of_fetches halone hfetches hu hreliable.fair ho
    obtain ⟨-, -, -, hfetched⟩ := of_fetches halone hfetches hu hnames rfl
    obtain ⟨files', hfetched', hcollect⟩ := hd
    obtain rfl := List.right_unique_forall₂' (fun _ _ _ h h' => h.unique h') hfetched hfetched'
    refine ⟨t, ?_⟩
    rw [hexec, mapM_id_eq_ok.2 rfl]
    exact congrArg (·, t) hcollect

/-! ### Several turns -/

/-- What batches deliver, with their formats. -/
def DeliversAll (exporter : Exporter) (w : Workspace) (batches : List NumberedBatch)
    (found : List (ExportFormat × Exported)) : Prop :=
  List.Forall₂ (fun batch entry => entry.1 = batch.format ∧ exporter.Delivers w batch entry.2)
    batches found

/-- Turns that all return met failures of the expected kinds at most. They save the files of their
batches, and each batch delivers what it would by itself. -/
theorem of_exec_exportTurns (halone : exporter.AnswersAlone)
    (hany : ∀ turn ∈ turns, exporter.InAnyOrder turn.batch.format turn.fetches)
    (hs : s.workspace.Sound)
    (hnames : ((exporter.filesOfBatches (turns.map Turn.batch)).map Prod.fst).Nodup)
    {found : List (ExportFormat × Exported)}
    (h : (exporter.exportTurns turns).exec s = (.ok found, t)) :
    (∀ turn ∈ turns, exporter.Reliable turn.batch) ∧
      s.workspace.FilesOrdinarily exporter.settings.assetsDir
        (exporter.filesOfBatches (turns.map Turn.batch)) ∧
      Deposits exporter.settings.assetsDir (exporter.filesOfBatches (turns.map Turn.batch)) s t ∧
      exporter.DeliversAll s.workspace (turns.map Turn.batch) found := by
  induction turns generalizing s found with
  | nil =>
    cases h
    exact ⟨nofun, filesOrdinarily_nil, .of_sameFiles hs (.refl _), .nil⟩
  | cons turn rest ih =>
    obtain ⟨hfirst, hrest⟩ := List.forall_mem_cons.1 hany
    rw [List.map_cons, filesOfBatches_cons, List.map_append, List.nodup_append] at hnames
    obtain ⟨hnames, hothers, hapart⟩ := hnames
    obtain ⟨one, u, hturn, h⟩ := exec_bind_eq_ok.1 h
    obtain ⟨others, v, hturns, h⟩ := exec_bind_eq_ok.1 h
    cases h
    obtain ⟨hreliable, hordinarily, hdeposits, hdelivers⟩ :=
      of_exec_exportTurn halone hfirst hs hnames hturn
    obtain ⟨hreliables, hordinarilies, hdeposits', hdelivered⟩ :=
      ih hrest hdeposits.tree.sound hothers hturns
    rw [List.map_cons, filesOfBatches_cons]
    refine ⟨List.forall_mem_cons.2 ⟨hreliable, hreliables⟩,
      hdeposits.tree.filesOrdinarily_append.2 ⟨hordinarily, hordinarilies⟩,
      hdeposits.trans hdeposits' hs ?_ ?_, .cons ⟨rfl, hdelivers⟩ ?_⟩
    · exact List.forall_mem_append.2 ⟨ne_dots_of_mem_filesOf, ne_dots_of_mem_filesOfBatches⟩
    · exact fun file hfile file' hfile' =>
        hapart _ (List.mem_map_of_mem hfile) _ (List.mem_map_of_mem hfile')
    · exact hdelivered.imp fun _ _ hd => ⟨hd.1, hd.2.congr hdeposits.tree.takes⟩

/-- Turns return when their batches are reliable, the system is all that can fail, and what is to be
delivered can be entered. -/
theorem exists_of_reliables (halone : exporter.AnswersAlone)
    (hany : ∀ turn ∈ turns, exporter.InAnyOrder turn.batch.format turn.fetches)
    (hs : s.workspace.Sound)
    (hnames : ((exporter.filesOfBatches (turns.map Turn.batch)).map Prod.fst).Nodup)
    (hreliable : ∀ turn ∈ turns, exporter.Reliable turn.batch)
    (ho : s.workspace.FilesOrdinarily exporter.settings.assetsDir
      (exporter.filesOfBatches (turns.map Turn.batch)))
    (hd : ∀ turn ∈ turns, ∃ found, exporter.Delivers s.workspace turn.batch found) :
    ∃ found t, (exporter.exportTurns turns).exec s = (.ok found, t) := by
  induction turns generalizing s with
  | nil => exact ⟨[], s, rfl⟩
  | cons turn rest ih =>
    rw [List.map_cons, filesOfBatches_cons, List.map_append, List.nodup_append] at hnames
    obtain ⟨hnames, hothers, -⟩ := hnames
    rw [List.map_cons, filesOfBatches_cons] at ho
    rw [List.forall_mem_cons] at hany hreliable hd
    obtain ⟨⟨found, hfound⟩, hrest⟩ := hd
    obtain ⟨u, hturn⟩ := exists_of_reliable halone hany.1 hs hnames hreliable.1
      (fun htry => ho (triesSome_append.2 (Or.inl htry))) hfound
    obtain ⟨-, -, hdeposits, -⟩ := of_exec_exportTurn halone hany.1 hs hnames hturn
    obtain ⟨others, t, hturns⟩ := ih hany.2 hdeposits.tree.sound hothers hreliable.2
      (hdeposits.tree.filesOrdinarily_append.1 ho).2 fun turn hturn => (hrest turn hturn).imp
        fun _ hdelivers => hdelivers.congr fun name => (hdeposits.tree.takes name).symm
    exact ⟨_, t, (exec_bind_of_ok hturn).trans (exec_bind_of_ok hturns)⟩

end Exporter

end Handoff.Asset
