import Handoff.Proofs.Asset.Failing
import Handoff.Proofs.Asset.Turns

/-!
Exports whose formats take turns.

The batches of the formats may take turns, and the pictures of a batch may be downloaded in any order:
the records, the tree and the files visited are those of an export that takes one format after the other.
So are the files written and those skipped, if every file that is there is found.
-/

namespace Handoff.Asset

open Action Config Design Files Remote Workspace

namespace Exporter

variable {exporter : Exporter} {format : ExportFormat} {s t u : World} {w : Workspace}
  {found : Exported} {layers : List Layer} {records : List Record} {turns turns' : List Turn}
  {batches : List NumberedBatch} {partitions : Partitions} {formats : List ExportFormat}

/-! ### Two schedules -/

/-- The batches that have turns, sorted by their formats. -/
lemma perm_of_filters {batches' : List NumberedBatch}
    (h : ∀ format, batches'.filter (·.format = format) = batches.filter (·.format = format)) :
    batches'.Perm batches := by
  have hsorted (bs : List NumberedBatch) :
      (bs.filter (·.format = .svg) ++ bs.filter (·.format = .png)).Perm bs := by
    have hpng : bs.filter (fun batch => !decide (batch.format = .svg)) =
        bs.filter (·.format = .png) := by
      refine List.filter_congr fun batch _ => ?_
      cases batch.format <;> rfl
    rw [← hpng]
    exact List.filter_append_perm _ bs
  have hbatches' := hsorted batches'
  rw [h, h] at hbatches'
  exact hbatches'.symm.trans (hsorted batches)

/-- What batches of one format deliver is decided by those batches. -/
lemma DeliversAll.of_format {entries : List (ExportFormat × Exported)}
    (h : exporter.DeliversAll w batches entries) (format : ExportFormat) :
    List.Forall₂ (exporter.Delivers w) (batches.filter (·.format = format))
      ((entries.filter (·.1 = format)).map Prod.snd) := by
  induction h with
  | nil => exact .nil
  | @cons batch entry _ _ hentry _ ih =>
    by_cases hformat : batch.format = format
    · rw [List.filter_cons_of_pos (by simpa using hformat),
        List.filter_cons_of_pos (by simpa [hentry.1] using hformat)]
      exact .cons hentry.2 ih
    · rwa [List.filter_cons_of_neg (by simpa using hformat),
        List.filter_cons_of_neg (by simpa [hentry.1] using hformat)]

lemma DeliversAll.tableOf_eq {batches' : List NumberedBatch}
    {entries entries' : List (ExportFormat × Exported)} (h : exporter.DeliversAll w batches entries)
    (h' : exporter.DeliversAll w batches' entries')
    (hsame : batches'.filter (·.format = format) = batches.filter (·.format = format)) :
    tableOf entries' format = tableOf entries format := by
  have hunique : Relator.RightUnique (exporter.Delivers w) := fun _ _ _ hd hd' => hd.unique hd'
  have hfound := h.of_format format
  have hfound' := h'.of_format format
  rw [hsame] at hfound'
  rw [tableOf, tableOf, List.right_unique_forall₂' hunique hfound' hfound]

/-- When the batches of each format have their turns in the same order, turns that return in one schedule
return in the other, with the same files for each format, and the runs end alike. -/
theorem exportTurns_endsAlike (halone : exporter.AnswersAlone) (hs : s.workspace.Sound)
    (hany : ∀ turn ∈ turns, exporter.InAnyOrder turn.batch.format turn.fetches)
    (hany' : ∀ turn ∈ turns', exporter.InAnyOrder turn.batch.format turn.fetches)
    (hsame : ∀ format, (turns'.map Turn.batch).filter (·.format = format) =
      (turns.map Turn.batch).filter (·.format = format))
    (hnames : ((exporter.filesOfBatches (turns.map Turn.batch)).map Prod.fst).Nodup)
    {entries : List (ExportFormat × Exported)}
    (h : (exporter.exportTurns turns).exec s = (.ok entries, t)) :
    ∃ entries' t', (exporter.exportTurns turns').exec s = (.ok entries', t') ∧
      (∀ format, tableOf entries' format = tableOf entries format) ∧
      EndsAlike (FindsFiles s.workspace exporter.settings.assetsDir) t t' := by
  have hperm := perm_of_filters hsame
  have hfiles : (exporter.filesOfBatches (turns'.map Turn.batch)).Perm
      (exporter.filesOfBatches (turns.map Turn.batch)) := hperm.flatMap_right _
  have hmem : ∀ file, file ∈ exporter.filesOfBatches (turns'.map Turn.batch) ↔
      file ∈ exporter.filesOfBatches (turns.map Turn.batch) := fun _ => hfiles.mem_iff
  have hnames' := (hfiles.map Prod.fst).nodup_iff.2 hnames
  obtain ⟨hreliable, hordinarily, hdeposits, hdelivers⟩ := of_exec_exportTurns halone hany hs hnames h
  have hturn : ∀ turn' ∈ turns', ∃ turn ∈ turns, turn.batch = turn'.batch := fun turn' hturn' =>
    List.mem_map.1 (hperm.mem_iff.1 (List.mem_map_of_mem hturn'))
  have hreliable' : ∀ turn' ∈ turns', exporter.Reliable turn'.batch := by
    intro turn' hturn'
    obtain ⟨turn, hmem, hbatch⟩ := hturn turn' hturn'
    exact hbatch ▸ hreliable turn hmem
  have hdelivered : ∀ turn' ∈ turns', ∃ found, exporter.Delivers s.workspace turn'.batch found := by
    intro turn' hturn'
    obtain ⟨turn, hmem, hbatch⟩ := hturn turn' hturn'
    obtain ⟨entry, -, -, hentry⟩ := exists_of_mem_forall₂ hdelivers.flip (List.mem_map_of_mem hmem)
    exact ⟨entry.2, hbatch ▸ hentry⟩
  obtain ⟨entries', t', h'⟩ := exists_of_reliables halone hany' hs hnames' hreliable'
    (hordinarily.congr hmem) hdelivered
  obtain ⟨-, -, hdeposits', hdelivers'⟩ := of_exec_exportTurns halone hany' hs hnames' h'
  refine ⟨entries', t', h', fun format => ?_, ?_⟩
  · exact hdelivers.tableOf_eq hdelivers' (hsame format)
  · exact hdeposits.endsAlike (hdeposits'.congr fun file => (hmem file).symm) hs
      ne_dots_of_mem_filesOfBatches

/-! ### One format after the other -/

lemma exportTurn_inOrder (batch : NumberedBatch) :
    exporter.exportTurn (exporter.inOrder batch) = (do
      Action.log .info ("ℹ Exporting " ++ batchName batch.format batch.index batch.total ++ "...")
      exporter.exportBatch batch.format batch.index batch.total batch.layers) := rfl

lemma exec_exportTurns_append {entries entries' : List (ExportFormat × Exported)}
    (h : (exporter.exportTurns turns).exec s = (.ok entries, t))
    (h' : (exporter.exportTurns turns').exec t = (.ok entries', u)) :
    (exporter.exportTurns (turns ++ turns')).exec s = (.ok (entries ++ entries'), u) := by
  induction turns generalizing s entries with
  | nil =>
    cases h
    exact h'
  | cons turn rest ih =>
    obtain ⟨found, v, hturn, h⟩ := exec_bind_eq_ok.1 h
    obtain ⟨others, x, hrest, h⟩ := exec_bind_eq_ok.1 h
    cases h
    exact (exec_bind_of_ok hturn).trans (exec_bind_of_ok (ih hrest))

/-- Batches of one format, one after the other, are turns in order. -/
lemma exec_exportBatches_inOrder {total index : Nat} {exported table : Exported}
    {parts : List (List Layer)}
    (h : (exporter.exportBatches format total index exported parts).exec s = (.ok table, t)) :
    ∃ found : List Exported,
      (exporter.exportTurns ((numbered format total index parts).map exporter.inOrder)).exec s =
        (.ok (found.map (format, ·)), t) ∧ table = found.foldl Table.merge exported := by
  induction parts generalizing s index exported with
  | nil =>
    cases h
    exact ⟨[], rfl, rfl⟩
  | cons layers rest ih =>
    rw [exportBatches_cons] at h
    obtain ⟨⟨⟩, u, hlog, h⟩ := exec_bind_eq_ok.1 h
    obtain ⟨one, v, hbatch, h⟩ := exec_bind_eq_ok.1 h
    obtain ⟨found, hturns, rfl⟩ := ih h
    have hturn : (exporter.exportTurn (exporter.inOrder ⟨format, index, total, layers⟩)).exec s =
        (.ok one, v) := by
      rw [exportTurn_inOrder]
      exact (exec_bind_of_ok hlog).trans hbatch
    exact ⟨one :: found, (exec_bind_of_ok hturn).trans (exec_bind_of_ok hturns), rfl⟩

lemma filter_numbered (format format' : ExportFormat) (total index : Nat) (parts : List (List Layer)) :
    (numbered format total index parts).filter (·.format = format') =
      if format = format' then numbered format total index parts else [] := by
  induction parts generalizing index with
  | nil => simp [numbered]
  | cons layers rest ih =>
    rw [numbered, List.filter_cons, ih]
    by_cases hformat : format = format' <;> simp [hformat]

lemma filter_batchesOf (format format' : ExportFormat) :
    (exporter.batchesOf partitions format).filter (·.format = format') =
      if format = format' then exporter.batchesOf partitions format else [] := by
  unfold batchesOf
  split
  · exact filter_numbered ..
  · simp

/-- A format without layers has no batches. -/
lemma batchesOf_eq_nil (h : format ∉ partitions.formats) : exporter.batchesOf partitions format = [] := by
  have hnil : partitions.of format = [] := by
    by_contra hne
    obtain ⟨layer, hl⟩ := List.exists_mem_of_ne_nil _ hne
    exact h (Partitions.mem_formats hl)
  unfold batchesOf
  split
  · rename_i parts hparts
    rw [hnil, batches] at hparts
    split at hparts
    · cases hparts
    · split at hparts <;>
      · cases hparts
        rfl
  · rfl

lemma filter_flatMap_batchesOf (hn : formats.Nodup) (format : ExportFormat) :
    (formats.flatMap (exporter.batchesOf partitions)).filter (·.format = format) =
      if format ∈ formats then exporter.batchesOf partitions format else [] := by
  induction formats with
  | nil => rfl
  | cons first rest ih =>
    rw [List.nodup_cons] at hn
    rw [List.flatMap_cons, List.filter_append, filter_batchesOf, ih hn.2]
    by_cases hfirst : first = format
    · subst hfirst
      rw [if_pos rfl, if_neg hn.1, if_pos List.mem_cons_self, List.append_nil]
    · simp [hfirst, Ne.symm hfirst]

lemma map_batch_inOrder (batches : List NumberedBatch) :
    (batches.map exporter.inOrder).map Turn.batch = batches := by
  rw [List.map_map]
  exact List.map_id batches

lemma inAnyOrder_inOrder (batches : List NumberedBatch) : ∀ turn ∈ batches.map exporter.inOrder,
    exporter.InAnyOrder turn.batch.format turn.fetches := by
  intro turn hturn
  obtain ⟨batch, -, rfl⟩ := List.mem_map.1 hturn
  exact inAnyOrder_all exporter batch.format

/-- Taking one format after the other, in any order of the formats, is a schedule. -/
lemma isSchedule_of_formats (exporter : Exporter) (hn : formats.Nodup)
    (hall : ∀ format ∈ partitions.formats, format ∈ formats)
    (h : (candidatesAmong layers).bind partition = .ok partitions) :
    exporter.IsSchedule layers
      ((formats.flatMap (exporter.batchesOf partitions)).map exporter.inOrder) := by
  intro partitions' h' format
  cases h.symm.trans h'
  rw [map_batch_inOrder, filter_flatMap_batchesOf hn]
  split
  · rfl
  · rename_i hmissing
    exact (batchesOf_eq_nil fun hmem => hmissing (hall format hmem)).symm

/-- The files of a format are those found in its batches alone. -/
lemma tableOf_append_of_forall {found : List Exported} {entries : List (ExportFormat × Exported)}
    (h : ∀ entry ∈ entries, entry.1 ≠ format) :
    tableOf (found.map (format, ·) ++ entries) format = found.foldl Table.merge [] := by
  have hown : (found.map (format, ·)).filter (·.1 = format) = found.map (format, ·) :=
    List.filter_eq_self.2 fun entry hentry => by
      obtain ⟨_, -, rfl⟩ := List.mem_map.1 hentry
      exact decide_eq_true rfl
  have hothers : entries.filter (·.1 = format) = [] :=
    List.filter_eq_nil_iff.2 fun entry hentry => by simpa using h entry hentry
  rw [tableOf, List.filter_append, hown, hothers, List.append_nil, List.map_map]
  exact congrArg (List.foldl Table.merge []) (List.map_id found)

lemma tableOf_append_of_ne {format' : ExportFormat} {found : List Exported}
    {entries : List (ExportFormat × Exported)} (h : format ≠ format') :
    tableOf (found.map (format, ·) ++ entries) format' = tableOf entries format' := by
  have hothers : (found.map (format, ·)).filter (·.1 = format') = [] :=
    List.filter_eq_nil_iff.2 fun entry hentry => by
      obtain ⟨_, -, rfl⟩ := List.mem_map.1 hentry
      simpa using h
  rw [tableOf, List.filter_append, hothers, List.nil_append, tableOf]

/-- Formats one after the other are turns in order. -/
lemma exec_formats_inOrder {tables : List Exported} (hn : formats.Nodup)
    (h : (Action.all (formats.map fun format =>
      exporter.exportFormat format (partitions.of format))).exec s = (.ok tables, t)) :
    ∃ entries, (exporter.exportTurns
        ((formats.flatMap (exporter.batchesOf partitions)).map exporter.inOrder)).exec s =
          (.ok entries, t) ∧
      (∀ entry ∈ entries, entry.1 ∈ formats) ∧ tables = formats.map (tableOf entries) := by
  induction formats generalizing s tables with
  | nil =>
    cases h
    exact ⟨[], rfl, nofun, rfl⟩
  | cons format rest ih =>
    rw [List.nodup_cons] at hn
    rw [List.map_cons, exec_all_cons_eq_ok] at h
    obtain ⟨table, u, hformat, h⟩ := exec_bind_eq_ok.1 h
    obtain ⟨others, v, hrest, h⟩ := exec_bind_eq_ok.1 h
    cases h
    obtain ⟨parts, _, hexec, hformat⟩ := exec_bind_eq_ok.1 hformat
    obtain ⟨hparts, rfl⟩ := exec_ofExcept_eq_ok.1 hexec
    obtain ⟨found, hturns, rfl⟩ := exec_exportBatches_inOrder hformat
    obtain ⟨entries, hturns', hentries, rfl⟩ := ih hn.2 hrest
    have hbatches : exporter.batchesOf partitions format = numbered format parts.length 1 parts := by
      unfold batchesOf
      rw [hparts]
    refine ⟨found.map (format, ·) ++ entries, ?_, ?_, ?_⟩
    · rw [List.flatMap_cons, List.map_append, hbatches]
      exact exec_exportTurns_append hturns hturns'
    · refine List.forall_mem_append.2 ⟨fun entry hentry => ?_, fun entry hentry =>
        List.mem_cons_of_mem _ (hentries entry hentry)⟩
      obtain ⟨_, -, rfl⟩ := List.mem_map.1 hentry
      exact List.mem_cons_self
    · rw [List.map_cons, tableOf_append_of_forall fun entry hentry =>
        ne_of_mem_of_not_mem (hentries entry hentry) hn.1]
      refine congrArg _ (List.map_congr_left fun format' hformat' => ?_)
      exact (tableOf_append_of_ne (ne_of_mem_of_not_mem hformat' hn.1).symm).symm

/-! ### The names of the files -/

lemma nodup_filesOf {jobs : List (Layer × Value)} (h : (jobs.map Prod.fst).Pairwise (Apart format)) :
    ((exporter.filesOf format jobs).map Prod.fst).Nodup := by
  refine List.pairwise_map.2 (List.Pairwise.filterMap _ ?_ (List.pairwise_map.1 h))
  intro job job' hapart file hfile file' hfile' hsame
  have hname := (fileOf_eq_some.1 hfile).2
  rw [hsame] at hname
  exact hapart _ hname (fileOf_eq_some.1 hfile').2

lemma jobsOfBatch_sublist (batch : NumberedBatch) :
    ((exporter.jobsOfBatch batch).map Prod.fst).Sublist batch.layers := by
  unfold jobsOfBatch
  split
  · rename_i jobs hjobs
    obtain ⟨urls, -, hjobs⟩ := bind_eq_ok.1 hjobs
    exact jobsAmong_sublist hjobs
  · exact List.nil_sublist _

/-- The batches of a format save the files of the jobs of all of them, which are for layers in order. -/
lemma filesOfBatches_numbered (format : ExportFormat) (total index : Nat) (parts : List (List Layer)) :
    ∃ jobs, exporter.filesOfBatches (numbered format total index parts) = exporter.filesOf format jobs ∧
      (jobs.map Prod.fst).Sublist parts.flatten := by
  induction parts generalizing index with
  | nil => exact ⟨[], rfl, .slnil⟩
  | cons layers rest ih =>
    obtain ⟨jobs, hfiles, hsub⟩ := ih (index + 1)
    refine ⟨exporter.jobsOfBatch ⟨format, index, total, layers⟩ ++ jobs, ?_, ?_⟩
    · rw [numbered, filesOfBatches_cons, hfiles]
      exact List.filterMap_append.symm
    · rw [List.map_append, List.flatten_cons]
      exact (jobsOfBatch_sublist _).append hsub

lemma nodup_filesOfBatches_batchesOf (h : (partitions.of format).Pairwise (Apart format)) :
    ((exporter.filesOfBatches (exporter.batchesOf partitions format)).map Prod.fst).Nodup := by
  unfold batchesOf
  split
  · rename_i parts hparts
    obtain ⟨jobs, hfiles, hsub⟩ := exporter.filesOfBatches_numbered format parts.length 1 parts
    rw [hfiles]
    exact nodup_filesOf (h.sublist (hsub.trans (batches_flatten_sublist hparts)))
  · exact List.nodup_nil

lemma isFileName_of_mem_batchesOf {file : Text × ByteArray}
    (h : file ∈ exporter.filesOfBatches (exporter.batchesOf partitions format)) :
    ∃ stem, IsFileName file.1 stem format.name := by
  obtain ⟨batch, hbatch, hfile⟩ := List.mem_flatMap.1 h
  obtain ⟨job, -, hjob⟩ := List.mem_filterMap.1 hfile
  have hmem : batch ∈ (exporter.batchesOf partitions format).filter (·.format = format) := by
    rwa [filter_batchesOf, if_pos rfl]
  obtain rfl : batch.format = format := by simpa using (List.mem_filter.1 hmem).2
  exact isFileName_of_fileOf hjob

/-- No two batches of the formats save files of one name, when no two layers of a format do. -/
lemma nodup_filesOfBatches (exporter : Exporter) (hn : formats.Nodup)
    (h : ∀ format, (partitions.of format).Pairwise (Apart format)) :
    ((exporter.filesOfBatches (formats.flatMap (exporter.batchesOf partitions))).map
      Prod.fst).Nodup := by
  induction formats with
  | nil => exact List.nodup_nil
  | cons format rest ih =>
    rw [List.nodup_cons] at hn
    have happend : exporter.filesOfBatches ((format :: rest).flatMap (exporter.batchesOf partitions)) =
        exporter.filesOfBatches (exporter.batchesOf partitions format) ++
          exporter.filesOfBatches (rest.flatMap (exporter.batchesOf partitions)) := by
      rw [List.flatMap_cons]
      exact List.flatMap_append
    rw [happend, List.map_append, List.nodup_append]
    refine ⟨nodup_filesOfBatches_batchesOf (h format), ih hn.2, ?_⟩
    -- Names of different formats differ in what stands behind their last dot.
    rintro _ hname _ hname' rfl
    obtain ⟨file, hfile, rfl⟩ := List.mem_map.1 hname
    obtain ⟨file', hfile', hsame⟩ := List.mem_map.1 hname'
    obtain ⟨batch, hbatch, hfile'⟩ := List.mem_flatMap.1 hfile'
    obtain ⟨format', hformat', hbatch⟩ := List.mem_flatMap.1 hbatch
    obtain ⟨stem, hstem⟩ := isFileName_of_mem_batchesOf hfile
    obtain ⟨stem', hstem'⟩ := isFileName_of_mem_batchesOf (List.mem_flatMap.2 ⟨batch, hbatch, hfile'⟩)
    rw [hsame] at hstem'
    have hformats : format = format' := ExportFormat.name_injective (hstem.inj hstem').2
    exact hn.1 (hformats ▸ hformat')

/-! ### A whole export -/

lemma exec_noteMissing (records : List Record) (s : World) :
    ∃ t, (noteMissing records).exec s = (.ok records, t) ∧ SameFiles s t := by
  rw [noteMissing]
  split
  · refine ⟨_, rfl, ?_⟩
    exact ⟨rfl, rfl, rfl, rfl⟩
  · exact ⟨s, rfl, .refl s⟩

/-- Exports that find the same files, and end alike in doing so, end alike with the same records. -/
lemma exportAllBy_endsAlike {exact : Prop}
    {exportFormats exportFormats' : Partitions → Action (List Exported)}
    (hformats : ∀ partitions u v tables, (candidatesAmong layers).bind partition = .ok partitions →
      Alike s u → (exportFormats partitions).exec u = (.ok tables, v) →
        ∃ v', (exportFormats' partitions).exec u = (.ok tables, v') ∧ EndsAlike exact v v')
    (h : (exportAllBy exportFormats layers).exec s = (.ok records, t)) :
    ∃ t', (exportAllBy exportFormats' layers).exec s = (.ok records, t') ∧ EndsAlike exact t t' := by
  obtain ⟨⟨⟩, u, hlog, h⟩ := exec_bind_eq_ok.1 h
  obtain ⟨cs, v, hcandidates, h⟩ := exec_bind_eq_ok.1 h
  obtain ⟨journal, hexec⟩ := exec_ofLogged_of_gives (gives_candidates layers) u
  obtain ⟨hok, rfl⟩ := Prod.mk.inj (hexec.symm.trans hcandidates)
  have halike : Alike s { u with journal } := (alike_of_log hlog).trans ⟨journal, rfl⟩
  rw [exportAllBy, exec_bind_of_ok hlog, exec_bind_of_ok hcandidates]
  rw [exec_ite] at h ⊢
  split at h
  · rename_i hempty
    rw [if_pos hempty]
    exact ⟨t, h, .refl _ t⟩
  · rename_i hsome
    obtain ⟨partitions, w, hexec', h⟩ := exec_bind_eq_ok.1 h
    obtain ⟨hpartition, rfl⟩ := exec_ofExcept_eq_ok.1 hexec'
    obtain ⟨⟨⟩, x, hfound, h⟩ := exec_bind_eq_ok.1 h
    obtain ⟨tables, y, htables, h⟩ := exec_bind_eq_ok.1 h
    obtain ⟨records', z, hexec'', h⟩ := exec_bind_eq_ok.1 h
    obtain ⟨hrecords, rfl⟩ := exec_ofExcept_eq_ok.1 hexec''
    have hpartitions : (candidatesAmong layers).bind partition = .ok partitions := by
      rw [hok]
      exact hpartition
    obtain ⟨y', htables', hends⟩ := hformats partitions x y tables hpartitions
      (halike.trans (alike_of_log hfound)) htables
    obtain ⟨t₁, hlast, hsame⟩ := exec_noteMissing records' y
    obtain ⟨t', hlast', hsame'⟩ := exec_noteMissing records' y'
    obtain ⟨hrecord, rfl⟩ := Prod.mk.inj (hlast.symm.trans h)
    cases hrecord
    refine ⟨t', ?_, hends.of_sameFiles hsame hsame'⟩
    rw [if_neg hsome, exec_bind_of_ok hexec', exec_bind_of_ok hfound, exec_bind_of_ok htables',
      exec_bind_of_ok (exec_ofExcept_eq_ok.2 ⟨hrecords, rfl⟩)]
    exact hlast'

/-- When the answers for pictures depend on the request alone, an export whose failures are all of the
kinds that it recovers from returns. The batches of its formats may take turns, and the pictures of a
batch may be downloaded in any order: the records are the same, and so are the tree and the files
visited. So are the files written and those skipped, if every file that is there is found. -/
theorem exportInTurns_outcomes {root : LayerTree} (halone : exporter.AnswersAlone)
    (hs : s.workspace.Sound) (hids : ((root.preorder.filter Layer.isCandidate).map Layer.id).Nodup)
    (hnames : SharesNoFiles root.preorder) :
    ((∀ layer ∈ root.preorder, layer.ExportTyped) → 1 ≤ exporter.settings.batchSize →
      (∀ e ∈ exporter.story root.preorder s, e.Handled) →
        ∃ records t, (exporter.exportAll root.preorder).exec s = (.ok records, t)) ∧
    ∀ records t, (exporter.exportAll root.preorder).exec s = (.ok records, t) →
      ∀ turns, exporter.IsSchedule root.preorder turns →
        (∀ turn ∈ turns, exporter.InAnyOrder turn.batch.format turn.fetches) →
          ∃ t', (exporter.exportInTurns turns root.preorder).exec s = (.ok records, t') ∧
            EndsAlike (FindsFiles s.workspace exporter.settings.assetsDir) t t' := by
  refine ⟨fun htyped hsize hh => ?_, fun records t h turns hschedule hany => ?_⟩
  · obtain ⟨records, t, hexec, -⟩ := exporter.exec_exportAll_of_candidates htyped hids hsize hh
    exact ⟨records, t, hexec⟩
  · rw [exportAll_eq] at h
    refine exportAllBy_endsAlike (fun partitions u v tables hpartitions halike htables => ?_) h
    have hformats : partitions.formats.Nodup := List.Nodup.filter _ (by decide)
    obtain ⟨entries, hturns, -, rfl⟩ := exec_formats_inOrder hformats htables
    have hu : u.workspace.Sound := halike.workspace ▸ hs
    have hordered := isSchedule_of_formats exporter hformats (fun _ => id) hpartitions
    have hdistinct := nodup_filesOfBatches exporter hformats (hnames.apart hpartitions)
    rw [← map_batch_inOrder (partitions.formats.flatMap _)] at hdistinct
    obtain ⟨entries', v', hturns', htables', hends⟩ := exportTurns_endsAlike halone hu
      (inAnyOrder_inOrder _) hany (fun format => (hschedule _ hpartitions format).trans
        (hordered _ hpartitions format).symm) hdistinct hturns
    refine ⟨v', ?_, ?_⟩
    · rw [exec_bind_of_ok hturns', List.map_congr_left fun format _ => htables' format]
      rfl
    · rwa [halike.workspace] at hends

/-! ### The photo before the stars -/

/-- A client of a service that has a picture of everything. -/
def galleryClient : Client := ⟨.text "token", .int 10, fun _ request =>
  if request.token.isNone then .response ⟨200, "OK", .bytes "<svg/>".toUTF8⟩
  else .response ⟨200, "OK", .json (.record [("images", .record [("1:2", .text "https://pictures/2"),
    ("1:3", .text "https://pictures/3"), ("1:4", .text "https://pictures/4")])])⟩⟩

/-- The export from that service. -/
def galleryExporter (settings : Settings) : Exporter := ⟨galleryClient, settings, none⟩

/-- The two stars and the photo, sorted. -/
def sortedGallery : Partitions where
  svg := [plainLayer "1:2" "Star" "STAR", plainLayer "1:3" "Star" "STAR"]
  png := [{ plainLayer "1:4" "Photo" "RECTANGLE" with fills := [⟨.text "IMAGE", .null, .null, .null⟩] }]

/-- The photo has its turn before the stars. -/
def photoFirst (settings : Settings) : List Turn :=
  ([.png, .svg].flatMap ((galleryExporter settings).batchesOf sortedGallery)).map
    (galleryExporter settings).inOrder

lemma answersAlone_gallery (settings : Settings) : (galleryExporter settings).AnswersAlone :=
  fun _ _ _ => rfl

lemma isSchedule_photoFirst (settings : Settings) :
    (galleryExporter settings).IsSchedule starsAndPhoto.preorder (photoFirst settings) :=
  isSchedule_of_formats _ (by decide) (by decide) rfl

lemma nodup_candidates_starsAndPhoto :
    ((starsAndPhoto.preorder.filter Layer.isCandidate).map Layer.id).Nodup :=
  nodup_ids (by decide)

lemma sharesNoFiles_starsAndPhoto : SharesNoFiles starsAndPhoto.preorder :=
  .of_nodup (by decide)

/-- The same files are written with the photo first. -/
theorem exportInTurns_outcomes_photoFirst : ∃ records t t',
    ((galleryExporter plainSettings).exportAll starsAndPhoto.preorder).exec (.start .empty) =
      (.ok records, t) ∧
    ((galleryExporter plainSettings).exportInTurns (photoFirst plainSettings)
      starsAndPhoto.preorder).exec (.start .empty) = (.ok records, t') ∧
    t'.written.Perm t.written := by
  obtain ⟨hreturns, halike⟩ := exportInTurns_outcomes (s := .start .empty)
    (answersAlone_gallery plainSettings) sound_empty nodup_candidates_starsAndPhoto
    sharesNoFiles_starsAndPhoto
  obtain ⟨records, t, hexec⟩ := hreturns exportTyped_starsAndPhoto (by decide) (by decide +kernel)
  obtain ⟨t', hexec', hends⟩ := halike records t hexec (photoFirst plainSettings)
    (isSchedule_photoFirst plainSettings) (inAnyOrder_inOrder _)
  exact ⟨records, t, t', hexec, hexec', hends.written (Or.inl (by decide))⟩

/-- Settings with a directory for pictures that is written with a detour. -/
def pictureDetour : Settings :=
  { plainSettings with assetsDir := ⟨.root, ["build", "..", "pictures"]⟩ }

/-- A tree with all pictures, and without the directory of the detour. -/
def beforePictures : Workspace :=
  ["star-1-2.svg", "star-1-3.svg", "photo-1-4.png"].foldl (fun w name =>
    (w.save (Path.file ⟨.root, ["pictures"]⟩ name) "<svg/>".toUTF8).2) .empty

lemma sound_beforePictures : beforePictures.Sound := by
  have hsave {w : Workspace} {name : Text} (hw : w.Sound) (hn : name ≠ "..") :
      (w.save (Path.file ⟨.root, ["pictures"]⟩ name) "<svg/>".toUTF8).2.Sound :=
    (save_saved hw hn).sound
  exact hsave (hsave (hsave sound_empty (by decide)) (by decide)) (by decide)

/-- The files that a run reports as written, if it returns. -/
def writtenBy? {α : Type} (run : Except Fault α × World) : Option (List Path) :=
  run.1.toOption.map fun _ => run.2.written

lemma exists_of_writtenBy? {α : Type} {run : Except Fault α × World} {written : List Path}
    (h : writtenBy? run = some written) : ∃ a t, run = (.ok a, t) ∧ t.written = written := by
  rcases run with ⟨fault | a, t⟩
  · cases h
  · cases h
    exact ⟨a, t, rfl, rfl⟩

/-- The first file is written, although it is there; which one is the first depends on the schedule. -/
theorem written_photoFirst_ne :
    (galleryExporter pictureDetour).AnswersAlone ∧ beforePictures.Sound ∧
    ((starsAndPhoto.preorder.filter Layer.isCandidate).map Layer.id).Nodup ∧
    SharesNoFiles starsAndPhoto.preorder ∧
    (∀ e ∈ (galleryExporter pictureDetour).story starsAndPhoto.preorder (.start beforePictures),
      e.Handled) ∧
    (galleryExporter pictureDetour).IsSchedule starsAndPhoto.preorder (photoFirst pictureDetour) ∧
    (∀ turn ∈ photoFirst pictureDetour,
      (galleryExporter pictureDetour).InAnyOrder turn.batch.format turn.fetches) ∧
    (∃ records t, ((galleryExporter pictureDetour).exportAll starsAndPhoto.preorder).exec
      (.start beforePictures) = (.ok records, t) ∧
        t.written = [pictureDetour.assetsDir.file "star-1-2.svg"]) ∧
    ∃ records t, ((galleryExporter pictureDetour).exportInTurns (photoFirst pictureDetour)
      starsAndPhoto.preorder).exec (.start beforePictures) = (.ok records, t) ∧
        t.written = [pictureDetour.assetsDir.file "photo-1-4.png"] :=
  ⟨answersAlone_gallery pictureDetour, sound_beforePictures, nodup_candidates_starsAndPhoto,
    sharesNoFiles_starsAndPhoto, by decide +kernel, isSchedule_photoFirst pictureDetour,
    inAnyOrder_inOrder _, exists_of_writtenBy? (by decide +kernel),
    exists_of_writtenBy? (by decide +kernel)⟩

end Exporter

end Handoff.Asset
