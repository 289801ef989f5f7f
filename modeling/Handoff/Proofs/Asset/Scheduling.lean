import Handoff.Proofs.Asset.Asking
import Handoff.Proofs.Asset.Exporting
import Handoff.Proofs.World.Filing
import Mathlib.Data.List.Forall2

/-!
The downloads of a batch in any order.

When the service answers every request the same whatever was asked before, each download is read off
its address and the tree at the start: whether it fails, which file it saves, and what it reports. So
the order in which the downloads of a batch run decides neither its results nor the files that it leaves.
-/

namespace Handoff.Asset

open Action Config Design Files Remote Workspace

namespace Exporter

variable (exporter : Exporter) {format : ExportFormat} {s t u : World} {w w' : Workspace}
  {job : Layer × Value} {jobs : List (Layer × Value)}

/-- The answers for pictures depend on the request alone. -/
def AnswersAlone : Prop :=
  ∀ r, IsPictureRequest exporter.client exporter.settings.fileKey r → ∀ earlier,
    exporter.client.service earlier r = exporter.client.service [] r

/-! ### What a download comes to -/

/-- The picture at an address. -/
def contentAt (url : Value) : Except Fault ByteArray :=
  (answered exporter.client.service [] (exporter.client.downloadRequest url)).map (·.body.content)

/-- The file that a job saves, unless its download fails. -/
def fileOf (format : ExportFormat) (job : Layer × Value) : Option (Text × ByteArray) :=
  match exporter.contentAt job.2, fileName job.1 format with
  | .ok content, .ok file => some (file, content)
  | _, _ => none

/-- The files that jobs save. -/
def filesOf (format : ExportFormat) (jobs : List (Layer × Value)) : List (Text × ByteArray) :=
  jobs.filterMap (exporter.fileOf format)

/-- The layer of a job has a file name, and its download fails for the system at most. -/
structure Fair (format : ExportFormat) (job : Layer × Value) : Prop where
  named : ∃ file, fileName job.1 format = .ok file
  handled : ∀ fault, exporter.contentAt job.2 = .error fault → fault.ofSystem = true

/-- What a job reports in a tree: the name of its file, if the tree takes it. -/
def IsFetched (format : ExportFormat) (w : Workspace) (job : Layer × Value) (result : Option Text) :
    Prop :=
  ∀ name, result = some name ↔ ∃ content, exporter.fileOf format job = some (name, content) ∧
    w.Takes (exporter.settings.assetsDir.file name)

variable {exporter}

lemma AnswersAlone.exec_download (h : exporter.AnswersAlone) (url : Value) (s : World) :
    ∃ u, SameFiles s u ∧ (exporter.client.download url).exec s = (exporter.contentAt url, u) := by
  rw [exporter.client.exec_download, contentAt, answered, answered, h _ (.inr ⟨url, rfl⟩)]
  refine ⟨_, ?_, rfl⟩
  exact ⟨rfl, rfl, rfl, rfl⟩

lemma isPlainName_format (format : ExportFormat) : IsPlainName format.name := by
  cases format <;> decide

lemma fileOf_eq_some {file : Text × ByteArray} : exporter.fileOf format job = some file ↔
    exporter.contentAt job.2 = .ok file.2 ∧ fileName job.1 format = .ok file.1 := by
  unfold fileOf
  rcases exporter.contentAt job.2 with fault | content
  · simp
  · rcases fileName job.1 format with fault | name
    · simp
    · simp [Prod.ext_iff, and_comm]

lemma isFileName_of_fileOf {file : Text × ByteArray} (h : exporter.fileOf format job = some file) :
    ∃ stem, IsFileName file.1 stem format.name := by
  obtain ⟨stem, hfilename, -⟩ := isFileName_of_fileName (fileOf_eq_some.1 h).2
  exact ⟨stem, hfilename⟩

lemma ne_dots_of_mem_filesOf : ∀ file ∈ exporter.filesOf format jobs, file.1 ≠ ".." := by
  intro file hfile
  obtain ⟨job, -, hjob⟩ := List.mem_filterMap.1 hfile
  obtain ⟨stem, hfilename⟩ := isFileName_of_fileOf hjob
  exact hfilename.ne_dots

lemma filesOf_cons : exporter.filesOf format (job :: jobs) =
    exporter.filesOf format [job] ++ exporter.filesOf format jobs :=
  List.filterMap_append (l := [job])

lemma filesOf_singleton (h : exporter.fileOf format job = none) : exporter.filesOf format [job] = [] :=
  List.filterMap_cons_none h

lemma filesOf_singleton_some {file : Text × ByteArray} (h : exporter.fileOf format job = some file) :
    exporter.filesOf format [job] = [file] :=
  List.filterMap_cons_some h

lemma IsFetched.unique {result result' : Option Text} (h : exporter.IsFetched format w job result)
    (h' : exporter.IsFetched format w job result') : result = result' :=
  Option.ext fun name => (h name).trans (h' name).symm

lemma IsFetched.congr {result : Option Text} (h : exporter.IsFetched format w' job result)
    (htakes : ∀ name, w'.Takes (exporter.settings.assetsDir.file name) ↔
      w.Takes (exporter.settings.assetsDir.file name)) : exporter.IsFetched format w job result := by
  intro name
  rw [h name]
  simp only [htakes]

/-! ### One download -/

/-- What a job reports when its download or its save ended so. -/
def report {α : Type} (file : Text) : Except Fault α → Except Fault (Option Text)
  | .ok _ => .ok (some file)
  | .error fault => if fault.ofSystem then .ok none else .error fault

lemma report_eq_ok {α : Type} {file : Text} {outcome : Except Fault α} {result : Option Text}
    (h : report file outcome = .ok result) :
    (∀ fault, outcome = .error fault → fault.ofSystem = true) ∧
      ∀ name, result = some name ↔ name = file ∧ ∃ a, outcome = .ok a := by
  cases outcome with
  | ok a =>
    cases h
    refine ⟨nofun, fun name => ?_⟩
    simp [eq_comm]
  | error fault =>
    simp only [report] at h
    split at h
    · rename_i hsystem
      cases h
      refine ⟨fun _ hf => ?_, by simp⟩
      cases hf
      exact hsystem
    · cases h

lemma exists_report {α : Type} (file : Text) (outcome : Except Fault α)
    (h : ∀ fault, outcome = .error fault → fault.ofSystem = true) :
    ∃ result, report file outcome = .ok result := by
  cases outcome with
  | ok a => exact ⟨_, rfl⟩
  | error fault => exact ⟨_, if_pos (h fault rfl)⟩

/-- An attempt whose failure for the system is noted reports how it ended. -/
lemma exec_noted (attempt : Action Unit) (note : Fault → Text) (file : Text) (s : World) :
    ∃ t, SameFiles (attempt.exec s).2 t ∧ (do
      let ended ← recover Fault.ofSystem (do attempt; return true) fun fault => do
        log .warning (note fault)
        return false
      if ended then
        log .debug ("Downloaded: " ++ file)
        return some file
      else return none : Action (Option Text)).exec s = (report file (attempt.exec s).1, t) := by
  rw [exec_bind, exec_recover, exec_bind]
  rcases attempt.exec s with ⟨fault | ⟨⟨⟩⟩, u⟩
  · cases hsystem : fault.ofSystem
    · exact ⟨u, .refl u, by simp [report, hsystem]⟩
    · refine ⟨{ u with journal := u.journal ++ [⟨.warning, note fault⟩] }, ?_, ?_⟩
      · exact ⟨rfl, rfl, rfl, rfl⟩
      · simp only [report, hsystem]
        rfl
  · refine ⟨{ u with journal := u.journal ++ [⟨.debug, "Downloaded: " ++ file⟩] }, ?_, rfl⟩
    exact ⟨rfl, rfl, rfl, rfl⟩

variable (exporter) in
/-- Downloads the picture at an address and saves it. -/
def savePicture (file : Text) (url : Value) : Action Unit := do
  let content ← exporter.client.download url
  let _ ← writeFile exporter.root (exporter.settings.assetsDir.child file) content

/-- A fetch reports how its download ended, or how the save of the picture did. -/
lemma exec_fetch_cases (halone : exporter.AnswersAlone) {file : Text}
    (hfile : fileName job.1 format = .ok file) (s : World) :
    (∃ fault t, exporter.contentAt job.2 = .error fault ∧ SameFiles s t ∧
      (exporter.fetch format job.1 job.2).exec s = (report (α := Bool) file (.error fault), t)) ∨
    ∃ content u outcome v t, exporter.contentAt job.2 = .ok content ∧ SameFiles s u ∧
      (writeFile exporter.root (exporter.settings.assetsDir.file file) content).exec u = (outcome, v) ∧
      SameFiles v t ∧ (exporter.fetch format job.1 job.2).exec s = (report file outcome, t) := by
  obtain ⟨stem, hfilename, -⟩ := isFileName_of_fileName hfile
  have hchild : exporter.settings.assetsDir.child file = exporter.settings.assetsDir.file file :=
    hfilename.child_eq _
  obtain ⟨u, hsame, hdownload⟩ := halone.exec_download job.2 s
  obtain ⟨t, hsame', hexec⟩ := exec_noted (exporter.savePicture file job.2)
    (fun fault => "⚠ Failed to download " ++ job.1.name.display ++ " (" ++ job.1.id.display ++ "): " ++
      fault.message) file s
  have hfetch : (exporter.fetch format job.1 job.2).exec s =
      (report file ((exporter.savePicture file job.2).exec s).1, t) := by
    rw [fetch, exec_bind, exec_ofExcept, hfile]
    exact hexec
  rw [savePicture, exec_bind, hdownload, hchild] at hsame' hfetch
  rcases hcontent : exporter.contentAt job.2 with fault | content <;> rw [hcontent] at hsame' hfetch
  · exact Or.inl ⟨fault, t, rfl, hsame.trans hsame', hfetch⟩
  · simp only [exec_bind] at hsame' hfetch
    rcases hwrite : (writeFile exporter.root (exporter.settings.assetsDir.file file) content).exec u
      with ⟨fault | b, v⟩ <;> rw [hwrite] at hsame' hfetch <;>
      exact Or.inr ⟨content, u, _, v, t, rfl, hsame, hwrite, hsame', hfetch⟩

lemma isFetched_none (h : exporter.fileOf format job = none) : exporter.IsFetched format w job none := by
  intro name
  simp [h]

/-- A job whose picture is saved or not reports it accordingly. -/
lemma isFetched_of_save {file : Text × ByteArray} {outcome : Except Fault Bool} {result : Option Text}
    (hw : w.Sound) (h : exporter.fileOf format job = some file)
    (hsave : (w.save (exporter.settings.assetsDir.file file.1) file.2).1 = outcome)
    (hresult : ∀ name, result = some name ↔ name = file.1 ∧ ∃ b, outcome = .ok b) :
    exporter.IsFetched format w job result := by
  obtain ⟨stem, hfilename⟩ := isFileName_of_fileOf h
  have htakes := save_file_isOk_iff exporter.settings.assetsDir file.2 hw hfilename.ne_dots
  rw [hsave] at htakes
  intro name
  rw [hresult, h, htakes]
  constructor
  · rintro ⟨rfl, hok⟩
    exact ⟨file.2, rfl, hok⟩
  · rintro ⟨content, hfile, hok⟩
    cases hfile
    exact ⟨rfl, hok⟩

/-- A fetch that returns failed for the system at most. It saves its file, and reports it when the tree
takes it. -/
lemma of_exec_fetch (halone : exporter.AnswersAlone) (hs : s.workspace.Sound) {result : Option Text}
    (h : (exporter.fetch format job.1 job.2).exec s = (.ok result, t)) :
    exporter.Fair format job ∧
      s.workspace.FilesOrdinarily exporter.settings.assetsDir (exporter.filesOf format [job]) ∧
      Deposits exporter.settings.assetsDir (exporter.filesOf format [job]) s t ∧
      exporter.IsFetched format s.workspace job result := by
  obtain ⟨file, _, hnamed, -⟩ := exec_bind_eq_ok.1 h
  obtain ⟨hfile, -⟩ := exec_ofExcept_eq_ok.1 hnamed
  rcases exec_fetch_cases halone hfile s with ⟨fault, t', hcontent, hsame, hexec⟩ |
    ⟨content, u, outcome, v, t', hcontent, hsame, hwrite, hsame', hexec⟩ <;>
    obtain ⟨hreport, rfl⟩ := Prod.mk.inj (hexec.symm.trans h) <;>
    obtain ⟨hsystem, hresult⟩ := report_eq_ok hreport
  · have hnone : exporter.fileOf format job = none := by rw [fileOf, hcontent]
    have hunreported : result = none := Option.eq_none_iff_forall_ne_some.2 fun name hname => by
      obtain ⟨-, b, hb⟩ := (hresult name).1 hname
      cases hb
    rw [filesOf_singleton hnone, hunreported]
    refine ⟨⟨⟨file, hfile⟩, fun fault' hf => ?_⟩, filesOrdinarily_nil, .of_sameFiles hs hsame,
      isFetched_none hnone⟩
    cases hcontent.symm.trans hf
    exact hsystem fault rfl
  · have hsome : exporter.fileOf format job = some (file, content) :=
      fileOf_eq_some.2 ⟨hcontent, hfile⟩
    obtain ⟨stem, hfilename⟩ := isFileName_of_fileOf hsome
    have hsave := (save_of_exec_writeFile hwrite).1
    rw [hsame.workspace] at hsave
    have hordinarily : s.workspace.FilesOrdinarily exporter.settings.assetsDir [(file, content)] :=
      filesOrdinarily_of_save hs hfilename.ne_dots fun fault hf => hsystem fault (by rw [← hf, hsave])
    have hu : u.workspace.Sound := hsame.workspace ▸ hs
    rw [filesOf_singleton_some hsome]
    refine ⟨⟨⟨file, hfile⟩, fun fault hf => ?_⟩, hordinarily, ?_,
      isFetched_of_save hs hsome (congrArg Prod.fst hsave) hresult⟩
    · cases hcontent.symm.trans hf
    · refine (Deposits.of_writeFile hu hfilename.ne_dots ?_ hwrite).between hsame hsame'
      rwa [hsame.workspace]

/-- A fetch returns when its download and the making of the directory fail for the system at most. -/
lemma exists_of_fair (halone : exporter.AnswersAlone) (hs : s.workspace.Sound)
    (hfair : exporter.Fair format job)
    (ho : s.workspace.FilesOrdinarily exporter.settings.assetsDir (exporter.filesOf format [job])) :
    ∃ result t, (exporter.fetch format job.1 job.2).exec s = (.ok result, t) := by
  obtain ⟨file, hfile⟩ := hfair.named
  rcases exec_fetch_cases halone hfile s with ⟨fault, t, hcontent, -, hexec⟩ |
    ⟨content, u, outcome, v, t, hcontent, hsame, hwrite, -, hexec⟩
  · obtain ⟨result, hresult⟩ := exists_report (α := Bool) file (.error fault)
      fun _ hf => by cases hf; exact hfair.handled fault hcontent
    exact ⟨result, t, by rw [hexec, hresult]⟩
  · have hsome : exporter.fileOf format job = some (file, content) :=
      fileOf_eq_some.2 ⟨hcontent, hfile⟩
    obtain ⟨stem, hfilename⟩ := isFileName_of_fileOf hsome
    rw [filesOf_singleton_some hsome] at ho
    have hsave := (save_of_exec_writeFile hwrite).1
    rw [hsame.workspace] at hsave
    obtain ⟨result, hresult⟩ := exists_report file outcome fun fault hf => by
      refine ofSystem_of_save content hs
        (hfilename.isPlainName (isPlainName_format format))
        (fun htries => ho ⟨_, List.mem_cons_self, htries⟩) ?_
      rw [hsave, hf]
    exact ⟨result, t, by rw [hexec, hresult]⟩

/-! ### Several downloads -/

variable (exporter)

/-- The downloads of jobs, one at a time in some order. Each outcome has the place of its job. -/
inductive Fetches (format : ExportFormat) : List (Layer × Value) → World →
    List (Except Fault (Option Text)) → World → Prop
  | done (s : World) : Fetches format [] s [] s
  | next {before after : List (Layer × Value)} {found found' : List (Except Fault (Option Text))}
      {job : Layer × Value} {outcome : Except Fault (Option Text)} {s t u : World}
      (hrun : (exporter.fetch format job.1 job.2).exec s = (outcome, t))
      (hrest : Fetches format (before ++ after) t (found ++ found') u)
      (hplace : found.length = before.length) :
      Fetches format (before ++ job :: after) s (found ++ outcome :: found') u

variable {exporter}

lemma mem_filesOf_middle {before after : List (Layer × Value)} {file : Text × ByteArray} :
    file ∈ exporter.filesOf format (before ++ job :: after) ↔
      file ∈ exporter.filesOf format [job] ++ exporter.filesOf format (before ++ after) := by
  rw [← filesOf_cons]
  exact (List.perm_middle.filterMap _).mem_iff

/-- The names of the first job's files and the others'. -/
lemma names_middle {before after : List (Layer × Value)}
    (h : ((exporter.filesOf format (before ++ job :: after)).map Prod.fst).Nodup) :
    ((exporter.filesOf format (before ++ after)).map Prod.fst).Nodup ∧
      ∀ file ∈ exporter.filesOf format [job], ∀ file' ∈ exporter.filesOf format (before ++ after),
        file.1 ≠ file'.1 := by
  have hmiddle : (before ++ job :: after).Perm (job :: (before ++ after)) := List.perm_middle
  have hperm := hmiddle.filterMap (exporter.fileOf format)
  have hnodup := (hperm.map Prod.fst).nodup_iff.1 h
  change ((exporter.filesOf format (job :: (before ++ after))).map Prod.fst).Nodup at hnodup
  rw [filesOf_cons, List.map_append, List.nodup_append] at hnodup
  exact ⟨hnodup.2.1, fun file hfile file' hfile' =>
    hnodup.2.2 _ (List.mem_map_of_mem hfile) _ (List.mem_map_of_mem hfile')⟩

/-- A pair goes between related lists. -/
lemma forall₂_middle {α β : Type} {r : α → β → Prop} {before after : List α} {a : α} {bs bs' : List β}
    {b : β} (h : List.Forall₂ r (before ++ after) (bs ++ bs')) (hlength : bs.length = before.length)
    (hab : r a b) : List.Forall₂ r (before ++ a :: after) (bs ++ b :: bs') := by
  have hfront := List.forall₂_take_append _ _ _ h
  have hback := List.forall₂_drop_append _ _ _ h
  rw [hlength, List.take_left] at hfront
  rw [hlength, List.drop_left] at hback
  exact List.rel_append hfront (.cons hab hback)

/-- Downloads that all return failed for the system at most. They save their files, and each reports
its own, whatever the order. -/
theorem of_fetches (halone : exporter.AnswersAlone) {outcomes : List (Except Fault (Option Text))}
    (h : exporter.Fetches format jobs s outcomes t) (hs : s.workspace.Sound)
    (hnames : ((exporter.filesOf format jobs).map Prod.fst).Nodup) {files : List (Option Text)}
    (hok : outcomes = files.map .ok) :
    (∀ job ∈ jobs, exporter.Fair format job) ∧
      s.workspace.FilesOrdinarily exporter.settings.assetsDir (exporter.filesOf format jobs) ∧
      Deposits exporter.settings.assetsDir (exporter.filesOf format jobs) s t ∧
      List.Forall₂ (exporter.IsFetched format s.workspace) jobs files := by
  induction h generalizing files with
  | done s =>
    obtain rfl : files = [] := by simpa using hok.symm
    exact ⟨nofun, filesOrdinarily_nil, .of_sameFiles hs (.refl s), .nil⟩
  | @next before after found found' job outcome s t u hrun hrest hplace ih =>
    obtain ⟨fs, rest, rfl, rfl, hrest'⟩ := List.append_eq_map_iff.1 hok
    obtain ⟨f, fs', rfl, rfl, rfl⟩ := List.map_eq_cons_iff.1 hrest'
    rw [List.length_map] at hplace
    obtain ⟨hothers, hapart⟩ := names_middle hnames
    obtain ⟨hfair, hordinarily, hdeposits, hfetched⟩ := of_exec_fetch halone hs hrun
    obtain ⟨hfairs, hordinarilies, hdeposits', hfetcheds⟩ := ih hdeposits.tree.sound hothers
      List.map_append.symm
    have hdots : ∀ file ∈ exporter.filesOf format [job] ++ exporter.filesOf format (before ++ after),
        file.1 ≠ ".." :=
      List.forall_mem_append.2 ⟨ne_dots_of_mem_filesOf, ne_dots_of_mem_filesOf⟩
    refine ⟨?_, ?_, ?_, ?_⟩
    · rw [List.forall_mem_append, List.forall_mem_cons]
      rw [List.forall_mem_append] at hfairs
      exact ⟨hfairs.1, hfair, hfairs.2⟩
    · exact ((hdeposits.tree.filesOrdinarily_append).2 ⟨hordinarily, hordinarilies⟩).congr
        fun _ => mem_filesOf_middle
    · exact (hdeposits.trans hdeposits' hs hdots hapart).congr fun _ => mem_filesOf_middle
    · exact forall₂_middle (hfetcheds.imp fun _ _ hf => hf.congr hdeposits.tree.takes) hplace hfetched

/-- Downloads in any order all return when they and the making of the directory fail for the system at
most. -/
theorem exists_of_fetches (halone : exporter.AnswersAlone)
    {outcomes : List (Except Fault (Option Text))} (h : exporter.Fetches format jobs s outcomes t)
    (hs : s.workspace.Sound) (hfair : ∀ job ∈ jobs, exporter.Fair format job)
    (ho : s.workspace.FilesOrdinarily exporter.settings.assetsDir (exporter.filesOf format jobs)) :
    ∃ files : List (Option Text), outcomes = files.map .ok := by
  induction h with
  | done s => exact ⟨[], rfl⟩
  | @next before after found found' job outcome s t u hrun hrest hplace ih =>
    rw [List.forall_mem_append, List.forall_mem_cons] at hfair
    have hall : s.workspace.FilesOrdinarily exporter.settings.assetsDir
        (exporter.filesOf format [job] ++ exporter.filesOf format (before ++ after)) :=
      ho.congr fun _ => mem_filesOf_middle.symm
    obtain ⟨f, t', hexec⟩ := exists_of_fair halone hs hfair.2.1 fun htry =>
      hall (triesSome_append.2 (Or.inl htry))
    obtain ⟨rfl, rfl⟩ := Prod.mk.inj (hexec.symm.trans hrun)
    obtain ⟨-, -, hdeposits, -⟩ := of_exec_fetch halone hs hexec
    obtain ⟨files, hfiles⟩ := ih hdeposits.tree.sound
      (List.forall_mem_append.2 ⟨hfair.1, hfair.2.2⟩)
      ((hdeposits.tree.filesOrdinarily_append).1 hall).2
    obtain ⟨fs, fs', rfl, rfl, rfl⟩ := List.append_eq_map_iff.1 hfiles
    exact ⟨fs ++ f :: fs', by rw [List.map_append, List.map_cons]⟩

/-- The action runs the downloads of jobs one at a time, in an order that may depend on everything so
far; the first fault in the order of the jobs is the fault of the whole. -/
def InAnyOrder (exporter : Exporter) (format : ExportFormat)
    (fetches : List (Layer × Value) → Action (List (Option Text))) : Prop :=
  ∀ jobs s, ∃ outcomes t, exporter.Fetches format jobs s outcomes t ∧
    (fetches jobs).exec s = (outcomes.mapM id, t)

/-- The order of the jobs is one. -/
lemma inAnyOrder_all (exporter : Exporter) (format : ExportFormat) :
    exporter.InAnyOrder format fun jobs =>
      Action.all (jobs.map fun job => exporter.fetch format job.1 job.2) := by
  intro jobs s
  refine ⟨_, _, ?_, exec_all _ s⟩
  induction jobs generalizing s with
  | nil => exact .done s
  | cons job rest ih => 
    exact (Fetches.next rfl (ih _) rfl : exporter.Fetches format ([] ++ job :: rest) s ([] ++ _ :: _) _)

end Exporter

end Handoff.Asset
