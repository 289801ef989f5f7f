import Handoff.Proofs.Asset.Outcomes
import Handoff.Proofs.World.Touching

/-!
Where the files of an export come from.

A file is entered for a layer only after the layer's picture was downloaded and saved. Later saves go
to files of other names, so at the end of the export the file holds what was downloaded for the layer.
-/

namespace Handoff.Asset

open Action Config Design Files Remote

/-! ### Tables -/

section

variable {κ α : Type} [BEq κ] [LawfulBEq κ] {table other : Table κ α} {key : κ} {value : α}
  {e : κ × α}

lemma mem_put (h : e ∈ table.put key value) : e ∈ table ∨ e = (key, value) := by
  induction table with
  | nil => exact Or.inr (List.mem_singleton.1 h)
  | cons entry rest ih =>
    obtain ⟨k, v⟩ := entry
    rw [Table.put] at h
    by_cases hk : (k == key) = true
    · rw [if_pos hk, LawfulBEq.eq_of_beq hk] at h
      rcases List.mem_cons.1 h with rfl | h
      · exact Or.inr rfl
      · exact Or.inl (List.mem_cons_of_mem _ h)
    · rw [if_neg hk] at h
      rcases List.mem_cons.1 h with rfl | h
      · exact Or.inl List.mem_cons_self
      · exact (ih h).imp (List.mem_cons_of_mem _) id

lemma mem_merge (h : e ∈ table.merge other) : e ∈ table ∨ e ∈ other := by
  induction other generalizing table with
  | nil => exact Or.inl h
  | cons entry rest ih =>
    rcases ih h with h | h
    · refine (mem_put h).imp id fun he => ?_
      rw [he]
      exact List.mem_cons_self
    · exact Or.inr (List.mem_cons_of_mem _ h)

end

namespace Exporter

variable {exporter : Exporter} {layer : Layer} {layers : List Layer} {format : ExportFormat}
  {events : List Event} {w w' : Workspace} {key : Key} {file : Text} {s t u : World}

/-- The file of a layer after an export: its picture was downloaded, and what was downloaded is
stored. -/
structure Keeps (exporter : Exporter) (events : List Event) (w : Workspace) (layer : Layer)
    (file : Text) : Prop where
  named : HasFile layer file
  loaded : ∃ url content, .downloaded layer url (.ok content) ∈ events ∧
    w.Stores (exporter.settings.assetsDir.child file) content

/-- An entry for one of some layers, under its id. -/
def Sourced (exporter : Exporter) (layers : List Layer) (events : List Event) (w : Workspace)
    (entry : Key × Text) : Prop :=
  ∃ layer ∈ layers, layer.id.key = .ok entry.1 ∧ exporter.Keeps events w layer entry.2

lemma HasFile.endsIn (h : HasFile layer file) (dir : Path) : (dir.child file).EndsIn file := by
  obtain ⟨_, -, hname⟩ := h
  obtain ⟨_, hfile, -⟩ := isFileName_of_fileName hname
  exact hfile.endsIn dir

/-- A file stays what it is when only files of other names are saved. -/
lemma Keeps.changed {names : Text → Prop} (h : exporter.Keeps events w layer file)
    (hc : Changed names w w') (hfree : ¬ names file) : exporter.Keeps events w' layer file := by
  obtain ⟨url, content, hloaded, hstores⟩ := h.loaded
  exact ⟨h.named, url, content, hloaded, hc.stores (HasFile.endsIn h.named _) hfree hstores⟩

lemma Keeps.mono {events' : List Event} (h : exporter.Keeps events w layer file)
    (hsub : events ⊆ events') : exporter.Keeps events' w layer file := by
  obtain ⟨url, content, hloaded, hstores⟩ := h.loaded
  exact ⟨h.named, url, content, hsub hloaded, hstores⟩

lemma Sourced.changed {names : Text → Prop} {entry : Key × Text}
    (h : exporter.Sourced layers events w entry) (hc : Changed names w w')
    (hfree : ¬ names entry.2) : exporter.Sourced layers events w' entry := by
  obtain ⟨layer, hmem, hkey, hkeeps⟩ := h
  exact ⟨layer, hmem, hkey, hkeeps.changed hc hfree⟩

lemma Sourced.mono {layers' : List Layer} {events' : List Event} {entry : Key × Text}
    (h : exporter.Sourced layers events w entry) (hl : layers ⊆ layers') (he : events ⊆ events') :
    exporter.Sourced layers' events' w entry := by
  obtain ⟨layer, hmem, hkey, hkeeps⟩ := h
  exact ⟨layer, hl hmem, hkey, hkeeps.mono he⟩

/-- The names of the files of layers in a format. -/
def NamedAmong (format : ExportFormat) (layers : List Layer) (n : Text) : Prop :=
  ∃ layer ∈ layers, fileName layer format = .ok n

lemma HasFile.fileName_eq (h : HasFile layer file)
    (hformat : layer.exportFormat? = .ok (some format)) : fileName layer format = .ok file := by
  obtain ⟨format', hformat', hname⟩ := h
  cases hformat.symm.trans hformat'
  exact hname

/-- The layers of a format are apart from others in the format: no entry for one of them has the name
of another's file. -/
lemma Sourced.not_namedAmong {others : List Layer} {entry : Key × Text}
    (h : exporter.Sourced layers events w entry)
    (hformat : ∀ layer ∈ layers, layer.exportFormat? = .ok (some format))
    (hapart : ∀ a ∈ layers, ∀ b ∈ others, Apart format a b) :
    ¬ NamedAmong format others entry.2 := by
  obtain ⟨layer, hmem, -, hkeeps⟩ := h
  rintro ⟨other, hother, hname⟩
  exact hapart layer hmem other hother entry.2
    (HasFile.fileName_eq hkeeps.named (hformat layer hmem)) hname

/-- Files of different formats have different extensions. -/
lemma not_namedAmong_of_ne {format' : ExportFormat} (hne : format ≠ format') {others : List Layer}
    (h : NamedAmong format layers file) : ¬ NamedAmong format' others file := by
  obtain ⟨a, -, ha⟩ := h
  rintro ⟨b, -, hb⟩
  obtain ⟨stem, hstem, -⟩ := isFileName_of_fileName ha
  obtain ⟨stem', hstem', -⟩ := isFileName_of_fileName hb
  have hext := (hstem.inj hstem').2
  cases format <;> cases format' <;> first | exact hne rfl | exact absurd hext (by decide)

/-! ### Pictures -/

/-- A download that gave a file has saved it. -/
lemma keeps_of_exec_fetch (hs : s.workspace.Sound)
    (hformat : layer.exportFormat? = .ok (some format)) {url : Value}
    (h : (exporter.fetch format layer url).exec s = (.ok (some file), t)) :
    fileName layer format = .ok file ∧
      exporter.Keeps (exporter.fetchEvents format layer url s) t.workspace layer file := by
  obtain ⟨name, s', hexec, h⟩ := exec_bind_eq_ok.1 h
  obtain ⟨hname, rfl⟩ := exec_ofExcept_eq_ok.1 hexec
  obtain ⟨ended, v, hended, h⟩ := exec_bind_eq_ok.1 h
  cases ended with
  | false => cases h
  | true =>
    obtain ⟨⟨⟩, v', hlog, h⟩ := exec_bind_eq_ok.1 h
    cases hlog
    cases h
    rw [exec_recover] at hended
    split at hended
    · rename_i hdone
      cases hended
      obtain ⟨⟨⟩, u, hdone, hend⟩ := exec_bind_eq_ok.1 hdone
      cases hend
      obtain ⟨content, u, hdownload, hdone⟩ := exec_bind_eq_ok.1 hdone
      obtain ⟨written, u', hwrite, hend⟩ := exec_bind_eq_ok.1 hdone
      cases hend
      have hnamed : HasFile layer file := ⟨format, hformat, hname⟩
      have hends := HasFile.endsIn hnamed exporter.settings.assetsDir
      have hsame := (exporter.client.steady_download url).sameFiles s
      rw [hdownload] at hsame
      refine ⟨hname, hnamed, url, content, ?_, ?_⟩
      · unfold fetchEvents
        rw [hdownload]
        exact List.mem_cons_self
      · obtain ⟨a, ps, hpath⟩ := hends.exists_eq
        rw [hpath] at hwrite ⊢
        have hsound : u.workspace.Sound := hsame.workspace ▸ hs
        exact (HasFootprint.saved_of_exec hsound hends.ne_dots hwrite).stores rfl
    · -- A download that failed gives no file.
      split at hended
      · obtain ⟨⟨⟩, v', -, hended⟩ := exec_bind_eq_ok.1 hended
        cases hended
      · cases hended

/-- Downloads that gave files have saved them, each under a name of its own. -/
lemma keeps_of_exec_fetches {jobs : List (Layer × Value)} {files : List (Option Text)}
    (hs : s.workspace.Sound) (hformat : ∀ job ∈ jobs, job.1.exportFormat? = .ok (some format))
    (hd : (jobs.map Prod.fst).Pairwise (Apart format))
    (h : (Action.all (jobs.map fun job => exporter.fetch format job.1 job.2)).exec s =
      (.ok files, t)) :
    ∀ pair ∈ jobs.zip files, ∀ file, pair.2 = some file →
      exporter.Keeps (exporter.jobEvents format jobs s) t.workspace pair.1.1 file := by
  induction jobs generalizing s files with
  | nil => exact fun pair hpair => nomatch hpair
  | cons job rest ih =>
    rw [List.map_cons, exec_all_cons_eq_ok] at h
    obtain ⟨result, u, hfirst, h⟩ := exec_bind_eq_ok.1 h
    obtain ⟨others, v, hrest, h⟩ := exec_bind_eq_ok.1 h
    cases h
    rw [List.map_cons, List.pairwise_cons] at hd
    obtain ⟨hformat, hformats⟩ := List.forall_mem_cons.1 hformat
    have hu := (exporter.hasFootprint_fetch format job.1 job.2).changed hs hfirst
    have hevents : exporter.jobEvents format (job :: rest) s =
        exporter.fetchEvents format job.1 job.2 s ++ exporter.jobEvents format rest u := by
      rw [jobEvents, hfirst]
    have hlater : Changed (NamedAmong format (rest.map Prod.fst)) u.workspace t.workspace := by
      have hall := HasFootprint.all (fun (job : Layer × Value) n => fileName job.1 format = .ok n)
        (fun job (_ : job ∈ rest) => exporter.hasFootprint_fetch format job.1 job.2)
        (List.pairwise_map.1 hd.2)
      refine (hall.changed hu.sound hrest).mono ?_
      rintro n ⟨job, hjob, hn⟩
      exact ⟨job.1, List.mem_map_of_mem hjob, hn⟩
    rw [hevents, List.zip_cons_cons, List.forall_mem_cons]
    constructor
    · rintro file rfl
      obtain ⟨hname, hkeeps⟩ := keeps_of_exec_fetch hs hformat hfirst
      refine (hkeeps.changed hlater ?_).mono (List.subset_append_left ..)
      rintro ⟨other, hother, hn⟩
      exact hd.1 other hother file hname hn
    · intro pair hpair file hfile
      exact (ih hu.sound hformats hd.2 hrest pair hpair file hfile).mono
        (List.subset_append_right ..)

lemma mem_collect {pairs : List ((Layer × Value) × Option Text)} {exported table : Exported}
    (h : collect exported pairs = .ok table) : ∀ e ∈ table, e ∈ exported ∨
      ∃ pair ∈ pairs, pair.1.1.id.key = .ok e.1 ∧ pair.2 = some e.2 := by
  induction pairs generalizing exported with
  | nil =>
    cases h
    exact fun e he => Or.inl he
  | cons pair rest ih =>
    have hlater {e : Key × Text}
        (he : ∃ pair ∈ rest, pair.1.1.id.key = .ok e.1 ∧ pair.2 = some e.2) :
        ∃ p ∈ pair :: rest, p.1.1.id.key = .ok e.1 ∧ p.2 = some e.2 := by
      obtain ⟨p, hp, he⟩ := he
      exact ⟨p, List.mem_cons_of_mem _ hp, he⟩
    obtain ⟨⟨layer, url⟩, _ | file⟩ := pair
    · exact fun e he => (ih h e he).imp id hlater
    · obtain ⟨key, hkey, h⟩ := bind_eq_ok.1 h
      intro e he
      rcases ih h e he with he | he
      · refine (mem_put he).imp id fun he => ⟨_, List.mem_cons_self, ?_⟩
        rw [he]
        exact ⟨hkey, rfl⟩
      · exact Or.inr (hlater he)

/-! ### Batches -/

lemma sourced_of_exec_fetchBatch {batch : List Layer} {urls : Value} {found : Exported}
    (hs : s.workspace.Sound) (hformat : ∀ layer ∈ batch, layer.exportFormat? = .ok (some format))
    (hd : batch.Pairwise (Apart format))
    (h : (exporter.fetchBatch format batch urls).exec s = (.ok found, t)) :
    ∃ jobs, jobsAmong urls batch = .ok jobs ∧
      ∀ e ∈ found, exporter.Sourced batch (exporter.jobEvents format jobs s) t.workspace e := by
  obtain ⟨journal, hexec⟩ := exec_jobs urls batch s
  obtain ⟨jobs, u, hjobs, h⟩ := exec_bind_eq_ok.1 h
  obtain ⟨hok, rfl⟩ := Prod.mk.inj (hexec.symm.trans hjobs)
  obtain ⟨files, v, hfiles, h⟩ := exec_bind_eq_ok.1 h
  obtain ⟨hcollect, rfl⟩ := exec_ofExcept_eq_ok.1 h
  have hsub := jobsAmong_sublist hok
  have halike : Alike s { s with journal } := ⟨journal, rfl⟩
  have hkeeps := keeps_of_exec_fetches (s := { s with journal }) hs
    (fun job hjob => hformat _ (hsub.subset (List.mem_map_of_mem hjob))) (hd.sublist hsub) hfiles
  rw [exporter.jobEvents_alike halike] at hkeeps
  refine ⟨jobs, hok, fun e he => ?_⟩
  rcases mem_collect hcollect e he with he | ⟨pair, hpair, hkey, hfile⟩
  · cases he
  · have hjob : pair.1 ∈ jobs := (List.of_mem_zip hpair).1
    exact ⟨pair.1.1, hsub.subset (List.mem_map_of_mem hjob), hkey, hkeeps pair hpair e.2 hfile⟩

lemma sourced_of_exec_exportBatch {batch : List Layer} {index total : Nat} {found : Exported}
    (hs : s.workspace.Sound) (hformat : ∀ layer ∈ batch, layer.exportFormat? = .ok (some format))
    (hd : batch.Pairwise (Apart format))
    (h : (exporter.exportBatch format index total batch).exec s = (.ok found, t)) :
    (∀ e ∈ found, exporter.Sourced batch (exporter.batchEvents format batch s) t.workspace e) ∧
      Alike (exporter.afterBatch format batch s) t ∧
      Changed (NamedAmong format batch) s.workspace t.workspace := by
  obtain ⟨urls?, u, haddresses, h⟩ := exec_bind_eq_ok.1 h
  rw [exec_addresses] at haddresses
  have hsame := (exporter.steady_ask format batch).sameFiles s
  unfold batchEvents afterBatch
  rcases hask : (exporter.ask format batch).exec s with ⟨fault | urls, v⟩
  · rw [hask] at haddresses hsame
    simp only at haddresses
    split at haddresses
    · cases haddresses
      cases h
      refine ⟨List.forall_mem_nil _, ⟨_, rfl⟩, ?_⟩
      rw [hsame.workspace]
      exact .refl hs
    · cases haddresses
  · rw [hask] at haddresses hsame
    cases haddresses
    have hu : u.workspace.Sound := hsame.workspace ▸ hs
    obtain ⟨jobs, hjobs, hsourced⟩ := sourced_of_exec_fetchBatch hu hformat hd h
    have hbind : (Except.ok urls : Except Fault Value).bind
        (fun urls => jobsAmong urls batch) = .ok jobs := hjobs
    have hafter : ((exporter.fetchBatch format batch urls).exec u).2 = t := congrArg Prod.snd h
    simp only [hbind, hafter]
    refine ⟨fun e he => (hsourced e he).mono (List.Subset.refl _) (List.subset_cons_self ..),
      .refl t, ?_⟩
    have hchanged := (exporter.hasFootprint_fetchBatch urls hd).changed hu h
    rwa [hsame.workspace] at hchanged

lemma sourced_of_exec_exportBatches {batches : List (List Layer)} {index total : Nat}
    {exported table : Exported} (hs : s.workspace.Sound)
    (hformat : ∀ layer ∈ batches.flatten, layer.exportFormat? = .ok (some format))
    (hd : batches.flatten.Pairwise (Apart format))
    (h : (exporter.exportBatches format total index exported batches).exec s = (.ok table, t)) :
    ∀ e ∈ table, e ∈ exported ∨
      exporter.Sourced batches.flatten (exporter.batchesEvents format batches s) t.workspace e := by
  induction batches generalizing s index exported with
  | nil =>
    cases h
    exact fun e he => Or.inl he
  | cons batch rest ih =>
    rw [List.flatten_cons, List.forall_mem_append] at hformat
    rw [List.flatten_cons, List.pairwise_append] at hd
    obtain ⟨hfirst, hrest, hapart⟩ := hd
    rw [exportBatches_cons] at h
    obtain ⟨⟨⟩, v, hlog, h⟩ := exec_bind_eq_ok.1 h
    obtain ⟨found, u, hbatch, h⟩ := exec_bind_eq_ok.1 h
    have halike := alike_of_log hlog
    have hv : v.workspace.Sound := halike.workspace ▸ hs
    obtain ⟨hsourced, hafter, hchanged⟩ := sourced_of_exec_exportBatch hv hformat.1 hfirst hbatch
    have hlater := (exporter.hasFootprint_exportBatches total (index + 1) (exported.merge found)
      hrest).changed hchanged.sound h
    have hevents : exporter.batchesEvents format (batch :: rest) s =
        exporter.batchEvents format batch s ++ exporter.batchesEvents format rest u := by
      have hafter := (exporter.alike_afterBatch halike format batch).trans hafter
      rw [batchesEvents, exporter.batchesEvents_alike hafter]
    rw [exporter.batchEvents_alike halike] at hsourced
    rw [hevents, List.flatten_cons]
    intro e he
    rcases ih hchanged.sound hformat.2 hrest h e he with he | he
    · refine (mem_merge he).imp id fun he => ?_
      refine ((hsourced e he).changed hlater ?_).mono (List.subset_append_left ..)
        (List.subset_append_left ..)
      exact (hsourced e he).not_namedAmong hformat.1 hapart
    · exact Or.inr (he.mono (List.subset_append_right ..) (List.subset_append_right ..))

/-! ### Formats -/

lemma sourced_of_exec_exportFormat {table : Exported} (hs : s.workspace.Sound)
    (hformat : ∀ layer ∈ layers, layer.exportFormat? = .ok (some format))
    (hd : layers.Pairwise (Apart format))
    (h : (exporter.exportFormat format layers).exec s = (.ok table, t)) :
    ∀ e ∈ table, exporter.Sourced layers (exporter.formatEvents format layers s) t.workspace e := by
  obtain ⟨parts, s', hexec, h⟩ := exec_bind_eq_ok.1 h
  obtain ⟨hparts, rfl⟩ := exec_ofExcept_eq_ok.1 hexec
  have hsub := batches_flatten_sublist hparts
  simp only [formatEvents, hparts]
  intro e he
  have hsourced := sourced_of_exec_exportBatches hs (fun layer hl => hformat layer (hsub.subset hl))
    (hd.sublist hsub) h e he
  rcases hsourced with he | he
  · cases he
  · exact he.mono hsub.subset (List.Subset.refl _)

lemma sourced_of_exec_formats {partitions : Partitions} {formats : List ExportFormat}
    {tables : List Exported} (hs : s.workspace.Sound) (hn : formats.Nodup)
    (hformat : ∀ format, ∀ layer ∈ partitions.of format, layer.exportFormat? = .ok (some format))
    (hd : ∀ format, (partitions.of format).Pairwise (Apart format))
    (h : (Action.all (formats.map fun format =>
      exporter.exportFormat format (partitions.of format))).exec s = (.ok tables, t)) :
    ∀ e ∈ tables.flatten, ∃ format ∈ formats, exporter.Sourced (partitions.of format)
      (exporter.formatsEvents partitions formats s) t.workspace e := by
  induction formats generalizing s tables with
  | nil =>
    cases h
    exact fun e he => nomatch he
  | cons format rest ih =>
    rw [List.map_cons, exec_all_cons_eq_ok] at h
    obtain ⟨table, u, hfirst, h⟩ := exec_bind_eq_ok.1 h
    obtain ⟨others, v, hrest, h⟩ := exec_bind_eq_ok.1 h
    cases h
    rw [List.nodup_cons] at hn
    have hu := (exporter.hasFootprint_exportFormat (hd format)).changed hs hfirst
    have hlater : Changed (fun n => ∃ other ∈ rest, NamedAmong other (partitions.of other) n)
        u.workspace t.workspace := by
      have hall := HasFootprint.all (fun other n => NamedAmong other (partitions.of other) n)
        (fun other (_ : other ∈ rest) => exporter.hasFootprint_exportFormat (hd other))
        (hn.2.imp fun hne n ha => not_namedAmong_of_ne hne ha)
      exact hall.changed hu.sound hrest
    have hevents : exporter.formatsEvents partitions (format :: rest) s =
        exporter.formatEvents format (partitions.of format) s ++
          exporter.formatsEvents partitions rest u := by
      rw [formatsEvents, hfirst]
    rw [hevents, List.flatten_cons, List.forall_mem_append]
    constructor
    · intro e he
      have hsourced := sourced_of_exec_exportFormat hs (hformat format) (hd format) hfirst e he
      refine ⟨format, List.mem_cons_self, (hsourced.changed hlater ?_).mono (List.Subset.refl _)
        (List.subset_append_left ..)⟩
      rintro ⟨other, hother, hnamed⟩
      have hne : format ≠ other := fun heq => hn.1 (heq ▸ hother)
      obtain ⟨layer, hmem, -, hkeeps⟩ := hsourced
      exact not_namedAmong_of_ne hne
        ⟨layer, hmem, HasFile.fileName_eq hkeeps.named (hformat format layer hmem)⟩ hnamed
    · intro e he
      obtain ⟨other, hother, hsourced⟩ := ih hu.sound hn.2 hrest e he
      exact ⟨other, List.mem_cons_of_mem _ hother,
        hsourced.mono (List.Subset.refl _) (List.subset_append_right ..)⟩

/-! ### Records -/

lemma file_of_record {exported : Exported} {record : Record}
    (h : Exporter.record exported layer = .ok record) (hfile : record.file = some file) :
    ∃ key, record.id.key = .ok key ∧ exported.lookup key = some file := by
  obtain ⟨format?, -, h⟩ := bind_eq_ok.1 h
  cases format? with
  | none => cases h
  | some format =>
    obtain ⟨key, hkey, h⟩ := bind_eq_ok.1 h
    cases h
    exact ⟨key, hkey, hfile⟩

lemma nodup_formats (partitions : Partitions) : partitions.formats.Nodup :=
  List.Nodup.filter _ (by decide)

/-- A record with a file has it from the export. -/
theorem sourced_of_exec_exportAll {records : List Record} (hs : s.workspace.Sound)
    (hd : SharesNoFiles layers) (h : (exporter.exportAll layers).exec s = (.ok records, t)) :
    ∀ record ∈ records, ∀ file, record.file = some file → ∃ key, record.id.key = .ok key ∧
      exporter.Sourced layers (exporter.story layers s) t.workspace (key, file) := by
  obtain ⟨⟨⟩, u, hlog, h⟩ := exec_bind_eq_ok.1 h
  obtain ⟨candidates, v, hcandidates, h⟩ := exec_bind_eq_ok.1 h
  obtain ⟨journal, hgives⟩ := exec_ofLogged_of_gives (gives_candidates layers) u
  obtain ⟨hok, rfl⟩ := Prod.mk.inj (hgives.symm.trans hcandidates)
  have hsub := candidatesAmong_sublist hok
  rw [exec_ite] at h
  split at h
  · obtain ⟨⟨⟩, w, -, h⟩ := exec_bind_eq_ok.1 h
    cases h
    exact fun record hrecord => nomatch hrecord
  obtain ⟨partitions, w, hpartition, h⟩ := exec_bind_eq_ok.1 h
  obtain ⟨hp, rfl⟩ := exec_ofExcept_eq_ok.1 hpartition
  obtain ⟨⟨⟩, x, hfound, h⟩ := exec_bind_eq_ok.1 h
  obtain ⟨tables, y, htables, h⟩ := exec_bind_eq_ok.1 h
  obtain ⟨found, z, hexec, h⟩ := exec_bind_eq_ok.1 h
  obtain ⟨hrecords, rfl⟩ := exec_ofExcept_eq_ok.1 hexec
  have halike : Alike s x :=
    ((alike_of_log hlog).trans ⟨journal, rfl⟩).trans (alike_of_log hfound)
  have hx : x.workspace.Sound := halike.workspace ▸ hs
  have hformat (format : ExportFormat) : ∀ layer ∈ partitions.of format,
      layer.exportFormat? = .ok (some format) := exportFormat_of_mem hp
  have hapart (format : ExportFormat) : (partitions.of format).Pairwise (Apart format) := by
    have hparts := (hd.sublist hsub).sublist (partition_sublist hp format)
    refine hparts.imp_of_mem fun ha hb hab file hf hf' => ?_
    have hcandidate := isAssetCandidate_of_mem hok
    have hpart := (partition_sublist hp format).subset
    exact hab (hcandidate _ (hpart ha)) (hcandidate _ (hpart hb)) file
      ⟨format, hformat format _ ha, hf⟩ ⟨format, hformat format _ hb, hf'⟩
  have hsourced := sourced_of_exec_formats hx (nodup_formats partitions) hformat hapart htables
  have hstory : exporter.story layers s =
      exporter.formatsEvents partitions partitions.formats x := by
    rw [exporter.formatsEvents_alike halike]
    simp only [story, hok, Except.bind, hp]
  -- What is left is a message about what is missing.
  have hend : found = records ∧ t.workspace = y.workspace := by
    simp only [exec_ite] at h
    split at h
    · obtain ⟨⟨⟩, z, hnote, hend⟩ := exec_bind_eq_ok.1 h
      cases hend
      exact ⟨rfl, (alike_of_log hnote).workspace⟩
    · cases h
      exact ⟨rfl, rfl⟩
  obtain ⟨rfl, hworkspace⟩ := hend
  rw [hstory, hworkspace]
  intro record hrecord file hfile
  obtain ⟨layer, -, hlayer⟩ := exists_of_mem_forall₂ (forall₂_of_mapM hrecords) hrecord
  obtain ⟨key, hkey, hlookup⟩ := file_of_record hlayer hfile
  refine ⟨key, hkey, ?_⟩
  have hmem : (key, file) ∈ tables.flatten := by
    have hentry : (key, file) ∈ Table.merge [] tables.flatten :=
      Table.mem_of_lookup hlookup
    exact (mem_merge hentry).resolve_left List.not_mem_nil
  obtain ⟨format, -, hentry⟩ := hsourced _ hmem
  exact hentry.mono ((partition_sublist hp format).trans hsub).subset (List.Subset.refl _)

/-- The files of an export: each is the file of one of the layers, entered under the layer's id, and
holds what was downloaded for the layer. -/
theorem sourced_of_filesOf {records : List Record} {files : FileMap} (hs : s.workspace.Sound)
    (hd : SharesNoFiles layers) (h : (exporter.exportAll layers).exec s = (.ok records, t))
    (hfiles : filesOf records = .ok files) (hfile : files.file? key = some file) :
    exporter.Sourced layers (exporter.story layers s) t.workspace (key, file) := by
  obtain ⟨entries, hentries, hfiles⟩ := bind_eq_ok.1 hfiles
  cases hfiles
  have hmem : (key, some file) ∈ entries := by
    have hentry : (key, some file) ∈ Table.merge [] entries :=
      Table.mem_of_lookup (lookup_of_file hfile)
    exact (mem_merge hentry).resolve_left List.not_mem_nil
  obtain ⟨record, hrecord, he⟩ := exists_of_mem_forall₂ (forall₂_of_mapM hentries) hmem
  obtain ⟨key', hkey, he⟩ := bind_eq_ok.1 he
  obtain ⟨rfl, hrecordFile⟩ := Prod.mk.inj (Except.ok.inj he)
  obtain ⟨key, hkey', hsourced⟩ :=
    sourced_of_exec_exportAll hs hd h record hrecord file hrecordFile
  cases hkey.symm.trans hkey'
  exact hsourced

end Exporter

end Handoff.Asset
