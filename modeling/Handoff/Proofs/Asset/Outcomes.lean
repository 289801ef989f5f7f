import Handoff.Proofs.Asset.Story
import Mathlib.Data.List.Nodup

/-!
What becomes of each layer of an export.

When all failures are of the kinds that an export recovers from, every candidate has a record, and
its file is there exactly when its batch was answered with an address for it and the picture at that
address was downloaded and saved.
-/

namespace Handoff.Asset

open Action Config Design Files Remote

/-- The picture of a layer was downloaded from an address and saved. -/
def Arrived (events : List Event) (layer : Layer) (url : Value) (file : Text) : Prop :=
  ∃ content written,
    .downloaded layer url (.ok content) ∈ events ∧ .saved layer file (.ok written) ∈ events

/-- Whether a picture arrived is read off the events that concern its layer. -/
lemma Arrived.congr {events events' : List Event} {layer : Layer} {url : Value} {file : Text}
    (h : ∀ e, e.Concerns layer → (e ∈ events ↔ e ∈ events')) :
    Arrived events layer url file ↔ Arrived events' layer url file := by
  unfold Arrived
  refine exists_congr fun content => exists_congr fun written => ?_
  rw [h (.downloaded layer url (.ok content)) rfl, h (.saved layer file (.ok written)) rfl]

lemma Arrived.of_append_left {before after : List Event} {layer : Layer} {url : Value} {file : Text}
    (h : ∀ e ∈ before, ¬ e.Concerns layer) :
    Arrived (before ++ after) layer url file ↔ Arrived after layer url file :=
  Arrived.congr fun e he => List.mem_append.trans (or_iff_right fun hb => h e hb he)

lemma Arrived.of_append_right {before after : List Event} {layer : Layer} {url : Value} {file : Text}
    (h : ∀ e ∈ after, ¬ e.Concerns layer) :
    Arrived (before ++ after) layer url file ↔ Arrived before layer url file :=
  Arrived.congr fun e he => List.mem_append.trans (or_iff_left fun ha => h e ha he)

lemma Arrived.cons_asked {format : ExportFormat} {batch : List Layer} {answer : Except Fault Value}
    {events : List Event} {layer : Layer} {url : Value} {file : Text} :
    Arrived (.asked format batch answer :: events) layer url file ↔
      Arrived events layer url file := by
  simp [Arrived]

namespace Exporter

variable (exporter : Exporter) {s : World} {format : ExportFormat}

/-- The request that an event shows. -/
def requestOf : Event → Option Request
  | .asked format batch _ => some (exporter.client.exportRequest exporter.settings.fileKey
      (batch.map idText) (.text format.name) (exporter.scale format))
  | .downloaded _ url _ => some (exporter.client.downloadRequest url)
  | .saved .. => none

/-! ### One picture -/

lemma exec_fetch {layer : Layer} {url : Value} {file : Text}
    (hfile : fileName layer format = .ok file)
    (hh : ∀ e ∈ exporter.fetchEvents format layer url s, e.Handled) :
    ∃ result t, (exporter.fetch format layer url).exec s = (.ok result, t) ∧
      t.requests =
        s.requests ++ (exporter.fetchEvents format layer url s).filterMap exporter.requestOf ∧
      ∀ f, result = some f ↔
        f = file ∧ Arrived (exporter.fetchEvents format layer url s) layer url file := by
  have hd := exporter.client.exec_download url s
  unfold fetchEvents at hh ⊢
  rw [fetch, exec_bind, exec_ofExcept, hfile]
  simp only [exec_bind, exec_recover]
  rw [hd] at hh ⊢
  generalize hanswer : Except.map (fun r : Response => r.body.content)
    (answered exporter.client.service s.requests (exporter.client.downloadRequest url)) = answer at hh ⊢
  rcases answer with fault | content
  · have hsys : fault.ofSystem = true := hh _ List.mem_cons_self
    simp only [hsys, if_true]
    refine ⟨none, _, rfl, rfl, fun f => ?_⟩
    simp [Arrived]
  · simp only [hfile] at hh ⊢
    rcases hw : (writeFile exporter.root (exporter.settings.assetsDir.child file) content).exec
      { s with requests := s.requests ++ [exporter.client.downloadRequest url] } with ⟨outcome, u⟩
    have hreq : u.requests = s.requests ++ [exporter.client.downloadRequest url] :=
      (HasFootprint.length_of_exec hw).1
    rw [hw] at hh
    rcases outcome with fault | written
    · have hsys : fault.ofSystem = true :=
        hh (.saved layer file (.error fault)) (List.mem_cons_of_mem _ List.mem_cons_self)
      simp only [hsys, if_true]
      refine ⟨none, _, rfl, hreq, fun f => ?_⟩
      simp [Arrived]
    · refine ⟨some file, _, rfl, hreq, fun f => ?_⟩
      simp [Arrived, eq_comm]

/-- A picture at an address that is no text cannot be asked for. -/
lemma isSomeText_of_handled {layer : Layer} {url : Value}
    (hh : ∀ e ∈ exporter.fetchEvents format layer url s, e.Handled) : url.IsSomeText := by
  have hdownload : (Event.downloaded layer url ((exporter.client.download url).exec s).1).Handled :=
    hh _ List.mem_cons_self
  rw [exporter.client.exec_download] at hdownload
  cases url with
  | text u => exact ⟨u, rfl⟩
  | _ => cases hdownload

/-! ### The pictures of a batch -/

lemma isSomeText_of_mem_jobs {jobs : List (Layer × Value)}
    (hh : ∀ e ∈ exporter.jobEvents format jobs s, e.Handled) : ∀ job ∈ jobs, job.2.IsSomeText := by
  induction jobs generalizing s with
  | nil => simp
  | cons job rest ih =>
    rw [jobEvents, List.forall_mem_append] at hh
    exact List.forall_mem_cons.2 ⟨exporter.isSomeText_of_handled hh.1, ih hh.2⟩

lemma results_fetches {jobs : List (Layer × Value)}
    (hfile : ∀ job ∈ jobs, ∃ file, fileName job.1 format = .ok file)
    (hnodup : (jobs.map Prod.fst).Nodup)
    (hh : ∀ e ∈ exporter.jobEvents format jobs s, e.Handled) :
    ∃ files t, results (jobs.map fun job => exporter.fetch format job.1 job.2) s =
        (files.map .ok, t) ∧
      t.requests = s.requests ++ (exporter.jobEvents format jobs s).filterMap exporter.requestOf ∧
      files.length = jobs.length ∧
      ∀ pair ∈ jobs.zip files, ∀ f, pair.2 = some f ↔ fileName pair.1.1 format = .ok f ∧
        Arrived (exporter.jobEvents format jobs s) pair.1.1 pair.1.2 f := by
  induction jobs generalizing s with
  | nil => exact ⟨[], s, rfl, by simp [jobEvents], rfl, by simp⟩
  | cons job rest ih =>
    rw [List.map_cons, List.nodup_cons] at hnodup
    obtain ⟨file, hf⟩ := hfile job List.mem_cons_self
    rw [jobEvents] at hh
    obtain ⟨result, u, hfetch, hreq, hresult⟩ :=
      exporter.exec_fetch hf fun e he => hh e (List.mem_append_left _ he)
    rw [hfetch] at hh
    obtain ⟨files, t, hrest, hreq', hlen, hfiles⟩ := ih
      (fun j hj => hfile j (List.mem_cons_of_mem _ hj)) hnodup.2
      fun e he => hh e (List.mem_append_right _ he)
    refine ⟨result :: files, t, ?_, ?_, by simp [hlen], ?_⟩
    · rw [List.map_cons, results_cons, hfetch, hrest]
      rfl
    · rw [jobEvents, hfetch, List.filterMap_append, hreq', hreq, List.append_assoc]
    · rw [jobEvents, hfetch, List.zip_cons_cons]
      refine List.forall_mem_cons.2 ⟨fun f => ?_, fun pair hpair f => ?_⟩
      · -- The events of the other pictures are about other layers.
        rw [hresult, Arrived.of_append_right, hf]
        · constructor
          · rintro ⟨rfl, h⟩
            exact ⟨rfl, h⟩
          · rintro ⟨h, ha⟩
            cases h
            exact ⟨rfl, ha⟩
        · exact fun e he hlayer => hnodup.1 ((exporter.of_mem_jobEvents he).2 _ hlayer)
      · rw [hfiles pair hpair, Arrived.of_append_left]
        intro e he hlayer
        have hmem := List.mem_map_of_mem (f := Prod.fst) (List.of_mem_zip hpair).1
        rw [(exporter.of_mem_fetchEvents he).2 _ hlayer] at hmem
        exact hnodup.1 hmem

/-- Entering the files of distinct layers. -/
lemma collect_eq_ok (pairs : List ((Layer × Value) × Option Text)) (exported : Exported)
    (hid : ∀ pair ∈ pairs, pair.1.1.id = .text (idText pair.1.1))
    (hnodup : (pairs.map fun pair => idText pair.1.1).Nodup) :
    ∃ table, collect exported pairs = .ok table ∧ (exported.Keyed → table.Keyed) ∧
      (∀ pair ∈ pairs, table.lookup (.text (idText pair.1.1)) =
        pair.2.or (exported.lookup (.text (idText pair.1.1)))) ∧
      ∀ k, (∀ pair ∈ pairs, k ≠ .text (idText pair.1.1)) → table.lookup k = exported.lookup k := by
  induction pairs generalizing exported with
  | nil => exact ⟨exported, rfl, id, by simp, fun _ _ => rfl⟩
  | cons pair rest ih =>
    obtain ⟨⟨layer, url⟩, file⟩ := pair
    rw [List.map_cons, List.nodup_cons] at hnodup
    have hkey : layer.id.key = .ok (.text (idText layer)) := by
      rw [hid _ List.mem_cons_self]
      rfl
    have hother : ∀ pair ∈ rest, Key.text (idText layer) ≠ .text (idText pair.1.1) := by
      intro pair hpair he
      exact hnodup.1 (List.mem_map.2 ⟨pair, hpair, (Key.text.inj he).symm⟩)
    have hrest (exported : Exported) := ih exported
      (fun pair hpair => hid pair (List.mem_cons_of_mem _ hpair)) hnodup.2
    cases file with
    | none =>
      obtain ⟨table, hc, hkeyed, hin, hout⟩ := hrest exported
      refine ⟨table, hc, hkeyed, List.forall_mem_cons.2 ⟨hout _ hother, hin⟩, fun k hk => ?_⟩
      exact hout k fun pair hpair => hk pair (List.mem_cons_of_mem _ hpair)
    | some file =>
      obtain ⟨table, hc, hkeyed, hin, hout⟩ := hrest (exported.put (.text (idText layer)) file)
      refine ⟨table, ?_, fun h => hkeyed (h.put _ _), List.forall_mem_cons.2 ⟨?_, ?_⟩, fun k hk => ?_⟩
      · rw [collect, hkey, ok_bind]
        exact hc
      · rw [hout _ hother, Table.lookup_put]
        simp
      · intro pair hpair
        rw [hin pair hpair, Table.lookup_put, if_neg]
        rw [beq_iff_eq]
        exact (hother pair hpair).symm
      · rw [hout k fun pair hpair => hk pair (List.mem_cons_of_mem _ hpair), Table.lookup_put,
          if_neg]
        rw [beq_iff_eq]
        exact hk _ List.mem_cons_self

/-- The jobs of layers with text ids. -/
def jobsOf (fields : Fields) (batch : List Layer) : List (Layer × Value) :=
  batch.filterMap fun layer =>
    let url := addressAt fields (.text (idText layer))
    if url.truthy then some (layer, url) else none

lemma jobsAmong_eq {fields : Fields} {batch : List Layer}
    (hid : ∀ layer ∈ batch, layer.id = .text (idText layer)) :
    jobsAmong (.record fields) batch = .ok (jobsOf fields batch) := by
  induction batch with
  | nil => rfl
  | cons layer rest ih =>
    have hkey : layer.id.key = .ok (.text (idText layer)) := by
      rw [hid _ List.mem_cons_self]
      rfl
    rw [jobsAmong, show (Value.record fields).fields = .ok fields from rfl, ok_bind, hkey, ok_bind,
      ih fun l hl => hid l (List.mem_cons_of_mem _ hl)]
    unfold jobsOf
    rw [List.filterMap_cons]
    simp only
    split <;> rfl

/-- An answer gives an address for a layer: a text that is not empty. -/
def GivesUrl (urls : Value) (layer : Layer) (url : Text) : Prop :=
  ∃ fields, urls = .record fields ∧ fields.lookup (idText layer) = some (.text url) ∧ url ≠ ""

lemma mem_jobsOf {fields : Fields} {batch : List Layer} {job : Layer × Value} :
    job ∈ jobsOf fields batch ↔ job.1 ∈ batch ∧ job.2.truthy = true ∧
      job.2 = addressAt fields (.text (idText job.1)) := by
  unfold jobsOf
  rw [List.mem_filterMap]
  constructor
  · rintro ⟨layer, hl, h⟩
    simp only at h
    split at h
    · cases h
      exact ⟨hl, by assumption, rfl⟩
    · cases h
  · rintro ⟨hl, ht, he⟩
    refine ⟨job.1, hl, ?_⟩
    rw [← he]
    exact if_pos ht

lemma givesUrl_iff {fields : Fields} {layer : Layer} {url : Text} :
    GivesUrl (.record fields) layer url ↔
      (Value.text url).truthy = true ∧ .text url = addressAt fields (.text (idText layer)) := by
  simp only [addressAt]
  constructor
  · rintro ⟨fields', hf, hl, hne⟩
    cases hf
    refine ⟨?_, by rw [hl]; rfl⟩
    simp only [Value.truthy, Text.isEmpty, Bool.not_eq_true', List.isEmpty_eq_false_iff]
    exact fun he => hne (Text.ext_toList he)
  · rintro ⟨ht, he⟩
    refine ⟨fields, rfl, ?_, ?_⟩
    · cases hl : fields.lookup (idText layer) with
      | none =>
        rw [hl] at he
        cases he
      | some value =>
        rw [hl] at he
        exact congrArg some he.symm
    · rintro rfl
      cases ht

/-- Layers that are exported in a format: they have text ids, distinct ones, and file names. -/
structure Exportable (format : ExportFormat) (layers : List Layer) : Prop where
  exported : ∀ layer ∈ layers, layer.exportFormat? = .ok (some format)
  id : ∀ layer ∈ layers, layer.id = .text (idText layer)
  file : ∀ layer ∈ layers, ∃ file, fileName layer format = .ok file
  nodup : (layers.map idText).Nodup

lemma Exportable.sublist {layers layers' : List Layer} (h : Exportable format layers)
    (hs : layers'.Sublist layers) : Exportable format layers' :=
  ⟨fun l hl => h.exported l (hs.subset hl), fun l hl => h.id l (hs.subset hl),
    fun l hl => h.file l (hs.subset hl), h.nodup.sublist (hs.map idText)⟩

lemma Exportable.nodup_layers {layers : List Layer} (h : Exportable format layers) : layers.Nodup :=
  List.Pairwise.of_map idText (fun _ _ hne he => hne (congrArg idText he)) h.nodup

lemma Exportable.eq_of_idText {layers : List Layer} (h : Exportable format layers) {a b : Layer}
    (ha : a ∈ layers) (hb : b ∈ layers) (he : idText a = idText b) : a = b :=
  List.inj_on_of_nodup_map h.nodup ha hb he

lemma GivesUrl.inj {urls : Value} {layer : Layer} {u u' : Text} (h : GivesUrl urls layer u)
    (h' : GivesUrl urls layer u') : u = u' := by
  obtain ⟨fields, rfl, hl, -⟩ := h
  obtain ⟨_, hf, hl', -⟩ := h'
  cases hf
  rw [hl] at hl'
  cases hl'
  rfl

/-- The layer's picture was asked for with its batch, and it arrived from the address given. -/
def Delivered (events : List Event) (format : ExportFormat) (layer : Layer) (file : Text) : Prop :=
  fileName layer format = .ok file ∧ ∃ batch urls url, layer ∈ batch ∧
    .asked format batch (.ok urls) ∈ events ∧ GivesUrl urls layer url ∧
      Arrived events layer (.text url) file

lemma Delivered.congr {events events' : List Event} {layer : Layer} {file : Text}
    (h : ∀ e, e.Concerns layer → (e ∈ events ↔ e ∈ events')) :
    Delivered events format layer file ↔ Delivered events' format layer file := by
  refine and_congr_right fun _ => exists_congr fun batch => exists_congr fun urls =>
    exists_congr fun url => and_congr_right fun hl => ?_
  rw [h (.asked format batch (.ok urls)) hl, Arrived.congr h]

lemma Delivered.of_append_left {before after : List Event} {layer : Layer} {file : Text}
    (h : ∀ e ∈ before, ¬ e.Concerns layer) :
    Delivered (before ++ after) format layer file ↔ Delivered after format layer file :=
  Delivered.congr fun e he => List.mem_append.trans (or_iff_right fun hb => h e hb he)

lemma Delivered.of_append_right {before after : List Event} {layer : Layer} {file : Text}
    (h : ∀ e ∈ after, ¬ e.Concerns layer) :
    Delivered (before ++ after) format layer file ↔ Delivered before format layer file :=
  Delivered.congr fun e he => List.mem_append.trans (or_iff_left fun ha => h e ha he)

lemma exec_fetchBatch {batch : List Layer} {fields : Fields} (hb : Exportable format batch)
    (hh : ∀ e ∈ exporter.jobEvents format (jobsOf fields batch) s, e.Handled) :
    ∃ found t, (exporter.fetchBatch format batch (.record fields)).exec s = (.ok found, t) ∧
      found.Keyed ∧
      t.requests = s.requests ++
        (exporter.jobEvents format (jobsOf fields batch) s).filterMap exporter.requestOf ∧
      (∀ layer ∈ batch, ∀ f, found.lookup (.text (idText layer)) = some f ↔
        fileName layer format = .ok f ∧ ∃ url, GivesUrl (.record fields) layer url ∧
          Arrived (exporter.jobEvents format (jobsOf fields batch) s) layer (.text url) f) ∧
      ∀ k, (∀ layer ∈ batch, k ≠ .text (idText layer)) → found.lookup k = none := by
  have hsub : ((jobsOf fields batch).map Prod.fst).Sublist batch :=
    jobsAmong_sublist (jobsAmong_eq hb.id)
  have hjobs := hb.sublist hsub
  have hids : ((jobsOf fields batch).map fun job => idText job.1).Nodup := by
    have h := hjobs.nodup
    rwa [List.map_map] at h
  obtain ⟨journal, hexec⟩ := exec_jobs (.record fields) batch s
  rw [jobsAmong_eq hb.id] at hexec
  have halike : Alike s { s with journal } := ⟨journal, rfl⟩
  rw [← exporter.jobEvents_alike halike] at hh ⊢
  obtain ⟨files, t, hresults, hreq, hlen, hfiles⟩ := exporter.results_fetches
    (fun job hj => hjobs.file _ (List.mem_map_of_mem hj)) hjobs.nodup_layers hh
  have hzip : ((jobsOf fields batch).zip files).map Prod.fst = jobsOf fields batch :=
    List.map_fst_zip (by omega)
  obtain ⟨found, hc, hkeyed, hin, hout⟩ := collect_eq_ok
    ((jobsOf fields batch).zip files) []
    (fun pair hp => hjobs.id _ (List.mem_map_of_mem (List.of_mem_zip hp).1))
    (by
      have h : ((jobsOf fields batch).zip files).map (fun pair => idText pair.1.1) =
          (jobsOf fields batch).map fun job => idText job.1 := by
        conv_rhs => rw [← hzip]
        rw [List.map_map]
        rfl
      rwa [h])
  refine ⟨found, t, ?_, hkeyed Table.keyed_nil, hreq, fun layer hl f => ?_, fun k hk => ?_⟩
  · rw [fetchBatch, exec_bind_of_ok hexec, exec_bind, exec_all, hresults, mapM_id_eq_ok.2 rfl]
    simp only [exec_ofExcept, hc]
  · by_cases hjob : ∃ url, (layer, url) ∈ jobsOf fields batch
    · obtain ⟨url, hjob⟩ := hjob
      obtain ⟨u, rfl⟩ : url.IsSomeText := exporter.isSomeText_of_mem_jobs hh _ hjob
      have hgives := givesUrl_iff.2 (mem_jobsOf.1 hjob).2
      obtain ⟨pair, hpair, hp⟩ : ∃ pair ∈ (jobsOf fields batch).zip files,
          pair.1 = (layer, .text u) := by
        rw [← hzip] at hjob
        exact List.mem_map.1 hjob
      have hlookup := hin pair hpair
      have hfile := hfiles pair hpair f
      rw [hp] at hlookup hfile
      rw [hlookup, List.lookup_nil, Option.or_none, hfile]
      refine and_congr_right fun _ => ⟨fun h => ⟨u, hgives, h⟩, ?_⟩
      rintro ⟨u', hgives', h⟩
      rwa [hgives.inj hgives']
    · rw [hout]
      · refine ⟨nofun, ?_⟩
        rintro ⟨-, u, hgives, -⟩
        exact absurd ⟨_, mem_jobsOf.2 ⟨hl, givesUrl_iff.1 hgives⟩⟩ hjob
      · intro pair hp he
        have hmem := (List.of_mem_zip hp).1
        have hlayer : layer = pair.1.1 :=
          hb.eq_of_idText hl (hsub.subset (List.mem_map_of_mem hmem)) (Key.text.inj he)
        exact hjob ⟨pair.1.2, by rw [hlayer]; exact hmem⟩
  · rw [hout k fun pair hp => hk _ (hsub.subset (List.mem_map_of_mem (List.of_mem_zip hp).1))]
    rfl

lemma exec_ask {batch : List Layer} (hb : Exportable format batch) (s : World) :
    ∃ answer, (exporter.ask format batch).exec s = (answer, { s with
      requests := s.requests ++ [exporter.client.exportRequest exporter.settings.fileKey
        (batch.map idText) (.text format.name) (exporter.scale format)] }) := by
  have hids : (batch.map Layer.id).mapM (Value.asText .wrongType) = .ok (batch.map idText) := by
    rw [List.mapM_map]
    exact mapM_eq_ok_of_forall fun layer hl => congrArg (Value.asText .wrongType) (hb.id layer hl)
  exact ⟨_, exporter.client.exec_imageUrls _ hids _ _ s⟩

/-- A batch: its request fails and nothing is fetched, or its pictures are fetched. -/
lemma exec_addresses (format : ExportFormat) (s : World) (total index : Nat) (batch : List Layer) :
    (exporter.addresses format index total batch).exec s =
      match (exporter.ask format batch).exec s with
      | (.ok urls, t) => (.ok (some urls), t)
      | (.error fault, t) =>
        if fault.ofRequest || fault.ofContent then
          (.ok none, { t with journal := t.journal ++ [⟨.warning, "⚠ Failed to export " ++
            batchName format index total ++ " (" ++ endId batch.head? ++ " ... " ++
            endId batch.getLast? ++ "): " ++ fault.message⟩] })
        else (.error fault, t) := by
  have hrecover : exporter.addresses format index total batch =
      Action.recover (fun fault => fault.ofRequest || fault.ofContent)
        (do return some (← exporter.ask format batch)) fun fault => do
          Action.log .warning ("⚠ Failed to export " ++ batchName format index total ++ " (" ++
            endId batch.head? ++ " ... " ++ endId batch.getLast? ++ "): " ++ fault.message)
          return none := by
    cases format <;> rfl
  rw [hrecover, exec_recover, exec_bind]
  rcases (exporter.ask format batch).exec s with ⟨fault | urls, t⟩
  · simp only
    split <;> rfl
  · rfl

/-- One batch: nothing is exported when its request fails. -/
def exportBatch (format : ExportFormat) (index total : Nat) (batch : List Layer) :
    Action Exported := do
  match ← exporter.addresses format index total batch with
  | none => return []
  | some urls => exporter.fetchBatch format batch urls

lemma exportBatches_cons (total index : Nat) (exported : Exported) (batch : List Layer)
    (rest : List (List Layer)) :
    exporter.exportBatches format total index exported (batch :: rest) = (do
      Action.log .info ("ℹ Exporting " ++ batchName format index total ++ "...")
      let found ← exporter.exportBatch format index total batch
      exporter.exportBatches format total (index + 1) (exported.merge found) rest) := by
  refine ext_exec fun s => ?_
  rw [exportBatches, exec_bind, exec_bind, exec_log]
  simp only [exportBatch, bind_assoc]
  rw [exec_bind, exec_bind]
  rcases (exporter.addresses format index total batch).exec _ with ⟨fault | _ | urls, t⟩ <;> rfl

/-- A batch whose request fails delivers nothing; one that is answered delivers the pictures that
arrive. -/
lemma exec_exportBatch {batch : List Layer} (hb : Exportable format batch) (index total : Nat)
    (hh : ∀ e ∈ exporter.batchEvents format batch s, e.Handled) :
    ∃ found t, (exporter.exportBatch format index total batch).exec s = (.ok found, t) ∧
      found.Keyed ∧ Alike (exporter.afterBatch format batch s) t ∧
      t.requests =
        s.requests ++ (exporter.batchEvents format batch s).filterMap exporter.requestOf ∧
      (∀ layer ∈ batch, ∀ f, found.lookup (.text (idText layer)) = some f ↔
        Delivered (exporter.batchEvents format batch s) format layer f) ∧
      ∀ k, (∀ layer ∈ batch, k ≠ .text (idText layer)) → found.lookup k = none := by
  obtain ⟨answer, hask⟩ := exporter.exec_ask hb s
  have haddresses := exporter.exec_addresses format s total index batch
  rw [batchEvents, hask] at hh ⊢
  rw [hask] at haddresses
  rcases answer with fault | urls
  · have hhandled : (fault.ofRequest || fault.ofContent) = true := by
      simpa [Event.Handled] using hh _ List.mem_cons_self
    simp only [hhandled, if_true] at haddresses
    refine ⟨[], _, by rw [exportBatch, exec_bind_of_ok haddresses]; rfl, Table.keyed_nil, ?_, rfl,
      fun layer hl f => ?_, fun k hk => rfl⟩
    · rw [afterBatch, hask]
      exact ⟨_, rfl⟩
    · simp [Except.bind, Delivered]
  · obtain ⟨fields, rfl⟩ := hh _ List.mem_cons_self
    have hjobs : (Except.ok (Value.record fields) : Except Fault Value).bind
        (fun urls => jobsAmong urls batch) = .ok (jobsOf fields batch) := jobsAmong_eq hb.id
    simp only [hjobs] at hh haddresses ⊢
    obtain ⟨found, t, hfetch, hkeyed, hreq, hin, hout⟩ := exporter.exec_fetchBatch hb
      fun e he => hh e (List.mem_cons_of_mem _ he)
    refine ⟨found, t, by rw [exportBatch, exec_bind_of_ok haddresses]; exact hfetch, hkeyed, ?_, ?_,
      fun layer hl f => ?_, hout⟩
    · rw [afterBatch, hask]
      simp only [hfetch]
      exact .refl t
    · rw [hreq]
      simp [requestOf]
    · rw [hin layer hl f]
      refine and_congr_right fun _ => ?_
      constructor
      · rintro ⟨url, hgives, ha⟩
        exact ⟨batch, _, url, hl, List.mem_cons_self, hgives, Arrived.cons_asked.2 ha⟩
      · rintro ⟨_, urls, url, -, hmem, hgives, ha⟩
        rcases List.mem_cons.1 hmem with he | hmem
        · cases he
          exact ⟨url, hgives, Arrived.cons_asked.1 ha⟩
        · exact absurd trivial (exporter.of_mem_jobEvents hmem).1

/-- Batches one after the other: every layer has its file if its picture was delivered, and layers of
no batch are left as they were. -/
theorem exec_exportBatches {batches : List (List Layer)} (hb : Exportable format batches.flatten)
    (total index : Nat) (exported : Exported) (hkeyed : exported.Keyed)
    (hnone : ∀ layer ∈ batches.flatten, exported.lookup (.text (idText layer)) = none)
    (hh : ∀ e ∈ exporter.batchesEvents format batches s, e.Handled) :
    ∃ table t, (exporter.exportBatches format total index exported batches).exec s = (.ok table, t) ∧
      table.Keyed ∧
      t.requests =
        s.requests ++ (exporter.batchesEvents format batches s).filterMap exporter.requestOf ∧
      (∀ layer ∈ batches.flatten, ∀ f, table.lookup (.text (idText layer)) = some f ↔
        Delivered (exporter.batchesEvents format batches s) format layer f) ∧
      ∀ k, (∀ layer ∈ batches.flatten, k ≠ .text (idText layer)) →
        table.lookup k = exported.lookup k := by
  induction batches generalizing s index exported with
  | nil => exact ⟨exported, s, rfl, hkeyed, by simp [batchesEvents], by simp, fun _ _ => rfl⟩
  | cons batch rest ih =>
    rw [List.flatten_cons] at hb hnone ⊢
    have hbatch := hb.sublist (List.sublist_append_left batch rest.flatten)
    have hrest := hb.sublist (List.sublist_append_right batch rest.flatten)
    have hdisjoint : ∀ l ∈ batch, ∀ l' ∈ rest.flatten, idText l ≠ idText l' := by
      intro l hl l' hl' he
      have h := hb.nodup
      rw [List.map_append] at h
      exact (List.disjoint_of_nodup_append h) (List.mem_map_of_mem hl)
        (he ▸ List.mem_map_of_mem hl')
    have hlog := alike_log .info ("ℹ Exporting " ++ batchName format index total ++ "...") s
    rw [← exporter.batchesEvents_alike hlog, batchesEvents] at hh ⊢
    obtain ⟨found, u, hexec, hfound, halike, hreq, hin, hout⟩ :=
      exporter.exec_exportBatch hbatch index total fun e he => hh e (List.mem_append_left _ he)
    rw [← exporter.batchesEvents_alike halike] at hh ⊢
    have hlookup (k : Key) := Table.lookup_merge exported hfound k
    obtain ⟨table, t, hexec', hkeyed', hreq', hin', hout'⟩ := ih hrest (index + 1)
      (exported.merge found) (hkeyed.merge found)
      (fun layer hl => by
        rw [hlookup, hout _ fun l hlb he => hdisjoint l hlb layer hl (Key.text.inj he).symm,
          Option.none_or]
        exact hnone layer (List.mem_append_right _ hl))
      fun e he => hh e (List.mem_append_right _ he)
    refine ⟨table, t, ?_, hkeyed', ?_, fun layer hl f => ?_, fun k hk => ?_⟩
    · rw [exportBatches_cons, exec_bind_of_ok (exec_log ..)]
      exact (exec_bind_of_ok hexec).trans hexec'
    · rw [hreq', hreq, List.filterMap_append, List.append_assoc]
      rfl
    · rcases List.mem_append.1 hl with hlb | hlr
      · -- The events of the other batches are about other layers.
        rw [hout' _ fun l hlr he => hdisjoint layer hlb l hlr (Key.text.inj he), hlookup,
          hnone layer hl, Option.or_none, hin layer hlb, Delivered.of_append_right]
        exact fun e he hconcerns =>
          hdisjoint layer hlb layer ((exporter.of_mem_batchesEvents he).2 _ hconcerns) rfl
      · rw [hin' layer hlr, Delivered.of_append_left]
        exact fun e he hconcerns =>
          hdisjoint layer ((exporter.of_mem_batchEvents he).2 _ hconcerns) layer hlr rfl
    · rw [hout' k fun layer hlr => hk layer (List.mem_append_right _ hlr), hlookup,
        hout k fun layer hlb => hk layer (List.mem_append_left _ hlb), Option.none_or]

end Exporter

end Handoff.Asset
