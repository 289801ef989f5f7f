import Handoff.Proofs.Asset.Downloads
import Handoff.Proofs.Asset.Saving

/-!
A whole export: its records, its requests, and what a failure reaches.

Every candidate has its record, in preorder. The requests for the pictures of a format cut its
candidates into batches. A batch that fails leads to no download, and what becomes of a layer is
decided by the answers for that layer.
-/

namespace Handoff

namespace Design.Layer

/-- The layer is exported. -/
def isCandidate (layer : Layer) : Bool :=
  match layer.isAssetCandidate with
  | .ok b => b
  | .error _ => false

/-- The layer is exported in a format. -/
def isExportedAs (format : ExportFormat) (layer : Layer) : Bool :=
  match layer.exportFormat? with
  | .ok (some f) => f = format
  | _ => false

lemma isExportedAs_iff {layer : Layer} {format : ExportFormat} :
    layer.isExportedAs format = true ↔ layer.exportFormat? = .ok (some format) := by
  unfold isExportedAs
  rcases layer.exportFormat? with _ | _ | f <;> simp

/-- A layer of the right types is exported in some format or is no candidate. -/
lemma ExportTyped.exists_format {layer : Layer} (h : layer.ExportTyped)
    (hc : layer.isCandidate = true) : ∃ format, layer.exportFormat? = .ok (some format) := by
  obtain ⟨format, hf, hsome⟩ := h.exportFormat
  obtain ⟨b, hb⟩ := h.isAssetCandidate
  have hcandidate : layer.isAssetCandidate = .ok true := by
    unfold isCandidate at hc
    rw [hb] at hc ⊢
    exact congrArg Except.ok hc
  obtain ⟨format, rfl⟩ := Option.isSome_iff_exists.1 (hsome.2 hcandidate)
  exact ⟨format, hf⟩

lemma ExportTyped.isCandidate_of_isExportedAs {layer : Layer} (h : layer.ExportTyped)
    {format : ExportFormat} (hf : layer.isExportedAs format = true) : layer.isCandidate = true := by
  obtain ⟨format', hf', hsome⟩ := h.exportFormat
  rw [isExportedAs_iff.1 hf] at hf'
  cases hf'
  rw [isCandidate, hsome.1 rfl]

end Design.Layer

namespace Asset

open Action Config Design Files Remote

/-! ### Sorting -/

lemma candidatesAmong_eq {layers : List Layer} (h : ∀ layer ∈ layers, layer.ExportTyped) :
    candidatesAmong layers = .ok (layers.filter Layer.isCandidate) := by
  induction layers with
  | nil => rfl
  | cons layer rest ih =>
    rw [List.forall_mem_cons] at h
    obtain ⟨b, hb⟩ := h.1.isAssetCandidate
    rw [candidatesAmong, hb, ok_bind, ih h.2, List.filter_cons, Layer.isCandidate, hb]
    cases b <;> rfl

lemma partition_eq {layers : List Layer}
    (h : ∀ layer ∈ layers, ∃ format, layer.exportFormat? = .ok (some format)) :
    partition layers = .ok ⟨layers.filter (Layer.isExportedAs .svg),
      layers.filter (Layer.isExportedAs .png)⟩ := by
  induction layers with
  | nil => rfl
  | cons layer rest ih =>
    rw [List.forall_mem_cons] at h
    obtain ⟨format, hf⟩ := h.1
    rw [partition, hf, ok_bind, ih h.2, List.filter_cons, List.filter_cons, Layer.isExportedAs, hf,
      Layer.isExportedAs, hf]
    cases format <;> rfl

/-! ### Lists of events -/

/-- The batches that were asked for in a format. -/
def askedBatches (format : ExportFormat) (events : List Event) : List (List Layer) :=
  events.filterMap fun
    | .asked f batch _ => if f = format then some batch else none
    | _ => none

/-- A batch that was not answered leads to no download. -/
def IdleAfterFailure (events : List Event) : Prop :=
  ∀ format batch fault, .asked format batch (.error fault) ∈ events →
    ∀ layer ∈ batch, ∀ url answer, .downloaded layer url answer ∉ events

lemma separable_idleAfterFailure : Separable IdleAfterFailure where
  nil := fun _ _ _ h => nomatch h
  append {before after} h h' hu := by
    intro format batch fault hasked layer hl url answer hd
    rcases List.mem_append.1 hasked with hasked | hasked <;>
      rcases List.mem_append.1 hd with hd | hd
    · exact h format batch fault hasked layer hl url answer hd
    · exact hu _ hasked _ hd layer hl rfl
    · exact hu _ hd _ hasked layer rfl hl
    · exact h' format batch fault hasked layer hl url answer hd

lemma askedBatches_append (format : ExportFormat) (before after : List Event) :
    askedBatches format (before ++ after) =
      askedBatches format before ++ askedBatches format after :=
  List.filterMap_append

lemma askedBatches_eq_nil {format : ExportFormat} {events : List Event}
    (h : ∀ batch answer, .asked format batch answer ∉ events) : askedBatches format events = [] := by
  refine List.filterMap_eq_nil_iff.2 fun e he => ?_
  cases e with
  | asked f batch answer =>
    refine if_neg ?_
    rintro rfl
    exact h _ _ he
  | _ => rfl

namespace Exporter

variable (exporter : Exporter) {s : World} {format : ExportFormat}

lemma askedBatches_batchEvents (batch : List Layer) :
    askedBatches format (exporter.batchEvents format batch s) = [batch] := by
  have hcons (answer : Except Fault Value) {events : List Event}
      (h : ∀ batch answer, .asked format batch answer ∉ events) :
      askedBatches format (.asked format batch answer :: events) = [batch] := by
    have hnil := askedBatches_eq_nil h
    unfold askedBatches at hnil ⊢
    rw [List.filterMap_cons, hnil]
    simp
  refine hcons _ fun batch answer hm => ?_
  split at hm
  · exact (exporter.of_mem_jobEvents hm).1 trivial
  · cases hm

lemma askedBatches_batchesEvents (batches : List (List Layer)) :
    askedBatches format (exporter.batchesEvents format batches s) = batches := by
  induction batches generalizing s with
  | nil => rfl
  | cons batch rest ih =>
    rw [batchesEvents, askedBatches_append, askedBatches_batchEvents, ih]
    rfl

lemma idleAfterFailure_batchEvents (batch : List Layer) :
    IdleAfterFailure (exporter.batchEvents format batch s) := by
  intro f b fault hasked layer hl url answer hd
  have he := (exporter.of_mem_batchEvents hasked).1 trivial
  unfold batchEvents at hd
  rcases hq : (exporter.ask format batch).exec s with ⟨answered, t⟩
  rw [hq] at hd he
  obtain rfl := (Event.asked.inj he).2.2
  simp [Except.bind] at hd

/-! ### The formats -/

lemma exec_exportFormat {layers : List Layer} (hl : Exportable format layers)
    (hsize : 1 ≤ exporter.settings.batchSize)
    (hh : ∀ e ∈ exporter.formatEvents format layers s, e.Handled) :
    ∃ table t, (exporter.exportFormat format layers).exec s = (.ok table, t) ∧ table.Keyed ∧
      t.requests =
        s.requests ++ (exporter.formatEvents format layers s).filterMap exporter.requestOf ∧
      (∀ layer ∈ layers, ∀ f, table.lookup (.text (idText layer)) = some f ↔
        Delivered (exporter.formatEvents format layers s) format layer f) ∧
      ∀ k, (∀ layer ∈ layers, k ≠ .text (idText layer)) → table.lookup k = none := by
  obtain ⟨parts, hparts, hbatches⟩ := batches_of_pos layers hsize
  obtain rfl := hbatches.flatten
  simp only [formatEvents, hparts] at hh ⊢
  rw [exportFormat, exec_bind, exec_ofExcept, hparts]
  exact exporter.exec_exportBatches hl _ _ _ Table.keyed_nil (fun _ _ => rfl) hh

lemma askedBatches_formatEvents {layers : List Layer} (hsize : 1 ≤ exporter.settings.batchSize) :
    AreBatches exporter.settings.batchSize.toNat layers
      (askedBatches format (exporter.formatEvents format layers s)) := by
  obtain ⟨parts, hparts, hbatches⟩ := batches_of_pos layers hsize
  simp only [formatEvents, hparts]
  rwa [askedBatches_batchesEvents]

variable {partitions : Partitions} {formats : List ExportFormat}

/-- Layers sorted by format: those of a format are exported in it, and no two have one id. -/
structure Sorted (partitions : Partitions) (formats : List ExportFormat) : Prop where
  exportable : ∀ format ∈ formats, Exportable format (partitions.of format)
  apart : formats.Pairwise fun f g =>
    ∀ l ∈ partitions.of f, ∀ l' ∈ partitions.of g, idText l ≠ idText l'

lemma Sorted.of_cons (h : Sorted partitions (format :: formats)) :
    Exportable format (partitions.of format) ∧ Sorted partitions formats ∧
      ∀ g ∈ formats, ∀ l ∈ partitions.of format, ∀ l' ∈ partitions.of g, idText l ≠ idText l' :=
  have hexportable := List.forall_mem_cons.1 h.exportable
  have hapart := List.pairwise_cons.1 h.apart
  ⟨hexportable.1, ⟨hexportable.2, hapart.2⟩, hapart.1⟩

lemma Sorted.unrelated (h : Sorted partitions (format :: formats)) (t : World) :
    Unrelated (exporter.formatEvents format (partitions.of format) s)
      (exporter.formatsEvents partitions formats t) := by
  intro e he e' he' layer hl hl'
  obtain ⟨g, hg, -, hlayer⟩ := exporter.of_mem_formatsEvents he'
  exact h.of_cons.2.2 g hg layer ((exporter.of_mem_formatEvents he).2 _ hl) layer (hlayer _ hl') rfl

lemma Sorted.parted (h : Sorted partitions formats) : Parted partitions formats where
  nodup format hf := (h.exportable format hf).nodup_layers
  apart := h.apart.imp fun hne l hl hl' => hne l hl l hl' rfl

lemma idleAfterFailure_formatsEvents (h : Sorted partitions formats) :
    IdleAfterFailure (exporter.formatsEvents partitions formats s) :=
  exporter.separable_formatsEvents separable_idleAfterFailure
    (fun _ batch _ _ => exporter.idleAfterFailure_batchEvents batch) h.parted

lemma askedBatches_other {g : ExportFormat} (hg : g ∉ formats) :
    askedBatches g (exporter.formatsEvents partitions formats s) = [] := by
  refine askedBatches_eq_nil fun batch answer hm => ?_
  obtain ⟨format, hformat, hasked, -⟩ := exporter.of_mem_formatsEvents hm
  obtain ⟨_, _, he⟩ := hasked trivial
  cases he
  exact hg hformat

lemma askedBatches_formatsEvents (hsize : 1 ≤ exporter.settings.batchSize) (hn : formats.Nodup)
    {g : ExportFormat} (hg : g ∈ formats) :
    AreBatches exporter.settings.batchSize.toNat (partitions.of g)
      (askedBatches g (exporter.formatsEvents partitions formats s)) := by
  induction formats generalizing s with
  | nil => cases hg
  | cons format rest ih =>
    rw [List.nodup_cons] at hn
    rw [formatsEvents, askedBatches_append]
    rcases List.mem_cons.1 hg with rfl | hother
    · rw [askedBatches_other exporter hn.1, List.append_nil]
      exact exporter.askedBatches_formatEvents hsize
    · have hnil : askedBatches g (exporter.formatEvents format (partitions.of format) s) = [] := by
        refine askedBatches_eq_nil fun batch answer hm => ?_
        obtain ⟨_, _, he⟩ := (exporter.of_mem_formatEvents hm).1 trivial
        cases he
        exact hn.1 hother
      rw [hnil, List.nil_append]
      exact ih hn.2 hother

/-- The formats one after the other: the tables together have the file of every layer that was
delivered. -/
lemma results_formats (hsorted : Sorted partitions formats)
    (hsize : 1 ≤ exporter.settings.batchSize)
    (hh : ∀ e ∈ exporter.formatsEvents partitions formats s, e.Handled) :
    ∃ (tables : List Exported) (t : World), results (formats.map fun format =>
        exporter.exportFormat format (partitions.of format)) s = (tables.map .ok, t) ∧
      t.requests = s.requests ++
        (exporter.formatsEvents partitions formats s).filterMap exporter.requestOf ∧
      ∀ exported : Exported,
        (∀ format ∈ formats, ∀ layer ∈ partitions.of format,
          exported.lookup (.text (idText layer)) = none →
            ∀ f, (exported.merge tables.flatten).lookup (.text (idText layer)) = some f ↔
              Delivered (exporter.formatsEvents partitions formats s) format layer f) ∧
        ∀ k, (∀ format ∈ formats, ∀ layer ∈ partitions.of format, k ≠ .text (idText layer)) →
          (exported.merge tables.flatten).lookup k = exported.lookup k := by
  induction formats generalizing s with
  | nil => exact ⟨[], s, rfl, by simp [formatsEvents], fun exported => ⟨by simp, fun _ _ => rfl⟩⟩
  | cons format rest ih =>
    obtain ⟨hformat, hrest, hapart⟩ := hsorted.of_cons
    have hunrelated := hsorted.unrelated exporter (s := s)
    rw [formatsEvents] at hh
    obtain ⟨table, u, hexec, hkeyed, hreq, hin, hout⟩ := exporter.exec_exportFormat hformat hsize
      fun e he => hh e (List.mem_append_left _ he)
    rw [hexec] at hh
    obtain ⟨tables, t, hresults, hreq', htables⟩ := ih hrest
      fun e he => hh e (List.mem_append_right _ he)
    refine ⟨table :: tables, t, ?_, ?_, fun exported => ?_⟩
    · rw [List.map_cons, results_cons, hexec, hresults]
      rfl
    · rw [formatsEvents, hexec, hreq', hreq, List.filterMap_append, List.append_assoc]
    · have hmerge : exported.merge (table :: tables).flatten =
          (exported.merge table).merge tables.flatten := by
        rw [List.flatten_cons]
        exact List.foldl_append
      have hlookup (k : Key) := Table.lookup_merge exported hkeyed k
      obtain ⟨hin', hout'⟩ := htables (exported.merge table)
      rw [formatsEvents, hexec, hmerge]
      refine ⟨List.forall_mem_cons.2 ⟨fun layer hl hnone f => ?_, fun g hg layer hl hnone f => ?_⟩,
        fun k hk => ?_⟩
      · rw [hout' _ fun g hg l' hl' he => hapart g hg layer hl l' hl' (Key.text.inj he), hlookup,
          hnone, Option.or_none, hin layer hl, Delivered.of_append_right]
        intro e he hconcerns
        obtain ⟨g, hg, -, hlayer⟩ := exporter.of_mem_formatsEvents he
        exact hapart g hg layer hl layer (hlayer _ hconcerns) rfl
      · have hmissing : (exported.merge table).lookup (.text (idText layer)) = none := by
          rw [hlookup, hnone, hout _ fun l hl' he => hapart g hg l hl' layer hl (Key.text.inj he).symm]
          rfl
        rw [hin' g hg layer hl hmissing, Delivered.of_append_left]
        intro e he hconcerns
        exact hapart g hg layer ((exporter.of_mem_formatEvents he).2 _ hconcerns) layer hl rfl
      · rw [List.forall_mem_cons] at hk
        rw [hout' k hk.2, hlookup, hout k hk.1, Option.none_or]

/-! ### The candidates -/

/-- What a record says about its layer: its fields, and its file if its picture was delivered. -/
structure Describes (events : List Event) (layer : Layer) (record : Record) : Prop where
  id : record.id = layer.id
  name : record.name = layer.name
  typeName : record.typeName = layer.typeName
  hasImageFill : record.hasImageFill = layer.hasImageFill
  format : layer.exportFormat? = .ok (some record.format)
  file : ∀ f, record.file = some f ↔ Delivered events record.format layer f

lemma Sorted.of_distinct {layers : List Layer} (htyped : ∀ layer ∈ layers, layer.ExportTyped)
    (hids : (layers.map Layer.id).Nodup) (hn : formats.Nodup)
    (hparts : ∀ format, partitions.of format = layers.filter (Layer.isExportedAs format)) :
    Sorted partitions formats := by
  have hid (layer : Layer) (hl : layer ∈ layers) : layer.id = .text (idText layer) := by
    obtain ⟨id, hid⟩ := (htyped layer hl).id
    rw [idText, hid]
  have hmem {format : ExportFormat} {layer : Layer} (hl : layer ∈ partitions.of format) :
      layer ∈ layers ∧ layer.exportFormat? = .ok (some format) := by
    rw [hparts, List.mem_filter] at hl
    exact ⟨hl.1, Layer.isExportedAs_iff.1 hl.2⟩
  refine ⟨fun format _ => ⟨fun layer hl => (hmem hl).2, fun layer hl => hid layer (hmem hl).1,
    fun layer hl => (htyped layer (hmem hl).1).fileName format, ?_⟩, hn.imp fun hne => ?_⟩
  · have hnodup : (layers.map idText).Nodup := by
      refine List.Nodup.of_map Value.text ?_
      rw [List.map_congr_left hid] at hids
      rwa [List.map_map]
    rw [hparts]
    exact hnodup.sublist (List.filter_sublist.map idText)
  · intro l hl l' hl' he
    have hids' : l.id = l'.id := by rw [hid l (hmem hl).1, hid l' (hmem hl').1, he]
    have hsame := List.inj_on_of_nodup_map hids (hmem hl).1 (hmem hl').1 hids'
    have hformat := (hmem hl).2
    rw [hsame, (hmem hl').2] at hformat
    cases hformat
    exact hne rfl

lemma Partitions.mem_formats {layer : Layer} (h : layer ∈ partitions.of format) :
    format ∈ partitions.formats := by
  refine List.mem_filter.2 ⟨by cases format <;> simp, ?_⟩
  simpa using List.ne_nil_of_mem h

lemma exec_exportCandidates {candidates : List Layer}
    (hp : partition candidates = .ok partitions) (hsorted : Sorted partitions partitions.formats)
    (hcandidates : ∀ layer ∈ candidates, ∃ format, layer ∈ partitions.of format)
    (hsize : 1 ≤ exporter.settings.batchSize)
    (hh : ∀ e ∈ exporter.formatsEvents partitions partitions.formats s, e.Handled) :
    ∃ records t, (exporter.exportCandidates candidates).exec s = (.ok records, t) ∧
      List.Forall₂ (Describes (exporter.formatsEvents partitions partitions.formats s))
        candidates records ∧
      t.requests = s.requests ++
        (exporter.formatsEvents partitions partitions.formats s).filterMap exporter.requestOf := by
  obtain ⟨u, hlog⟩ : ∃ u, (Action.log .info ("ℹ Found " ++ toString candidates.length ++
      " exportable nodes (vectors: " ++ toString partitions.svg.length ++ ", images: " ++
      toString partitions.png.length ++ ")")).exec s = (.ok ⟨⟩, u) := ⟨_, exec_log ..⟩
  have halike : Alike s u := by
    have h := alike_log .info ("ℹ Found " ++ toString candidates.length ++
      " exportable nodes (vectors: " ++ toString partitions.svg.length ++ ", images: " ++
      toString partitions.png.length ++ ")") s
    rwa [hlog] at h
  rw [← exporter.formatsEvents_alike halike] at hh ⊢
  obtain ⟨tables, t, hresults, hreq, htables⟩ := exporter.results_formats hsorted hsize hh
  have hrecord : ∀ layer ∈ candidates, ∃ r, record (Table.merge [] tables.flatten) layer = .ok r ∧
      Describes (exporter.formatsEvents partitions partitions.formats u) layer r := by
    intro layer hl
    obtain ⟨format, hformat⟩ := hcandidates layer hl
    have hmem := Partitions.mem_formats hformat
    have hexportable := hsorted.exportable format hmem
    have hkey : layer.id.key = .ok (.text (idText layer)) := by
      rw [hexportable.id layer hformat]
      rfl
    have hexported := hexportable.exported layer hformat
    refine ⟨⟨layer.id, layer.name, layer.typeName, layer.hasImageFill, format,
      (Table.merge [] tables.flatten).lookup (.text (idText layer))⟩, ?_,
      rfl, rfl, rfl, rfl, hexported, (htables []).1 format hmem layer hformat rfl⟩
    rw [record, hexported, ok_bind, hkey]
    rfl
  obtain ⟨records, hrecords, hdescribes⟩ := exists_mapM_eq_ok hrecord
  refine ⟨records, if (records.filter fun record => record.file.isNone).length != 0 then
      { t with journal := t.journal ++ [⟨.warning, "⚠ " ++
        toString (records.filter fun record => record.file.isNone).length ++ " of " ++
        toString records.length ++
        " assets were not exported; re-run with --assets-only to retry"⟩] }
    else t, ?_, hdescribes, ?_⟩
  · have hall : (Action.all (partitions.formats.map fun format =>
        exporter.exportFormat format (partitions.of format))).exec u = (.ok tables, t) := by
      rw [exec_all, hresults, mapM_id_eq_ok.2 rfl]
    have hrecords' : candidates.mapM (record (tables.flatten.foldl
        (fun table entry => table.put entry.1 entry.2) [])) = .ok records := hrecords
    rw [exportCandidates, exec_bind, exec_ofExcept, hp]
    simp only
    rw [exec_bind_of_ok hlog]
    refine (exec_bind_of_ok hall).trans ?_
    rw [exec_bind, exec_ofExcept, hrecords']
    simp only
    split <;> rfl
  · rw [← halike.requests, ← hreq]
    split <;> rfl

/-! ### What the outcome of a layer depends on -/

/-- The same was asked and downloaded about the layer, with the same answers. -/
def AnswersAlike (layer : Layer) (events events' : List Event) : Prop :=
  ∀ e, e.Concerns layer → (∀ l file outcome, e ≠ .saved l file outcome) →
    (e ∈ events ↔ e ∈ events')

lemma AnswersAlike.symm {layer : Layer} {events events' : List Event}
    (h : AnswersAlike layer events events') : AnswersAlike layer events' events :=
  fun e hl hs => (h e hl hs).symm

/-- What is delivered for a layer is decided by the answers about it and the tree at the start. -/
lemma Delivered.of_answersAlike {exporter' : Exporter} {w : Workspace}
    {events events' : List Event} (hs : exporter.Saves w events) (hs' : exporter'.Saves w events')
    (hdir : exporter'.settings.assetsDir = exporter.settings.assetsDir) {layer : Layer}
    (hl : layer.exportFormat? = .ok (some format)) (h : AnswersAlike layer events events')
    {file : Text} (hd : Delivered events format layer file) : Delivered events' format layer file := by
  obtain ⟨hfile, batch, urls, url, hbatch, hasked, hgives, content, b, hdown, hsaved⟩ := hd
  have hasked' := (h (.asked format batch (.ok urls)) hbatch nofun).1 hasked
  have hdown' := (h (.downloaded layer (.text url) (.ok content)) rfl nofun).1 hdown
  obtain ⟨file', outcome, hsaved'⟩ := hs'.downloaded hdown'
  obtain ⟨⟨format', hl', hfile'⟩, hiff'⟩ := hs'.saved hsaved'
  rw [hl] at hl'
  cases hl'
  rw [hfile] at hfile'
  cases hfile'
  have htakes := (hs.saved hsaved).2.1 ⟨b, rfl⟩
  rw [← hdir] at htakes
  obtain ⟨b', rfl⟩ := hiff'.2 htakes
  exact ⟨hfile, batch, urls, url, hbatch, hasked', hgives, content, b', hdown', hsaved'⟩

variable {layers : List Layer}

/-- The export of layers of the right types, sorted. No two candidates may have one id. -/
lemma story_eq_of_candidates (htyped : ∀ layer ∈ layers, layer.ExportTyped)
    (hids : ((layers.filter Layer.isCandidate).map Layer.id).Nodup) :
    ∃ partitions : Partitions, partition (layers.filter Layer.isCandidate) = .ok partitions ∧
      (∀ format, partitions.of format = layers.filter (Layer.isExportedAs format)) ∧
      Sorted partitions partitions.formats ∧
      exporter.story layers s = exporter.formatsEvents partitions partitions.formats s := by
  have hformat : ∀ layer ∈ layers.filter Layer.isCandidate,
      ∃ format, layer.exportFormat? = .ok (some format) := fun layer hl =>
    (htyped layer (List.mem_of_mem_filter hl)).exists_format (List.mem_filter.1 hl).2
  have hp := partition_eq hformat
  have hparts (format : ExportFormat) :
      (layers.filter Layer.isCandidate).filter (Layer.isExportedAs format) =
        layers.filter (Layer.isExportedAs format) := by
    rw [List.filter_filter]
    refine List.filter_congr fun layer hl => ?_
    rw [Bool.and_eq_left_iff_imp]
    exact fun hf => (htyped layer hl).isCandidate_of_isExportedAs hf
  have hof : ∀ format, Partitions.of ⟨(layers.filter Layer.isCandidate).filter
      (Layer.isExportedAs .svg), (layers.filter Layer.isCandidate).filter
      (Layer.isExportedAs .png)⟩ format = layers.filter (Layer.isExportedAs format) := by
    intro format
    cases format
    · exact hparts .svg
    · exact hparts .png
  refine ⟨_, hp, hof, .of_distinct (fun layer hl => htyped layer (List.mem_of_mem_filter hl)) hids
    (List.Nodup.filter _ (by decide)) fun format => (hof format).trans (hparts format).symm, ?_⟩
  rw [story, candidatesAmong_eq htyped]
  simp only [Except.bind, hp]

lemma nodup_candidates (hids : (layers.map Layer.id).Nodup) :
    ((layers.filter Layer.isCandidate).map Layer.id).Nodup :=
  hids.sublist (List.filter_sublist.map _)

lemma story_eq (htyped : ∀ layer ∈ layers, layer.ExportTyped) (hids : (layers.map Layer.id).Nodup) :
    ∃ partitions : Partitions, partition (layers.filter Layer.isCandidate) = .ok partitions ∧
      (∀ format, partitions.of format = layers.filter (Layer.isExportedAs format)) ∧
      Sorted partitions partitions.formats ∧
      exporter.story layers s = exporter.formatsEvents partitions partitions.formats s :=
  exporter.story_eq_of_candidates htyped (nodup_candidates hids)

variable {root : LayerTree}

lemma saves_story (hw : s.workspace.Sound) (htyped : ∀ layer ∈ layers, layer.ExportTyped)
    (hids : (layers.map Layer.id).Nodup) : exporter.Saves s.workspace (exporter.story layers s) := by
  obtain ⟨partitions, -, -, hsorted, hstory⟩ := exporter.story_eq (s := s) htyped hids
  rw [hstory]
  exact exporter.saves_formatsEvents hw hsorted.exportable

lemma exec_exportAll_of_candidates (htyped : ∀ layer ∈ layers, layer.ExportTyped)
    (hids : ((layers.filter Layer.isCandidate).map Layer.id).Nodup) (hsize : 1 ≤ exporter.settings.batchSize)
    (hh : ∀ e ∈ exporter.story layers s, e.Handled) :
    ∃ records t, (exporter.exportAll layers).exec s = (.ok records, t) ∧
      List.Forall₂ (Describes (exporter.story layers s)) (layers.filter Layer.isCandidate) records ∧
      t.requests = s.requests ++ (exporter.story layers s).filterMap exporter.requestOf := by
  obtain ⟨partitions, hp, hof, hsorted, hstory⟩ := exporter.story_eq_of_candidates (s := s) htyped hids
  rw [hstory] at hh ⊢
  obtain ⟨u, hlog⟩ : ∃ u, (Action.log .info "ℹ Finding exportable images...").exec s =
      (.ok ⟨⟩, u) := ⟨_, exec_log ..⟩
  obtain ⟨journal, hcandidates⟩ := exec_ofLogged_of_gives (gives_candidates layers) u
  have halike : Alike s { u with journal } := by
    have h := alike_log .info "ℹ Finding exportable images..." s
    rw [hlog] at h
    exact h.trans ⟨journal, rfl⟩
  rw [candidatesAmong_eq htyped] at hcandidates
  rw [← exporter.formatsEvents_alike halike] at hh ⊢
  rw [exportAll, exec_bind_of_ok hlog, exec_bind_of_ok hcandidates, exec_ite, ← halike.requests]
  split
  · rename_i hempty
    rw [List.isEmpty_iff.1 hempty] at hp ⊢
    cases hp
    exact ⟨[], _, rfl, .nil, by simp [Partitions.formats, Partitions.of, formatsEvents]⟩
  · refine exporter.exec_exportCandidates hp hsorted (fun layer hl => ?_) hsize hh
    obtain ⟨format, hf⟩ :=
      (htyped layer (List.mem_of_mem_filter hl)).exists_format (List.mem_filter.1 hl).2
    refine ⟨format, ?_⟩
    rw [hof]
    exact List.mem_filter.2 ⟨List.mem_of_mem_filter hl, Layer.isExportedAs_iff.2 hf⟩

lemma exec_exportAll (htyped : ∀ layer ∈ layers, layer.ExportTyped)
    (hids : (layers.map Layer.id).Nodup) (hsize : 1 ≤ exporter.settings.batchSize)
    (hh : ∀ e ∈ exporter.story layers s, e.Handled) :
    ∃ records t, (exporter.exportAll layers).exec s = (.ok records, t) ∧
      List.Forall₂ (Describes (exporter.story layers s)) (layers.filter Layer.isCandidate) records ∧
      t.requests = s.requests ++ (exporter.story layers s).filterMap exporter.requestOf :=
  exporter.exec_exportAll_of_candidates htyped (nodup_candidates hids) hsize hh

/-- An export whose failures are all of the kinds that it recovers from gives one record for each
candidate, in preorder, with a file exactly when the picture was delivered. The requests for a
format are for batches of its candidates in order. A failed batch leads to no download, and another
service that answers the same about a layer leaves it the same outcome. -/
theorem exportAll_outcomes (hw : s.workspace.Sound)
    (htyped : ∀ layer ∈ root.preorder, layer.ExportTyped)
    (hids : (root.preorder.map Layer.id).Nodup) (hsize : 1 ≤ exporter.settings.batchSize)
    (hh : ∀ e ∈ exporter.story root.preorder s, e.Handled) :
    ∃ records t, (exporter.exportAll root.preorder).exec s = (.ok records, t) ∧
      List.Forall₂ (Describes (exporter.story root.preorder s))
        (root.preorder.filter Layer.isCandidate) records ∧
      t.requests =
        s.requests ++ (exporter.story root.preorder s).filterMap exporter.requestOf ∧
      (∀ format, AreBatches exporter.settings.batchSize.toNat
        (root.preorder.filter (Layer.isExportedAs format))
        (askedBatches format (exporter.story root.preorder s))) ∧
      IdleAfterFailure (exporter.story root.preorder s) ∧
      ∀ client : Client, let exporter' := { exporter with client }
        (∀ e ∈ exporter'.story root.preorder s, e.Handled) →
          ∃ records' t', (exporter'.exportAll root.preorder).exec s = (.ok records', t') ∧
            ∀ layer ∈ root.preorder, AnswersAlike layer (exporter.story root.preorder s)
                (exporter'.story root.preorder s) →
              ∀ r ∈ records, ∀ r' ∈ records', r.id = layer.id → r'.id = layer.id →
                r'.file = r.file := by
  obtain ⟨partitions, -, hof, hsorted, hstory⟩ := exporter.story_eq (s := s) htyped hids
  obtain ⟨records, t, hexec, hdescribes, hreq⟩ := exporter.exec_exportAll htyped hids hsize hh
  refine ⟨records, t, hexec, hdescribes, hreq, fun format => ?_, ?_, fun client => ?_⟩
  · rw [← hof, hstory]
    by_cases hf : format ∈ partitions.formats
    · exact exporter.askedBatches_formatsEvents hsize (List.Nodup.filter _ (by decide)) hf
    · have hnil : partitions.of format = [] := by
        by_contra hne
        obtain ⟨layer, hl⟩ := List.exists_mem_of_ne_nil _ hne
        exact hf (Partitions.mem_formats hl)
      rw [exporter.askedBatches_other hf, hnil]
      exact ⟨rfl, nofun, nofun, nofun⟩
  · rw [hstory]
    exact exporter.idleAfterFailure_formatsEvents hsorted
  · intro exporter' hh'
    obtain ⟨records', t', hexec', hdescribes', -⟩ := exporter'.exec_exportAll htyped hids hsize hh'
    refine ⟨records', t', hexec', fun layer hl hsame r hr r' hr' hid hid' => ?_⟩
    have hlayer {records : List Record} {events : List Event} {r : Record}
        (h : List.Forall₂ (Describes events) (root.preorder.filter Layer.isCandidate) records)
        (hr : r ∈ records) (hid : r.id = layer.id) : Describes events layer r := by
      obtain ⟨l, hmem, hd⟩ := exists_of_mem_forall₂ h hr
      have he := List.inj_on_of_nodup_map hids (List.mem_of_mem_filter hmem) hl (hd.id.symm.trans hid)
      rwa [he] at hd
    have hd := hlayer hdescribes hr hid
    have hd' := hlayer hdescribes' hr' hid'
    have hformat : r'.format = r.format :=
      Option.some.inj (Except.ok.inj (hd'.format.symm.trans hd.format))
    have hs := exporter.saves_story hw htyped hids
    have hs' := exporter'.saves_story hw htyped hids
    refine Option.ext fun f => ?_
    rw [hd.file, hd'.file, hformat]
    exact ⟨.of_answersAlike exporter' hs' hs rfl hd.format hsame.symm,
      .of_answersAlike exporter hs hs' rfl hd.format hsame⟩

/-! ### An export with a failed batch -/

/-- A page with two stars and a photo. -/
def starsAndPhoto : LayerTree :=
  .node (plainLayer "0:0" "Page" "DOCUMENT") [
    .node (plainLayer "1:2" "Star" "STAR") [],
    .node (plainLayer "1:3" "Star" "STAR") [],
    .node { plainLayer "1:4" "Photo" "RECTANGLE" with
      fills := [⟨.text "IMAGE", .null, .null, .null⟩] } []]

/-- A service that fails on the first star and has no photo. -/
def lossyService : Service := fun earlier request =>
  if request.token.isNone then .response ⟨200, "OK", .bytes "<svg/>".toUTF8⟩
  else if earlier.isEmpty then .failure .timeout "timed out"
  else .response ⟨200, "OK", .json (.record [("images",
    .record [("1:3", .text "https://pictures/3"), ("1:4", .null)])])⟩

/-- An export from that service, one layer in a batch. -/
def lossyExporter : Exporter := ⟨⟨.text "token", .int 10, lossyService⟩, plainSettings, none⟩

lemma exportTyped_starsAndPhoto : ∀ layer ∈ starsAndPhoto.preorder, layer.ExportTyped := by
  have hphoto := Layer.ExportTyped.of_plain "1:4" "Photo" "RECTANGLE"
  simp only [starsAndPhoto, Tree.preorder_node, Tree.preorderAll_cons, Tree.preorderAll_nil,
    List.append_nil, List.cons_append, List.nil_append, List.forall_mem_cons]
  exact ⟨.of_plain .., .of_plain .., .of_plain ..,
    ⟨hphoto.id, hphoto.name, hphoto.typeName, hphoto.exportSettings⟩, List.forall_mem_nil _⟩

/-- The second star has its file, although the batch of the first one failed. -/
theorem exportAll_outcomes_starsAndPhoto : ∃ records t,
    (lossyExporter.exportAll starsAndPhoto.preorder).exec (.start .empty) = (.ok records, t) ∧
    List.Forall₂ (Describes (lossyExporter.story starsAndPhoto.preorder (.start .empty)))
      (starsAndPhoto.preorder.filter Layer.isCandidate) records ∧
    records.map Record.file = [none, some ("star-1-3.svg" : Text), none] := by
  have hids : (starsAndPhoto.preorder.map Layer.id).Nodup := nodup_ids (by decide)
  obtain ⟨records, t, hexec, hdescribes, -⟩ := exportAll_outcomes lossyExporter (s := .start .empty)
    Workspace.sound_empty exportTyped_starsAndPhoto hids (by decide) (by decide +kernel)
  have hfiles : ((lossyExporter.exportAll starsAndPhoto.preorder).exec
      (.start .empty)).1.toOption.map (·.map Record.file) =
        some [none, some ("star-1-3.svg" : Text), none] := by decide +kernel
  rw [hexec] at hfiles
  exact ⟨records, t, hexec, hdescribes, Option.some.inj hfiles⟩

end Exporter

end Asset

end Handoff
