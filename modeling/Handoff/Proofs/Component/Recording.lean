import Handoff.Proofs.Asset.Exporting
import Handoff.Proofs.Component.Roles
import Handoff.Proofs.Component.Series
import Handoff.Proofs.Data.Alike

/-!
Every picture of a component has its record.

Two walks meet here: an export walks over the whole design and takes the layers that are exported, and
annotating walks over the visible part of a component and takes the layers that appear as pictures. Both
decide by the same fields, so what appears as a picture was exported, and in the format in which it
appears.
-/

namespace Handoff

open Design Naming

namespace Asset

open Action

/-! ### Candidates and their formats -/

/-- The candidates of each format are the partition for it, in order, and each candidate is in exactly one
partition. -/
structure Splits (cs : List Layer) (parts : Partitions) : Prop where
  inOrder : ∀ format, parts.of format = cs.filter (Layer.isExportedAs format)
  once : ∀ layer ∈ cs, ∃! format, layer ∈ parts.of format

lemma Splits.of_exists_format {cs : List Layer}
    (h : ∀ layer ∈ cs, ∃ format, layer.exportFormat? = .ok (some format)) :
    ∃ parts, partition cs = .ok parts ∧ Splits cs parts := by
  have hparts : ∀ format, Partitions.of ⟨cs.filter (Layer.isExportedAs .svg),
      cs.filter (Layer.isExportedAs .png)⟩ format = cs.filter (Layer.isExportedAs format) := by
    intro format
    cases format <;> rfl
  refine ⟨_, partition_eq h, hparts, fun layer hl => ?_⟩
  obtain ⟨format, hformat⟩ := h layer hl
  refine ⟨format, ?_, fun other hother => ?_⟩
  · simp only [hparts]
    exact List.mem_filter.2 ⟨hl, Layer.isExportedAs_iff.2 hformat⟩
  · simp only [hparts] at hother
    have hexported := Layer.isExportedAs_iff.1 (List.mem_filter.1 hother).2
    rw [hformat] at hexported
    cases hexported
    rfl

/-! ### Records -/

/-- A record is that of a layer and has its format. -/
def IsRecordOf (layer : Layer) (r : Record) : Prop :=
  r.id = layer.id ∧ layer.exportFormat? = .ok (some r.format)

lemma isRecordOf_of_record {exported : Exported} {layer : Layer} {r : Record}
    (h : Exporter.record exported layer = .ok r) : IsRecordOf layer r := by
  obtain ⟨format, hformat, h⟩ := bind_eq_ok.1 h
  cases format with
  | none => cases h
  | some format =>
    obtain ⟨key, -, h⟩ := bind_eq_ok.1 h
    cases h
    exact ⟨rfl, hformat⟩

/-- An export that ends has one record for each candidate, in order. -/
lemma Exporter.isRecordOf_of_exec_exportAll {exporter : Exporter} {layers : List Layer}
    {records : List Record} {s t : World}
    (h : (exporter.exportAll layers).exec s = (.ok records, t)) :
    ∃ cs, candidatesAmong layers = .ok cs ∧ List.Forall₂ IsRecordOf cs records := by
  obtain ⟨⟨⟩, u, -, h⟩ := exec_bind_eq_ok.1 h
  obtain ⟨cs, v, hcandidates, h⟩ := exec_bind_eq_ok.1 h
  obtain ⟨journal, hexec⟩ := exec_ofLogged_of_gives (gives_candidates layers) u
  obtain ⟨hok, -⟩ := Prod.mk.inj (hexec.symm.trans hcandidates)
  refine ⟨cs, hok, ?_⟩
  rw [exec_ite] at h
  split at h
  · rename_i hempty
    obtain ⟨⟨⟩, w, -, h⟩ := exec_bind_eq_ok.1 h
    cases h
    rw [List.isEmpty_iff.1 hempty]
    exact .nil
  · obtain ⟨partitions, w, -, h⟩ := exec_bind_eq_ok.1 h
    obtain ⟨⟨⟩, x, -, h⟩ := exec_bind_eq_ok.1 h
    obtain ⟨tables, y, -, h⟩ := exec_bind_eq_ok.1 h
    obtain ⟨found, z, hexec, h⟩ := exec_bind_eq_ok.1 h
    obtain ⟨hfound, -⟩ := exec_ofExcept_eq_ok.1 hexec
    have hend : found = records := by
      simp only [exec_ite] at h
      split at h
      · obtain ⟨⟨⟩, z, -, hend⟩ := exec_bind_eq_ok.1 h
        cases hend
        rfl
      · cases h
        rfl
    rw [← hend]
    exact (forall₂_of_mapM hfound).imp fun _ _ => isRecordOf_of_record

/-- Distinct ids have distinct keys. -/
lemma nodup_keys_of_ids {records : List Record} (htexts : ∀ r ∈ records, r.id.IsSomeText)
    (hids : (records.map Record.id).Nodup) : (records.map fun r => r.id.key).Nodup := by
  have hinj : ∀ a ∈ records.map Record.id, ∀ b ∈ records.map Record.id, a.key = b.key → a = b := by
    intro a ha b hb hsame
    obtain ⟨r, hr, rfl⟩ := List.mem_map.1 ha
    obtain ⟨r', hr', rfl⟩ := List.mem_map.1 hb
    exact (htexts r hr).eq_of_key_eq (htexts r' hr') hsame
  have hmap := hids.map_on hinj
  rwa [List.map_map] at hmap

/-- Records with distinct ids have a table of files, in which each has its own. -/
lemma filesOf_eq_ok {records : List Record} (htexts : ∀ r ∈ records, r.id.IsSomeText)
    (hids : (records.map Record.id).Nodup) :
    ∃ files, filesOf records = .ok files ∧
      ∀ r ∈ records, ∀ key, r.id.key = .ok key → files.lookup key = some r.file := by
  let IsEntry (r : Record) (entry : Key × Option Text) : Prop :=
    r.id.key = .ok entry.1 ∧ entry.2 = r.file
  obtain ⟨entries, hentries, hall⟩ : ∃ entries, (records.mapM fun r => do
      return (← r.id.key, r.file)) = .ok entries ∧ List.Forall₂ IsEntry records entries := by
    refine exists_mapM_eq_ok fun r hr => ?_
    obtain ⟨id, -, hkey⟩ := (htexts r hr).key
    exact ⟨(.text id, r.file), by rw [hkey]; rfl, hkey, rfl⟩
  have hkeys := nodup_keys_of_ids htexts hids
  have hkeyed : Table.Keyed entries := by
    have hsame : (entries.map fun entry => Except.ok (ε := Fault) entry.1) =
        records.map fun r => r.id.key :=
      map_eq_of_forall₂ hall fun _ _ hentry => hentry.1.symm
    rw [← hsame] at hkeys
    refine List.Nodup.of_map (Except.ok (ε := Fault)) ?_
    rwa [List.map_map]
  refine ⟨Table.ofEntries entries, by rw [filesOf, hentries]; rfl, fun r hr key hkey => ?_⟩
  obtain ⟨⟨key', file⟩, hmem, hkey', hfile⟩ := exists_of_mem_forall₂ hall.flip hr
  cases hkey.symm.trans hkey'
  rw [Table.lookup_ofEntries, Table.lastValue_of_keyed hkeyed, ← hfile]
  exact Table.lookup_of_mem hkeyed hmem

end Asset

open Asset

/-! ### The pictures of a component -/

variable {root tree : LayerTree} {rules : Rules} {name : Text} {memo memo' : RoleMemo}
  {component : Component}

/-- The record of an element: the only one under the id of its layer. Its format is that of the element's
role, and its file is the element's. -/
structure Element.RecordedAs (e : Element) (records : List Record) (files : FileMap) (r : Record) :
    Prop where
  mem : r ∈ records
  id : r.id = e.layer.id
  only : ∀ other ∈ records, other.id = e.layer.id → other = r
  vector : e.role = .vectorAsset ↔ r.format = .svg
  raster : e.role = .rasterAsset ↔ r.format = .png
  file : files.lookup e.key = some r.file

/-- An export of the design that ends has a record for each picture of the component. -/
def Component.RecordedBy (component : Component) (root : LayerTree) : Prop :=
  ∀ (exporter : Exporter) (s t : World) (records : List Record),
    (exporter.exportAll root.preorder).exec s = (.ok records, t) →
      ∃ files, filesOf records = .ok files ∧
        ∀ e ∈ component.assets, ∃ r, e.RecordedAs records files r

/-- Pictures with the roles of layers of the design have records. -/
lemma recordedBy_of_hasOwnRole (hids : (root.preorder.map Layer.id).Nodup)
    (htyped : ∀ layer ∈ root.preorder, layer.ExportTyped)
    (hkeys : ∀ e ∈ component.elements, e.layer.id.key = .ok e.key)
    (hroles : ∀ e ∈ component.elements, Annotating.HasOwnRole root e) :
    component.RecordedBy root := by
  intro exporter s t records hexec
  obtain ⟨cs, hcs, hall⟩ := Exporter.isRecordOf_of_exec_exportAll hexec
  have hsub := candidatesAmong_sublist hcs
  have hsame : records.map Record.id = cs.map Layer.id :=
    map_eq_of_forall₂ hall fun _ _ h => h.1
  have hrecordIds : (records.map Record.id).Nodup := hsame ▸ hids.sublist (hsub.map Layer.id)
  obtain ⟨files, hfiles, hlookup⟩ := filesOf_eq_ok (fun r hr => by
    obtain ⟨layer, hl, hr⟩ := exists_of_mem_forall₂ hall hr
    exact hr.1 ▸ (htyped layer (hsub.subset hl)).id) hrecordIds
  refine ⟨files, hfiles, fun e he => ?_⟩
  obtain ⟨he, hasset⟩ := List.mem_filter.1 he
  obtain ⟨u, hu, hlabel, hrole⟩ := hroles e he
  have hlayer : u.label ∈ root.preorder := Tree.label_mem_preorder hu
  obtain ⟨role, format, halike⟩ := exists_decidesAlike (htyped _ hlayer)
  cases hrole.symm.trans halike.appears
  -- A layer that appears as a picture is a candidate.
  have hmem : u.label ∈ cs := by
    rw [candidatesAmong_eq htyped] at hcs
    cases hcs
    refine List.mem_filter.2 ⟨hlayer, ?_⟩
    rw [Layer.isCandidate, halike.candidate]
    exact hasset
  obtain ⟨r, hr, hid, hformat⟩ := exists_of_mem_forall₂ hall.flip hmem
  cases halike.exported.symm.trans hformat
  exact ⟨r, {
    mem := hr
    id := by rw [hid, hlabel]
    only := fun other hother hsameId =>
      List.inj_on_of_nodup_map hrecordIds hother hr (by rw [hsameId, hid, hlabel])
    vector := halike.vector.trans (by rw [Option.some.injEq])
    raster := halike.raster.trans (by rw [Option.some.injEq])
    file := hlookup r hr e.key (by rw [hid, ← hlabel, hkeys e he]) }⟩

/-- A component inside the design, annotated with a memo that reads from the design. -/
lemma recordedBy_of_annotate (hids : (root.preorder.map Layer.id).Nodup)
    (htyped : ∀ layer ∈ root.preorder, layer.ExportTyped) (hmemo : memo.ReadsFrom root)
    (htree : tree ∈ root.subtrees) (h : annotate rules memo tree name = .ok (component, memo')) :
    memo'.ReadsFrom root ∧ component.RecordedBy root := by
  obtain ⟨hmemo', hroles⟩ := Annotating.hasOwnRole_of_annotate (.of_nodup hids htyped) hmemo htree h
  exact ⟨hmemo', recordedBy_of_hasOwnRole hids htyped
    (fun e he => (standsAmong_of_annotate h e he).key) hroles⟩

/-- The decisions about the layers of a design with distinct ids agree. So its candidates are split by
format, each into one partition, and the pictures of its components, whatever was decided before, have
their records in the export of the design. -/
theorem pictures_recorded (hids : (root.preorder.map Layer.id).Nodup)
    (htyped : ∀ layer ∈ root.preorder, layer.ExportTyped) :
    (∀ t ∈ root.subtrees, ∃ role format, DecidesAlike t role format) ∧
    (∃ cs parts, (candidates root.preorder).Gives (.ok cs) ∧
      cs = root.preorder.filter Layer.isCandidate ∧ partition cs = .ok parts ∧ Splits cs parts) ∧
    ∀ trees, findComponents root = .ok trees → ∀ tree ∈ trees,
      ∀ (rules : Rules) (memo memo' : RoleMemo) (name : Text) (component : Component),
        memo.ReadsFrom root → annotate rules memo tree name = .ok (component, memo') →
          memo'.ReadsFrom root ∧ component.RecordedBy root := by
  refine ⟨fun t ht => exists_decidesAlike (htyped _ (Tree.label_mem_preorder ht)), ?_,
    fun trees htrees tree htree rules memo memo' name component hmemo h => ?_⟩
  · have hformats : ∀ layer ∈ root.preorder.filter Layer.isCandidate,
        ∃ format, layer.exportFormat? = .ok (some format) := fun layer hl =>
      (htyped layer (List.mem_of_mem_filter hl)).exists_format (List.mem_filter.1 hl).2
    obtain ⟨parts, hparts, hsplits⟩ := Splits.of_exists_format hformats
    refine ⟨_, parts, ?_, rfl, hparts, hsplits⟩
    rw [← candidatesAmong_eq htyped]
    exact gives_candidates root.preorder
  · have hsub := (areComponents_of_componentsAmong htrees).sublist.subset htree
    exact recordedBy_of_annotate hids htyped hmemo hsub h

/-- A component that is a photo, with a star and a label that is exported as a vector picture. -/
def posterTree : LayerTree :=
  .node { plainLayer "1:1" "Poster" "COMPONENT" with
      fills := [⟨.text "IMAGE", .null, .null, .null⟩] } [
    .node (plainLayer "1:2" "Star" "STAR") [],
    .node { plainLayer "1:3" "Label" "TEXT" with
      exportSettings := [.record [("format", .text "svg")]] } []]

/-- A design with this component. -/
def posterPage : LayerTree := .node (plainLayer "0:0" "Page" "DOCUMENT") [posterTree]

/-- An export from a service that has the star alone. -/
def posterExporter : Exporter :=
  ⟨⟨.text "token", .int 10, fun _ request =>
    if request.token.isNone then .response ⟨200, "OK", .bytes "<svg/>".toUTF8⟩
    else .response ⟨200, "OK", .json (.record [("images",
      .record [("1:2", .text "https://pictures/2")])])⟩⟩, plainSettings, none⟩

lemma exportTyped_posterPage : ∀ layer ∈ posterPage.preorder, layer.ExportTyped := by
  have hphoto := Layer.ExportTyped.of_plain "1:1" "Poster" "COMPONENT"
  have hlabel := Layer.ExportTyped.of_plain "1:3" "Label" "TEXT"
  simp only [posterPage, posterTree, Tree.preorder_node, Tree.preorderAll_cons, Tree.preorderAll_nil,
    List.append_nil, List.cons_append, List.nil_append, List.forall_mem_cons]
  refine ⟨.of_plain .., ⟨hphoto.id, hphoto.name, hphoto.typeName, hphoto.exportSettings⟩,
    .of_plain .., ⟨hlabel.id, hlabel.name, hlabel.typeName, ?_⟩, List.forall_mem_nil _⟩
  exact List.forall_mem_singleton.2 ⟨_, rfl, Or.inr ⟨"svg", rfl⟩⟩

/-- The photo, the star and the label have their records, although only the star was exported. -/
theorem pictures_recorded_poster : ∃ component memo records files t,
    annotate .standard [] posterTree "Poster" = .ok (component, memo) ∧
    component.assets.map Element.role = [.rasterAsset, .vectorAsset, .vectorAsset] ∧
    (posterExporter.exportAll posterPage.preorder).exec (.start .empty) = (.ok records, t) ∧
    records.map Record.file = [none, some ("star-1-2.svg" : Text), none] ∧
    ∀ e ∈ component.assets, ∃ r, e.RecordedAs records files r := by
  have hids : (posterPage.preorder.map Layer.id).Nodup := nodup_ids (by decide)
  obtain ⟨-, -, hrecorded⟩ := pictures_recorded hids exportTyped_posterPage
  have hroles : (annotate .standard [] posterTree "Poster").toOption.map
      (fun result => result.1.assets.map Element.role) =
        some [.rasterAsset, .vectorAsset, .vectorAsset] := by decide +kernel
  have hfiles : ((posterExporter.exportAll posterPage.preorder).exec (.start .empty)).1.toOption.map
      (·.map Record.file) = some [none, some ("star-1-2.svg" : Text), none] := by decide +kernel
  rcases hannotate : annotate .standard [] posterTree "Poster" with fault | ⟨component, memo⟩
  · rw [hannotate] at hroles
    cases hroles
  rcases hexec : (posterExporter.exportAll posterPage.preorder).exec (.start .empty) with
    ⟨fault | records, t⟩
  · rw [hexec] at hfiles
    cases hfiles
  rw [hannotate] at hroles
  rw [hexec] at hfiles
  obtain ⟨-, hby⟩ := hrecorded [posterTree] rfl posterTree (List.mem_singleton_self _) .standard [] memo
    "Poster" component (RoleMemo.readsFrom_nil _) hannotate
  obtain ⟨files, -, hall⟩ := hby posterExporter (.start .empty) t records hexec
  exact ⟨component, memo, records, files, t, rfl, Option.some.inj hroles, rfl,
    Option.some.inj hfiles, hall⟩

/-- The components of a series, with the memo carried along. -/
theorem recordedBy_of_annotateAll {names : ComponentNames} {trees : List LayerTree}
    {components : List Component} (hids : (root.preorder.map Layer.id).Nodup)
    (htyped : ∀ layer ∈ root.preorder, layer.ExportTyped) (hmemo : memo.ReadsFrom root)
    (htrees : trees ⊆ root.subtrees) (h : annotateAll names memo trees = .ok components) :
    ∀ component ∈ components, component.RecordedBy root := by
  induction trees generalizing names memo components with
  | nil =>
    cases h
    exact List.forall_mem_nil _
  | cons tree rest ih =>
    obtain ⟨name, names', component, memo', others, -, hcomponent, hothers, rfl⟩ :=
      annotateAll_cons_eq_ok h
    rw [List.cons_subset] at htrees
    obtain ⟨hmemo', hfirst⟩ := recordedBy_of_annotate hids htyped hmemo htrees.1 hcomponent
    exact List.forall_mem_cons.2 ⟨hfirst, ih hmemo' htrees.2 hothers⟩

end Handoff
