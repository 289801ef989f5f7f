import Handoff.Proofs.Asset.Keeping
import Handoff.Proofs.Render.Binding
import Handoff.Proofs.Render.TopLevel

/-!
No two identifiers of a generated file are the same.

The layers of a design have different ids, so their pictures have different files and different
identifiers. With the files that an export of the design entered, a template therefore binds distinct
identifiers, and so does a catalog.
-/

namespace Handoff

open Action Asset Design Files Naming Remote Render Text

variable {exporter : Exporter} {layers : List Layer} {records : List Record} {files : FileMap}
  {s t : World}

/-- The files that an export enters are pictures' files, told apart by their identifiers. -/
lemma pictureFiles_of_filesOf (hids : HaveNodeIds layers) (hs : s.workspace.Sound)
    (h : (exporter.exportAll layers).exec s = (.ok records, t))
    (hfiles : filesOf records = .ok files) : PictureFiles files := by
  have hsourced {key : Key} {file : Text} (hfile : files.file? key = some file) :
      ∃ layer ∈ layers, layer.id.key = .ok key ∧ ∃ format, fileName layer format = .ok file := by
    obtain ⟨layer, hl, hkey, hkeeps⟩ :=
      Exporter.sourced_of_filesOf hs hids.sharesNoFiles h hfiles hfile
    obtain ⟨format, -, hname⟩ := hkeeps.named
    exact ⟨layer, hl, hkey, format, hname⟩
  constructor
  · intro key file hfile
    obtain ⟨layer, -, -, format, hname⟩ := hsourced hfile
    exact ⟨layer, format, hname⟩
  · intro key key' file file' hfile hfile' hhandle
    obtain ⟨layer, hl, hkey, format, hname⟩ := hsourced hfile
    obtain ⟨layer', hl', hkey', format', hname'⟩ := hsourced hfile'
    have hid : layer.id = layer'.id := by
      by_contra hne
      exact hids.handle_ne hl hl' hne hname hname' hhandle
    have hsame : key = key' := Except.ok.inj (hkey.symm.trans (hid ▸ hkey'))
    rw [hsame, hfile'] at hfile
    exact (Option.some.inj hfile).symm

/-- In a design whose layers have different ids, whatever their names: layers with different ids have
different files and identifiers; and with the files of an export of the design, the template of every
component binds distinct identifiers and uses no others in its markup, and its catalog declares
distinct names. -/
theorem identifiers_apart {root : LayerTree} (hids : HaveNodeIds root.preorder) :
    (∀ a ∈ root.preorder, ∀ b ∈ root.preorder, a.id ≠ b.id → ∀ format format' file file',
      fileName a format = .ok file → fileName b format' = .ok file' →
        file ≠ file' ∧ handle file ≠ handle file') ∧
    ∀ (exporter : Exporter) (s : World) (records : List Record) (t : World) (files : FileMap),
      s.workspace.Sound → (exporter.exportAll root.preorder).exec s = (.ok records, t) →
      filesOf records = .ok files →
      ∀ trees components, annotateAll (.initial .standard) [] trees = .ok components →
        ∀ component ∈ components,
          (∀ assetsImport text, template files component assetsImport = .ok text →
            ∃ ps markup, text = (scriptOf files component assetsImport ps markup).text ∧
              (scriptOf files component assetsImport ps markup).bound =
                (["React"] : List Text) ++ (shownFiles files component).map handle ++
                  [component.name] ++
                  ((["className"] : List Text) ++ slotNames component ++ imageNames component) ++
                  (["props"] : List Text) ∧
              templateMarkup files component = .ok markup ∧
              (scriptOf files component assetsImport ps markup).IsScoped) ∧
          ∀ text, catalog component = .ok text →
            topLevelNames text =
              (["React", component.name, "Template"] : List Text) ++ storyNames component ∧
            (topLevelNames text).Nodup := by
  constructor
  · intro a ha b hb hne format format' file file' hfile hfile'
    exact ⟨hids.fileName_ne ha hb hne hfile hfile', hids.handle_ne ha hb hne hfile hfile'⟩
  · intro exporter s records t files hs hexport hfiles trees components hall component hcomponent
    have hpictures := pictureFiles_of_filesOf hids hs hexport hfiles
    have hfresh := (names_of_annotateAll hall).1 component hcomponent
    obtain ⟨tree, -, before, after, hannotate⟩ := exists_annotate_of_mem hall component hcomponent
    constructor
    · intro assetsImport text htext
      obtain ⟨ps, markup, hps, hmarkup, htext⟩ := exists_script htext
      exact ⟨ps, markup, htext, bound_scriptOf hps, hmarkup,
        isScoped_scriptOf hannotate hfresh hpictures hps hmarkup⟩
    · intro text htext
      exact ⟨topLevelNames_catalog hfresh.word hfresh.large htext, nodup_topLevelNames hfresh htext⟩

/-! ### A design in which names coincide -/

/-- A component with the name of a story, with a text and three stars, one of them in an instance. The
second star's name looks like the end of an id. -/
def gallery : LayerTree :=
  .node (plainLayer "0:0" "Page" "DOCUMENT") [
    .node (plainLayer "1:1" "default" "COMPONENT") [
      .node { plainLayer "1:2" "Title" "TEXT" with characters := .text "Hello" } [],
      .node (plainLayer "11:1" "Star" "STAR") [],
      .node (plainLayer "1:11" "Star 11" "STAR") [],
      .node (plainLayer "I1:1;1:11" "11 star" "STAR") []]]

/-- A service that has a picture of every star. -/
def galleryService : Service := fun _ request =>
  if request.token.isNone then .response ⟨200, "OK", .bytes "<svg/>".toUTF8⟩
  else .response ⟨200, "OK", .json (.record [("images",
    .record [("11:1", .text "https://pictures/1"), ("1:11", .text "https://pictures/2"),
      ("I1:1;1:11", .text "https://pictures/3")])])⟩

/-- An export from that service. -/
def galleryExporter : Exporter := ⟨⟨.text "token", .int 10, galleryService⟩, plainSettings, none⟩

lemma haveNodeIds_gallery : HaveNodeIds gallery.preorder := by
  have hpair {a b : Text} (ha : IsNumeral a) (hb : IsNumeral b) : IsNodeId (a ++ ":" ++ b) :=
    .pair ha hb
  have hchain {p : List NumberPair} (hp : AreNumerals p) (hlength : 2 ≤ p.length) :
      IsNodeId ("I" ++ chainText p) := .chain hp hlength
  have hids : gallery.preorder.map Layer.id =
      (["0:0", "1:1", "1:2", "11:1", "1:11", "I1:1;1:11"] : List Text).map Value.text := by
    simp only [gallery, Tree.preorder_node, Tree.preorderAll_cons, Tree.preorderAll_nil]
    rfl
  refine .of_texts hids ?_ (by decide)
  simp only [List.forall_mem_cons]
  exact ⟨hpair (a := "0") (b := "0") (by decide) (by decide),
    hpair (a := "1") (b := "1") (by decide) (by decide),
    hpair (a := "1") (b := "2") (by decide) (by decide),
    hpair (a := "11") (b := "1") (by decide) (by decide),
    hpair (a := "1") (b := "11") (by decide) (by decide),
    hchain (p := [("1", "1"), ("1", "11")]) (by decide) (by decide), List.forall_mem_nil _⟩

/-- What the template of the component binds. -/
theorem identifiers_apart_gallery : ∃ records t files component text ps markup,
    (galleryExporter.exportAll gallery.preorder).exec (.start .empty) = (.ok records, t) ∧
    filesOf records = .ok files ∧ template files component "../assets" = .ok text ∧
    text = (scriptOf files component "../assets" ps markup).text ∧
    (scriptOf files component "../assets" ps markup).bound =
      ["React", "star_11_1_svg", "star_11_1_11_svg", "asset_11_star_I1_1_1_11_svg", "Default2",
        "className", "text1", "imageSrc", "imageAlt", "props"] ∧
    (scriptOf files component "../assets" ps markup).IsScoped := by
  have hrun : (do
      let records ← ((galleryExporter.exportAll gallery.preorder).exec (.start .empty)).1
      let files ← filesOf records
      let trees ← findComponents gallery
      let components ← annotateAll (.initial .standard) [] trees
      let _ ← components.mapM fun component => template files component "../assets"
      return components.map fun component => (["React"] : List Text) ++
        (shownFiles files component).map handle ++ [component.name] ++
        ((["className"] : List Text) ++ slotNames component ++ imageNames component) ++
        (["props"] : List Text) : Except Fault (List (List Text))).toOption =
      some [(["React", "star_11_1_svg", "star_11_1_11_svg", "asset_11_star_I1_1_1_11_svg", "Default2",
        "className", "text1", "imageSrc", "imageAlt", "props"] : List Text)] := by
    decide +kernel
  obtain ⟨records, hrecords, hrun⟩ := bind_eq_ok.1 (eq_ok_of_toOption hrun)
  obtain ⟨files, hfiles, hrun⟩ := bind_eq_ok.1 hrun
  obtain ⟨trees, -, hrun⟩ := bind_eq_ok.1 hrun
  obtain ⟨components, hall, hrun⟩ := bind_eq_ok.1 hrun
  obtain ⟨texts, htexts, hrun⟩ := bind_eq_ok.1 hrun
  obtain ⟨component, rest, rfl, hbound, -⟩ := List.map_eq_cons_iff.1 (Except.ok.inj hrun)
  have htexts := forall₂_of_mapM htexts
  cases htexts with
  | @cons _ text _ _ htext _ =>
    have hpair {p : Except Fault (List Record) × World} (h : p.1 = .ok records) :
        p = (.ok records, p.2) := Prod.ext h rfl
    have hexport := hpair hrecords
    obtain ⟨hscoped, -⟩ := (identifiers_apart haveNodeIds_gallery).2 galleryExporter (.start .empty)
      records _ files Workspace.sound_empty hexport hfiles trees _ hall component List.mem_cons_self
    obtain ⟨ps, markup, hscript, hnames, -, hscope⟩ := hscoped "../assets" text htext
    exact ⟨records, _, files, component, text, ps, markup, hexport, hfiles, htext, hscript,
      hnames.trans hbound, hscope⟩

end Handoff
