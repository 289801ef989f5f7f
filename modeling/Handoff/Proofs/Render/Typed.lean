import Handoff.Component.Artifacts
import Handoff.Proofs.Component.Typed

/-!
The files of a component whose layers have typed fields are rendered.
-/

namespace Handoff.Render

open Asset Design

/-! ### Declarations -/

section

variable {bound : ℚ} {property : Text} {value : Value} {style : Style}

variable (hbound : bound ≤ Numeric.Binary64.largest)

include hbound

end

variable {files : FileMap} {component : Component} {element : Element}

lemma asText_eq_ok {value : Value} (h : value.IsSomeText) (fault : Fault) :
    ∃ s, value.asText fault = .ok s := by
  obtain ⟨s, rfl⟩ := h
  exact ⟨s, rfl⟩

lemma description_eq_ok (h : element.WellTyped) : ∃ s, description element = .ok s := by
  unfold description
  split
  · exact asText_eq_ok h.layer.name _
  · exact ⟨_, rfl⟩

lemma templateTag_eq_ok (h : element.WellTyped) :
    ∃ tag, templateTag files component element = .ok tag := by
  have hpicture (primary : Bool) (cssClass : Text) :
      ∃ tag, pictureTag files primary element cssClass = .ok tag := by
    unfold pictureTag
    split
    · exact exists_bind_eq_ok (description_eq_ok h) fun _ => ⟨_, rfl⟩
    · exact exists_bind_eq_ok (description_eq_ok h) fun _ => ⟨_, rfl⟩
    · exact exists_bind_eq_ok (description_eq_ok h) fun _ => ⟨_, rfl⟩
    · exact ⟨_, rfl⟩
  unfold templateTag
  dsimp only
  split
  · exact hpicture _ _
  split
  · exact ⟨_, rfl⟩
  · exact ⟨_, rfl⟩

lemma twigTag_eq_ok (h : element.WellTyped) (assetsPath : Text) :
    ∃ tag, twigTag files assetsPath element = .ok tag := by
  unfold twigTag
  dsimp only
  split
  · split
    · exact exists_bind_eq_ok (description_eq_ok h) fun _ => ⟨_, rfl⟩
    · exact ⟨_, rfl⟩
  split
  · exact ⟨_, rfl⟩
  · exact ⟨_, rfl⟩

variable {tag : Element → Except Fault Tag}

mutual

theorem markupTree_eq_ok (t : Tree Element) (h : ∀ e ∈ t.preorder, ∃ a, tag e = .ok a) :
    ∃ markup, markupTree tag t = .ok markup := by
  match t with
  | .node e children =>
    rw [Tree.preorder_node, List.forall_mem_cons] at h
    rw [markupTree]
    refine exists_bind_eq_ok h.1 fun _ => ?_
    split
    · exact exists_bind_eq_ok (markupForest_eq_ok children h.2) fun _ => ⟨_, rfl⟩
    · exact ⟨_, rfl⟩

theorem markupForest_eq_ok (ts : Forest Element) (h : ∀ e ∈ Tree.preorderAll ts, ∃ a, tag e = .ok a) :
    ∃ markup, markupForest tag ts = .ok markup := by
  match ts with
  | [] => exact ⟨[], by rw [markupForest]⟩
  | t :: ts =>
    rw [Tree.preorderAll_cons, List.forall_mem_append] at h
    rw [markupForest]
    refine exists_bind_eq_ok (markupTree_eq_ok t h.1) fun _ => ?_
    exact exists_bind_eq_ok (markupForest_eq_ok ts h.2) fun _ => ⟨_, rfl⟩

end

/-- The characters of texts are texts. -/
lemma isSomeText_of_mem_texts (h : component.WellTyped) {value : Value}
    (hv : value ∈ component.texts) : value.IsSomeText := by
  obtain ⟨element, he, hsome⟩ := List.mem_filterMap.1 hv
  split at hsome
  · cases hsome
    exact (h.elements element he).layer.characters
  · cases hsome

lemma textProperties_eq_ok (h : component.WellTyped) :
    ∃ texts, component.textProps.mapM textProperty = .ok texts := by
  refine exists_mapM_of_forall fun prop hp => ?_
  obtain ⟨⟨value, number⟩, hmem, rfl⟩ := List.mem_map.1 hp
  have htext := isSomeText_of_mem_texts h (List.fst_mem_of_mem_zipIdx hmem)
  exact exists_bind_eq_ok (asText_eq_ok htext _) fun _ => ⟨_, rfl⟩

/-- The template of a typed component. -/
theorem template_eq_ok (h : component.WellTyped) (assetsImport : Text) :
    ∃ text, template files component assetsImport = .ok text := by
  have hproperties : ∃ ps, properties component = .ok ps :=
    exists_bind_eq_ok (textProperties_eq_ok h) fun _ => ⟨_, rfl⟩
  have hmarkup : ∃ markup, templateMarkup files component = .ok markup :=
    markupForest_eq_ok _ fun element he => templateTag_eq_ok (h.elements element he)
  refine exists_bind_eq_ok hproperties fun _ => ?_
  exact exists_bind_eq_ok hmarkup fun _ => ⟨_, rfl⟩

/-- The twig file of a typed component. -/
theorem twig_eq_ok (h : component.WellTyped) (assetsPath : Text) :
    ∃ text, twig files assetsPath component = .ok text := by
  have hmarkup : ∃ markup, twigMarkup files assetsPath component = .ok markup :=
    markupForest_eq_ok _ fun element he => twigTag_eq_ok (h.elements element he) assetsPath
  exact exists_bind_eq_ok hmarkup fun _ => ⟨_, rfl⟩

/-- The catalog file of a typed component. -/
theorem catalog_eq_ok (h : component.WellTyped) : ∃ text, catalog component = .ok text := by
  have htexts : ∃ texts, component.texts.mapM (Value.asText .wrongType) = .ok texts :=
    exists_mapM_of_forall fun value hv => asText_eq_ok (isSomeText_of_mem_texts h hv) _
  have hdisplay : ∃ text, displayText component = .ok text :=
    exists_bind_eq_ok htexts fun _ => ⟨_, rfl⟩
  have hstories : ∃ all, stories component = .ok all :=
    exists_bind_eq_ok (textProperties_eq_ok h) fun _ => ⟨_, rfl⟩
  refine exists_bind_eq_ok hdisplay fun _ => ?_
  exact exists_bind_eq_ok hstories fun _ => ⟨_, rfl⟩

end Handoff.Render
