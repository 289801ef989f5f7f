import Handoff.Proofs.Component.Classes
import Handoff.Proofs.Render.Tags

/-!
The tags of a template, element by element, and the pictures that they show.

Only containers have elements inside, so no element is left out of the markup. A tag shows a picture by
the identifier of its file, which also says whose file it is.
-/

namespace Handoff.Render

open Asset Design Text

section

variable {tag : Element → Except Fault Tag}

mutual

/-- The tags of a tree of markup are those of the elements, in order. -/
theorem forall₂_of_markupTree (t : Tree Element) {out : Tree Tag} (hnest : OnlyContainersNest [t])
    (h : markupTree tag t = .ok out) :
    List.Forall₂ (fun e a => tag e = .ok a) t.preorder out.preorder := by
  match t with
  | .node e below =>
    obtain ⟨hcontainer, hbelow, -⟩ := onlyContainersNest_cons.1 hnest
    rw [markupTree] at h
    obtain ⟨top, htop, h⟩ := bind_eq_ok.1 h
    split at h
    · obtain ⟨inside, hinside, h⟩ := bind_eq_ok.1 h
      cases h
      rw [Tree.preorder_node, Tree.preorder_node]
      exact .cons htop (forall₂_of_markupForest below hbelow hinside)
    · rename_i hrole
      cases h
      have hempty : below = [] := by
        by_contra hne
        exact hrole (hcontainer hne)
      rw [hempty, Tree.preorder_node, Tree.preorder_node, Tree.preorderAll_nil, Tree.preorderAll_nil]
      exact .cons htop .nil

/-- The tags of markup are those of the elements, in order. -/
theorem forall₂_of_markupForest (ts : Forest Element) {out : Markup} (hnest : OnlyContainersNest ts)
    (h : markupForest tag ts = .ok out) :
    List.Forall₂ (fun e a => tag e = .ok a) (Tree.preorderAll ts) (Tree.preorderAll out) := by
  match ts with
  | [] =>
    rw [markupForest] at h
    cases h
    rw [Tree.preorderAll_nil, Tree.preorderAll_nil]
    exact .nil
  | .node e below :: ts =>
    obtain ⟨hcontainer, hbelow, hrest⟩ := onlyContainersNest_cons.1 hnest
    have hfirst : OnlyContainersNest [.node e below] :=
      onlyContainersNest_cons.2 ⟨hcontainer, hbelow, onlyContainersNest_nil⟩
    rw [markupForest] at h
    obtain ⟨first, htree, h⟩ := bind_eq_ok.1 h
    obtain ⟨rest, hforest, h⟩ := bind_eq_ok.1 h
    cases h
    rw [Tree.preorderAll_cons, Tree.preorderAll_cons]
    exact List.rel_append (forall₂_of_markupTree _ hfirst htree)
      (forall₂_of_markupForest ts hrest hforest)

end

end

/-! ### Shown pictures -/

/-- The source is the picture that is bound to a name, perhaps unless a property replaces it. -/
def IsSourceOf (source name : Text) : Prop :=
  source = braced name ∨ source = braced ("imageSrc || " ++ name)

/-- A picture tag shows what is bound to a name. -/
def Tag.Shows (tag : Tag) (name : Text) : Prop :=
  ∃ source description, tag.content = .picture source description ∧ IsSourceOf source name

lemma braced_inj {a b : Text} (h : braced a = braced b) : a = b := by
  have hlist := congrArg Text.toList h
  simp only [braced, toList_append, List.append_assoc] at hlist
  exact ext_toList (List.append_cancel_right (List.append_cancel_left hlist))

/-- An identifier has no blanks, so it cannot be taken for a choice. -/
lemma handle_ne_choice (file : Text) (other : Text) : handle file ≠ "imageSrc || " ++ other := by
  intro h
  have hover := over_handle file
  rw [h, over_append] at hover
  exact absurd (hover.1 (.char ' ') (by decide)) (by decide)

/-- The source of a picture says by which identifier it is bound. -/
lemma IsSourceOf.inj {source file file' : Text} (h : IsSourceOf source (handle file))
    (h' : IsSourceOf source (handle file')) : handle file = handle file' := by
  rcases h with rfl | rfl <;> rcases h' with h' | h' <;> have h' := braced_inj h'
  · exact h'
  · exact absurd h' (handle_ne_choice _ _)
  · exact absurd h'.symm (handle_ne_choice _ _)
  · have hlist := congrArg Text.toList h'
    simp only [toList_append] at hlist
    exact ext_toList (List.append_cancel_left hlist)

variable {files : FileMap} {component : Component} {e : Element} {tag : Tag} {file : Text}

lemma PictureContent.of_file {primary : Bool} {content : Content}
    (h : PictureContent files e primary content) (hfile : files.file? e.key = some file) :
    ∃ source description, content = .picture source description ∧ IsSourceOf source (handle file) := by
  cases h with
  | replaceable alt hown =>
    cases hown.symm.trans hfile
    exact ⟨_, _, rfl, .inr rfl⟩
  | supplied alt hown => cases hown.symm.trans hfile
  | shown alt hown =>
    cases hown.symm.trans hfile
    exact ⟨_, _, rfl, .inl rfl⟩
  | missing hown => cases hown.symm.trans hfile

lemma PictureContent.exists_file {primary : Bool} {source description : Text}
    (h : PictureContent files e primary (.picture source description)) :
    ∃ file, files.file? e.key = some file ∧ IsSourceOf source (handle file) := by
  cases h with
  | replaceable alt hfile => exact ⟨_, hfile, .inr rfl⟩
  | shown alt hfile => exact ⟨_, hfile, .inl rfl⟩

/-- The picture of an asset with a file is shown. -/
lemma shows_of_file (hasset : e.isAsset = true) (hfile : files.file? e.key = some file)
    (h : templateTag files component e = .ok tag) : tag.Shows (handle file) := by
  obtain ⟨cls, content⟩ := tag
  obtain ⟨-, hcontent⟩ := content_of_templateTag h
  cases hcontent with
  | picture _ hpicture => exact hpicture.of_file hfile
  | text hnot _ => exact absurd hasset hnot
  | box hnot _ => exact absurd hasset hnot

/-- A picture with a source is that of an asset, bound by the identifier of the asset's file. -/
lemma source_of_templateTag {source description : Text} (h : templateTag files component e = .ok tag)
    (hcontent : tag.content = .picture source description) : e.isAsset = true ∧
      ∃ file, files.file? e.key = some file ∧ IsSourceOf source (handle file) := by
  obtain ⟨-, hshown⟩ := content_of_templateTag h
  rw [hcontent] at hshown
  cases hshown with
  | picture hasset hpicture => exact ⟨hasset, hpicture.exists_file⟩

/-- What a tag shows by the identifier of a file is the picture of its element. -/
theorem file_of_shows (h : templateTag files component e = .ok tag) (hshows : tag.Shows (handle file)) :
    e.isAsset = true ∧ ∃ shown, files.file? e.key = some shown ∧ handle shown = handle file := by
  obtain ⟨source, description, hcontent, hsource⟩ := hshows
  obtain ⟨hasset, shown, hshown, hown⟩ := source_of_templateTag h hcontent
  exact ⟨hasset, shown, hshown, hown.inj hsource⟩

end Handoff.Render
