import Handoff.Proofs.Component.Storing
import Handoff.Proofs.World.InStep

/-!
Components in step.

The paths of the components of a design are decided by the design and the settings. Two runs that are
in step and write the components with the same pictures write the same texts there.
-/

namespace Handoff

open Action Asset Config Design Files Naming Text Workspace

variable {settings : Settings} {here : Location} {files : FileMap} {withTwig : Bool}
  {root : LayerTree} {artifacts : List ArtifactSet} {w w' : Workspace}

/-! ### The paths of a design -/

/-- The paths of the files of a component. -/
def componentPaths (settings : Settings) (withTwig : Bool) (name : Text) : List Path :=
  let dir := componentDir settings name
  [dir.child (name ++ ".jsx"), dir.child (name ++ ".scss"), dir.child (name ++ ".stories.jsx")] ++
    if withTwig then [settings.twigDir.child (name ++ ".html.twig")] else []

/-- The paths of the components of a design and of the partial that they share. -/
def designPaths (settings : Settings) (withTwig : Bool) (root : LayerTree) :
    Except Fault (List Path) := do
  let trees ← findComponents root
  let components ← annotateAll (.initial .standard) [] trees
  return if components.isEmpty then []
    else settings.componentsDir.child "_variables.scss" ::
      components.flatMap fun component => componentPaths settings withTwig component.name

lemma paths_of_buildArtifacts {component : Component} {built : ArtifactSet}
    (h : buildArtifacts settings here files withTwig component = .ok built) :
    (artifactTexts settings built).map Prod.fst =
      componentPaths settings withTwig component.name := by
  obtain ⟨template, -, h⟩ := bind_eq_ok.1 h
  obtain ⟨sheet, -, h⟩ := bind_eq_ok.1 h
  obtain ⟨catalog, -, h⟩ := bind_eq_ok.1 h
  cases withTwig with
  | false =>
    cases h
    rfl
  | true =>
    obtain ⟨twig, htwig, h⟩ := bind_eq_ok.1 h
    cases h
    rcases hrender : Render.twig files twigAssetsPath component with fault | text
    · rw [hrender] at htwig
      cases htwig
    · rw [hrender] at htwig
      cases htwig
      rfl

/-- What is rendered for a design is written to its paths. -/
theorem Renders.paths {trees : List LayerTree} {components : List Component}
    (h : Renders settings here files withTwig root trees components artifacts) :
    designPaths settings withTwig root =
      .ok ((designFiles settings here artifacts).map Prod.fst) := by
  have hpaths : (artifacts.flatMap (artifactTexts settings)).map Prod.fst =
      components.flatMap fun component => componentPaths settings withTwig component.name := by
    have hall := forall₂_of_mapM h.rendered
    clear h
    induction hall with
    | nil => rfl
    | cons hfirst _ ih =>
      rw [List.flatMap_cons, List.flatMap_cons, List.map_append, ih, paths_of_buildArtifacts hfirst]
  have hempty : artifacts.isEmpty = components.isEmpty := by
    rw [Bool.eq_iff_iff, List.isEmpty_iff_length_eq_zero, List.isEmpty_iff_length_eq_zero,
      length_of_buildAll h.rendered]
  rw [designPaths, h.found, ok_bind, h.annotated, ok_bind, designFiles, hempty, ← hpaths]
  split <;> rfl

/-! ### Texts one after the other -/

/-- Writing texts that ends has saved them. -/
lemma spread_of_exec_writeTexts {texts : List (Path × Text)} {s t : World} {top : Option Path}
    (paths : Path → Prop) (hs : s.workspace.Sound)
    (hp : ∀ e ∈ texts, paths e.1 ∧ ∃ n, e.1.EndsIn n)
    (h : (writeTexts top texts).exec s = (.ok (), t)) :
    t.visited.Perm (s.visited ++ texts.map Prod.fst) ∧
      Spread paths (texts.map Prod.fst) s.workspace t.workspace := by
  induction texts generalizing s with
  | nil =>
    cases h
    exact ⟨List.Perm.of_eq (List.append_nil _).symm, .refl paths hs⟩
  | cons first rest ih =>
    obtain ⟨⟨hpath, n, hn⟩, hrest⟩ := List.forall_mem_cons.1 hp
    obtain ⟨written, u, hwrite, h⟩ := exec_bind_eq_ok.1 h
    obtain ⟨hvisited, hspread⟩ := spread_of_exec_writeText paths hs hpath hn hwrite
    obtain ⟨hvisited', hspread'⟩ := ih hspread.sound hrest h
    refine ⟨hvisited'.trans ((hvisited.append_right _).trans ?_), hspread.trans hspread'⟩
    rw [List.append_assoc]
    rfl

lemma keepsStep_writeTexts (root : Option Path) {texts : List (Path × Text)}
    (h : ∀ e ∈ texts, ∃ n, e.1.EndsIn n) : KeepsStep w w' (writeTexts root texts) := by
  induction texts with
  | nil => exact .of_steady (.pure ())
  | cons first rest ih =>
    obtain ⟨⟨n, hn⟩, hrest⟩ := List.forall_mem_cons.1 h
    exact KeepsStep.writeText_bind hn (ih hrest)

/-! ### The components of a design -/

lemma keepsStep_writeComponents (settings : Settings) (files : FileMap) (withTwig : Bool)
    (names : ComponentNames) (roles : RoleMemo) (trees : List LayerTree) :
    KeepsStep w w' (writeComponents settings files withTwig names roles trees) := by
  induction trees generalizing names roles with
  | nil => exact .of_steady (.pure [])
  | cons tree rest ih =>
    refine KeepsStep.bind_of_yields (.of_steady (.ofExcept _)) fun ⟨name, names'⟩ hname => ?_
    obtain ⟨hword, hne, -, -⟩ := ComponentNames.resolve_eq_ok (eq_ok_of_yields hname)
    refine KeepsStep.bind_of_yields (.of_steady (.ofExcept _)) fun ⟨component, roles'⟩ hc => ?_
    refine KeepsStep.after_steady (.log ..) fun _ => ?_
    refine KeepsStep.of_get (fun s t h => by simp only [h]) fun world => ?_
    refine KeepsStep.bind_of_yields (.of_steady (.ofExcept _)) fun built hbuilt => ?_
    have hgiven : built.componentName = name :=
      (name_of_buildArtifacts (eq_ok_of_yields hbuilt)).trans
        (name_of_annotate (eq_ok_of_yields hc)).1
    rw [writeArtifacts_eq]
    refine KeepsStep.bind (keepsStep_writeTexts _ fun e he => ?_) fun _ => ?_
    · obtain ⟨dir, ext, hext, hpath⟩ := isArtifact_of_mem settings he
      rw [hpath, hgiven]
      exact ⟨_, (isFileName_artifact hword hne hext).endsIn dir⟩
    · exact KeepsStep.after_steady (.log ..) fun _ => (ih names' roles').bind fun others =>
        .of_steady (.pure _)

theorem keepsStep_syncComponents (settings : Settings) (root : LayerTree) (files : FileMap)
    (withTwig : Bool) : KeepsStep w w' (syncComponents settings root files withTwig) := by
  refine KeepsStep.after_steady (.log ..) fun _ => ?_
  refine KeepsStep.after_steady (.ofExcept _) fun components => ?_
  refine .ite (.of_steady ((Steady.log ..).bind fun _ => .pure [])) ?_
  refine KeepsStep.after_steady (.log ..) fun _ => ?_
  refine KeepsStep.of_get (fun s t h => by simp only [h]) fun world => ?_
  exact KeepsStep.writeText_bind (isFileName_variables.endsIn _)
    (keepsStep_writeComponents settings files withTwig _ _ components)

end Handoff
