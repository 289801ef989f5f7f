import Handoff.Proofs.Component.Typed
import Handoff.Proofs.Files.Saving
import Handoff.Proofs.Render.Typed
import Handoff.Proofs.World.Messages
import Handoff.Sync

/-!
Writing the components of a design whose layers have typed fields.

What is written follows from the design alone: a list of texts, each with its path. The components
are written when the tree takes these texts one after the other.
-/

namespace Handoff

open Action Asset Config Design Files Naming

/-! ### Texts one after the other -/

namespace Files

namespace Workspace

end Workspace

/-- Writes texts one after the other. -/
def writeTexts (root : Option Path) : List (Path × Text) → Action Unit
  | [] => return ()
  | (path, text) :: rest => do
    let _ ← writeText root path text
    writeTexts root rest

end Files

/-! ### The texts of components -/

/-- The files of a component with their texts, in the order in which they are written. -/
def artifactTexts (settings : Settings) (artifacts : ArtifactSet) : List (Path × Text) :=
  let name := artifacts.componentName
  let dir := componentDir settings name
  [(dir.child (name ++ ".jsx"), artifacts.template),
    (dir.child (name ++ ".scss"), artifacts.stylesheet),
    (dir.child (name ++ ".stories.jsx"), artifacts.catalog)] ++
  artifacts.twig.toList.map fun twig => (settings.twigDir.child (name ++ ".html.twig"), twig)

lemma writeArtifacts_eq (settings : Settings) (artifacts : ArtifactSet) :
    writeArtifacts settings artifacts =
      writeTexts (some settings.rootDir) (artifactTexts settings artifacts) := by
  unfold writeArtifacts artifactTexts
  cases artifacts.twig <;> rfl

/-- The texts of components in order. -/
def componentTexts (settings : Settings) (here : Location) (files : FileMap) (withTwig : Bool)
    (names : ComponentNames) (roles : RoleMemo) :
    List LayerTree → Except Fault (List (Path × Text))
  | [] => .ok []
  | tree :: rest => do
    let (name, names) ← names.resolve .standard tree.label.name
    let (component, roles) ← annotate .standard roles tree name
    let artifacts ← buildArtifacts settings here files withTwig component
    return artifactTexts settings artifacts ++
      (← componentTexts settings here files withTwig names roles rest)

/-- What has to go well before anything of a component is written: it is named, annotated and rendered. -/
def prepare (settings : Settings) (here : Location) (files : FileMap) (withTwig : Bool)
    (names : ComponentNames) (roles : RoleMemo) (tree : LayerTree) :
    Except Fault (ComponentNames × RoleMemo × Component × ArtifactSet) := do
  let (name, names) ← names.resolve .standard tree.label.name
  let (component, roles) ← annotate .standard roles tree name
  let artifacts ← buildArtifacts settings here files withTwig component
  return (names, roles, component, artifacts)

/-- Writes what was prepared of a component. -/
def writeComponent (settings : Settings) (component : Component) (artifacts : ArtifactSet) :
    Action Unit := do
  Action.log .debug ("Naming tree:\n" ++ outline component)
  writeTexts (some settings.rootDir) (artifactTexts settings artifacts)
  Action.log .debug ("Generated component: " ++ component.name)

section

variable {settings : Settings} {here : Location} {files : FileMap} {withTwig : Bool}
  {names names' : ComponentNames} {roles roles' : RoleMemo} {tree : LayerTree}
  {component : Component} {artifacts : ArtifactSet}

lemma componentTexts_cons (rest : List LayerTree) :
    componentTexts settings here files withTwig names roles (tree :: rest) = (do
      let (names, roles, _, artifacts) ← prepare settings here files withTwig names roles tree
      return artifactTexts settings artifacts ++
        (← componentTexts settings here files withTwig names roles rest)) := by
  simp only [componentTexts, prepare, bind_assoc, pure_bind]

/-- A component that cannot be prepared ends the run before anything of it is written. -/
lemma exec_writeComponents_of_error {s : World} {fault : Fault}
    (h : prepare settings s.workspace.here files withTwig names roles tree = .error fault)
    (rest : List LayerTree) : ∃ t, Alike s t ∧
      (writeComponents settings files withTwig names roles (tree :: rest)).exec s = (.error fault, t) := by
  unfold prepare at h
  rw [writeComponents, exec_bind, exec_ofExcept]
  rcases hname : names.resolve .standard tree.label.name with fault' | ⟨name, names'⟩
  · rw [hname] at h
    cases h
    exact ⟨s, .refl s, rfl⟩
  rw [hname, ok_bind] at h
  simp only [exec_bind, exec_ofExcept] at h ⊢
  rcases hcomponent : annotate .standard roles tree name with fault' | ⟨component, roles'⟩
  · rw [hcomponent] at h
    cases h
    exact ⟨s, .refl s, rfl⟩
  rw [hcomponent, ok_bind] at h
  simp only [exec_log, exec_get] at h ⊢
  rcases hbuilt : buildArtifacts settings s.workspace.here files withTwig component with fault' | artifacts
  · rw [hbuilt] at h
    cases h
    exact ⟨_, ⟨_, rfl⟩, rfl⟩
  · rw [hbuilt] at h
    cases h

/-- A component that was prepared is written, and then the others. -/
lemma exec_writeComponents_of_ok {s : World}
    (h : prepare settings s.workspace.here files withTwig names roles tree =
      .ok (names', roles', component, artifacts)) (rest : List LayerTree) :
    (writeComponents settings files withTwig names roles (tree :: rest)).exec s =
      (do writeComponent settings component artifacts
          let others ← writeComponents settings files withTwig names' roles' rest
          return component.name :: others : Action (List Text)).exec s := by
  obtain ⟨⟨name, u⟩, hname, h⟩ := bind_eq_ok.1 h
  obtain ⟨⟨c, v⟩, hcomponent, h⟩ := bind_eq_ok.1 h
  obtain ⟨built, hbuilt, h⟩ := bind_eq_ok.1 h
  cases h
  have hgiven : component.name = name := by
    obtain ⟨-, -, -, -, -, -, -, -, -, -, -, hgiven, -⟩ := annotate_eq_ok hcomponent
    exact hgiven
  rw [writeComponent, writeComponents, exec_bind, exec_ofExcept, hname]
  simp only [bind_assoc, exec_bind, exec_ofExcept, hcomponent, exec_log, exec_get, hbuilt,
    writeArtifacts_eq, hgiven]

end

variable {settings : Settings} {here : Location} {files : FileMap} {withTwig : Bool}

/-- What a run does with the components that it has found: it writes the partial and then each of them. -/
def writeSeries (settings : Settings) (files : FileMap) (withTwig : Bool) (trees : List LayerTree) :
    Action (List Text) := do
  let here := (← get).workspace.here
  let _ ← writeText (some settings.rootDir) (settings.componentsDir.child "_variables.scss")
    (Token.variablesSheet (tokensImport settings here))
  writeComponents settings files withTwig (.initial .standard) [] trees

/-- A run that has found components writes them, after some messages. -/
lemma exec_syncComponents_of_found {root : LayerTree} {trees : List LayerTree} (settings : Settings) (files : FileMap) (withTwig : Bool)
    (hfound : findComponents root = .ok trees) (hne : trees ≠ []) (s : World) : ∃ s', Alike s s' ∧
      (syncComponents settings root files withTwig).exec s =
        (writeSeries settings files withTwig trees).exec s' := by
  have hempty : ¬ trees.isEmpty = true := fun h => hne (List.isEmpty_iff.1 h)
  refine ⟨_, (alike_log .info "ℹ Finding components..." s).trans
    (alike_log .info ("ℹ Found " ++ toString trees.length ++ " components") _), ?_⟩
  rw [syncComponents, exec_bind_of_ok (exec_log ..), exec_bind, exec_ofExcept, hfound]
  simp only [if_neg hempty]
  rw [exec_bind_of_ok (exec_log ..)]
  rfl

end Handoff
