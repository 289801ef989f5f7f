import Handoff.Proofs.Component.Annotating
import Handoff.Proofs.Files.Names
import Handoff.Proofs.Naming.Fresh
import Handoff.Proofs.World.Replaying
import Handoff.Sync

/-!
The files that components touch: each component those whose stem is its name.

Component names are distinct words, so no component touches the files of another one.
-/

namespace Handoff

open Action Asset Config Design Files Naming Text

/-! ### One component -/

/-- What is built for a component is what its renderers give. -/
lemma rendered_of_buildArtifacts {settings : Settings} {here : Location} {files : FileMap}
    {withTwig : Bool} {component : Component} {artifacts : ArtifactSet}
    (h : buildArtifacts settings here files withTwig component = .ok artifacts) :
    artifacts.componentName = component.name ∧
      Render.template files component (assetsImport settings here component.name) =
        .ok artifacts.template ∧
      Render.stylesheet files component = .ok artifacts.stylesheet ∧
      ∀ twig ∈ artifacts.twig, Render.twig files twigAssetsPath component = .ok twig := by
  obtain ⟨template, htemplate, h⟩ := bind_eq_ok.1 h
  obtain ⟨sheet, hsheet, h⟩ := bind_eq_ok.1 h
  obtain ⟨catalog, -, h⟩ := bind_eq_ok.1 h
  simp only at h
  split at h
  · obtain ⟨twig, htwig, h⟩ := bind_eq_ok.1 h
    cases h
    refine ⟨rfl, htemplate, hsheet, ?_⟩
    rintro text ⟨⟩
    cases hrender : Render.twig files twigAssetsPath component with
    | error fault =>
      rw [hrender] at htwig
      cases htwig
    | ok text =>
      rw [hrender] at htwig
      cases htwig
      rfl
  · cases h
    exact ⟨rfl, htemplate, hsheet, nofun⟩

lemma name_of_buildArtifacts {settings : Settings} {here : Location} {files : FileMap}
    {withTwig : Bool} {component : Component} {artifacts : ArtifactSet}
    (h : buildArtifacts settings here files withTwig component = .ok artifacts) :
    artifacts.componentName = component.name := (rendered_of_buildArtifacts h).1

/-- Writing a text into a directory, under a stem and an extension, and going on with files of the same
stem and other extensions. -/
lemma hasFootprint_artifact {α : Type} {stem : Text} (hw : Over isWordChar stem) (hne : stem ≠ "")
    (root : Option Path) (dir : Path) (dotted : Text) (ext : Text) (text : Text)
    (hdot : dotted = "." ++ ext) (hext : ∀ c ∈ ext.toList, c ≠ '/') {others : Text → Prop}
    {next : Action α} (hnext : HasFootprint (fun n => ∃ e, others e ∧ IsFileName n stem e) next)
    (hd : ¬ others ext) :
    HasFootprint (fun n => ∃ e, (e = ext ∨ others e) ∧ IsFileName n stem e)
      (writeText root (dir.child (stem ++ dotted)) text >>= fun _ => next) := by
  have hname : IsFileName (stem ++ dotted) stem ext :=
    ⟨by rw [hdot], hw.mono fun _ => isFileChar_of_word, hne, hext⟩
  rw [hname.child_eq]
  refine ((HasFootprint.writeText root text hname.ne_dots).bind_dropped hnext ?_).mono ?_
  · rintro n rfl ⟨e, he, hn⟩
    rw [(hname.inj hn).2] at hd
    exact hd he
  · rintro n (rfl | ⟨e, he, hn⟩)
    · exact ⟨ext, Or.inl rfl, hname⟩
    · exact ⟨e, Or.inr he, hn⟩

lemma hasFootprint_writeArtifacts (settings : Settings) (artifacts : ArtifactSet)
    (hw : Over isWordChar artifacts.componentName) (hne : artifacts.componentName ≠ "") :
    HasFootprint (fun n => ∃ ext, IsFileName n artifacts.componentName ext)
      (writeArtifacts settings artifacts) := by
  have hempty : HasFootprint (fun n => ∃ e, False ∧ IsFileName n artifacts.componentName e)
      (pure () : Action Unit) := .of_steady (.pure ()) _
  have hall : HasFootprint (fun n => ∃ e : Text, (e = "jsx" ∨ e = "scss" ∨ e = "stories.jsx" ∨
      e = "html.twig") ∧ IsFileName n artifacts.componentName e) (writeArtifacts settings artifacts) := by
    refine hasFootprint_artifact hw hne _ _ ".jsx" "jsx" _ (by decide) (by decide) ?_ (by decide)
    refine hasFootprint_artifact hw hne _ _ ".scss" "scss" _ (by decide) (by decide) ?_ (by decide)
    refine hasFootprint_artifact hw hne _ _ ".stories.jsx" "stories.jsx" _ (by decide) (by decide) ?_
      (by decide)
    cases artifacts.twig with
    | none => exact .of_steady (.pure ()) _
    | some twig =>
      refine (hasFootprint_artifact hw hne _ _ ".html.twig" "html.twig" twig (by decide) (by decide)
        hempty id).mono ?_
      rintro n ⟨e, he | he, hn⟩
      · exact ⟨e, he, hn⟩
      · exact he.elim
  refine hall.mono ?_
  rintro n ⟨e, -, hn⟩
  exact ⟨e, hn⟩

/-! ### All components -/

/-- The files whose stem is a component name that is free. -/
def FreeFile (names : ComponentNames) (file : Text) : Prop :=
  ∃ name ext, Over isWordChar name ∧ names.taken name = false ∧ IsFileName file name ext

lemma taken_insert {names names' : ComponentNames} {name other : Text}
    (h : names'.used = names.used.insert (lower name)) :
    names'.taken other = false ↔ lower other ≠ lower name ∧ names.taken other = false := by
  simp only [ComponentNames.taken, h, Std.TreeSet.contains_insert, Bool.or_eq_false_iff,
    beq_eq_false_iff_ne, ne_eq]
  refine and_congr_left fun _ => not_congr ⟨fun he => ?_, fun he => ?_⟩
  · exact (Std.LawfulEqOrd.eq_of_compare he).symm
  · rw [he]
    exact Std.ReflOrd.compare_self

theorem hasFootprint_writeComponents (settings : Settings) (files : FileMap) (withTwig : Bool)
    (names : ComponentNames) (roles : RoleMemo) (trees : List LayerTree) :
    HasFootprint (FreeFile names) (writeComponents settings files withTwig names roles trees) := by
  induction trees generalizing names roles with
  | nil => exact .of_steady (.pure []) _
  | cons tree rest ih =>
    refine HasFootprint.after_steady_of_yields (.ofExcept _) fun ⟨name, names'⟩ hname => ?_
    obtain ⟨hword, hne, hfree, hused⟩ := ComponentNames.resolve_eq_ok (eq_ok_of_yields hname)
    refine HasFootprint.after_steady_of_yields (.ofExcept _) fun ⟨component, roles'⟩ hc => ?_
    obtain ⟨-, -, -, -, -, -, -, -, -, -, -, hcomponent, -, -⟩ := annotate_eq_ok (eq_ok_of_yields hc)
    refine HasFootprint.after_steady (.log ..) fun _ => ?_
    refine HasFootprint.of_get (fun s t h => by simp only [h]) fun world => ?_
    refine HasFootprint.after_steady_of_yields (.ofExcept _) fun artifacts ha => ?_
    have hname : artifacts.componentName = name :=
      (name_of_buildArtifacts (eq_ok_of_yields ha)).trans hcomponent
    have hwrite := hasFootprint_writeArtifacts settings artifacts (by rwa [hname]) (by rwa [hname])
    rw [hname] at hwrite
    refine (hwrite.bind (fun _ => HasFootprint.after_steady (.log ..) fun _ =>
      (ih names' roles').then_steady fun others => .pure (name :: others)) ?_).mono ?_
    · rintro n ⟨e, hn⟩ ⟨name', e', -, hfree', hn'⟩
      rw [(hn.inj hn').1] at hused
      exact ((taken_insert hused).1 hfree').1 rfl
    · rintro n (⟨e, hn⟩ | ⟨name', e, hword', hfree', hn⟩)
      · exact ⟨name, e, hword, hfree, hn⟩
      · exact ⟨name', e, hword', ((taken_insert hused).1 hfree').2, hn⟩

/-- The file names of components and of the partial that they share. -/
def ComponentFile (file : Text) : Prop :=
  file = "_variables.scss" ∨ ∃ name ext, Over isWordChar name ∧ IsFileName file name ext

lemma isFileName_variables : IsFileName "_variables.scss" "_variables" "scss" :=
  ⟨by decide, over_ofString (by decide), by decide, by decide⟩

theorem hasFootprint_syncComponents (settings : Settings) (root : LayerTree) (files : FileMap)
    (withTwig : Bool) :
    HasFootprint ComponentFile (syncComponents settings root files withTwig) := by
  refine HasFootprint.after_steady (.log ..) fun _ => ?_
  refine HasFootprint.after_steady (.ofExcept _) fun components => ?_
  refine .ite (.of_steady ((Steady.log ..).bind fun _ => .pure []) _) ?_
  refine HasFootprint.after_steady (.log ..) fun _ => ?_
  refine HasFootprint.of_get (fun s t h => by simp only [h]) fun world => ?_
  rw [isFileName_variables.child_eq]
  refine ((HasFootprint.writeText _ _ isFileName_variables.ne_dots).bind_dropped
    (hasFootprint_writeComponents settings files withTwig _ _ components) ?_).mono ?_
  · rintro n rfl ⟨name, ext, hword, -, hn⟩
    rw [← (isFileName_variables.inj hn).1] at hword
    exact absurd (hword (.char '_') (by decide)) (by decide)
  · rintro n (rfl | ⟨name, ext, hword, -, hn⟩)
    · exact Or.inl rfl
    · exact Or.inr ⟨name, ext, hword, hn⟩

end Handoff
