import Handoff.Proofs.Asset.Footprint
import Handoff.Proofs.Component.InStep

/-!
Runs that stop at a component.

A component is named, annotated and rendered before the first of its files is written. So a component that
cannot be prepared leaves the files as the components before it have left them, and what those wrote does
not depend on it or on any later one.
-/

namespace Handoff

open Action Asset Config Design Files Naming Text Workspace

variable {settings : Settings} {files : FileMap} {withTwig : Bool} {root tree : LayerTree}
  {before after trees : List LayerTree} {names : ComponentNames} {roles : RoleMemo} {fault : Fault}
  {given : List Text} {s t u : World}

/-! ### Messages before components -/

lemma blind_writeComponents (settings : Settings) (files : FileMap) (withTwig : Bool)
    (names : ComponentNames) (roles : RoleMemo) (trees : List LayerTree) :
    Blind (writeComponents settings files withTwig names roles trees) := by
  induction trees generalizing names roles with
  | nil => exact .of_steady (.pure [])
  | cons tree rest ih =>
    refine (Blind.of_steady (.ofExcept _)).bind fun ⟨name, names'⟩ => ?_
    refine (Blind.of_steady (.ofExcept _)).bind fun ⟨component, roles'⟩ => ?_
    refine (Blind.of_steady (.log ..)).bind fun _ => Blind.of_get (fun h => by simp only [h]) fun world => ?_
    refine (Blind.of_steady (.ofExcept _)).bind fun artifacts => ?_
    rw [writeArtifacts_eq]
    exact (blind_writeTexts _ _).bind fun _ => (Blind.of_steady (.log ..)).bind fun _ =>
      (ih names' roles').bind fun others => .of_steady (.pure _)

lemma blind_writeSeries (settings : Settings) (files : FileMap) (withTwig : Bool)
    (trees : List LayerTree) : Blind (writeSeries settings files withTwig trees) :=
  Blind.of_get (fun h => by simp only [h]) fun world =>
    ((Blind.of_steady (.ofExcept _)).bind fun content => .writeFile _ _ content).bind fun _ =>
      blind_writeComponents settings files withTwig _ _ trees

/-! ### The component at which a run stops -/

/-- The first component that cannot be prepared ends the run, and what was written is what the components
before it write. -/
theorem exec_writeComponents_stops
    (hbefore : (writeComponents settings files withTwig names roles before).exec s = (.ok given, u))
    (hfails : componentTexts settings s.workspace.here files withTwig names roles (before ++ [tree]) =
      .error fault) (after : List LayerTree) :
    ∃ t, Alike u t ∧ (writeComponents settings files withTwig names roles
      (before ++ tree :: after)).exec s = (.error fault, t) := by
  induction before generalizing names roles given s with
  | nil =>
    obtain ⟨-, rfl⟩ := Prod.mk.inj hbefore
    rw [List.nil_append] at hfails ⊢
    rw [componentTexts_cons] at hfails
    obtain hprepare | ⟨prepared, -, hnone⟩ := bind_eq_error.1 hfails
    · exact exec_writeComponents_of_error hprepare after
    · cases hnone
  | cons first rest ih =>
    rw [List.cons_append] at hfails ⊢
    rw [componentTexts_cons] at hfails
    obtain hprepare | ⟨⟨names', roles', component, artifacts⟩, hprepare, hfails⟩ := bind_eq_error.1 hfails
    · obtain ⟨t, -, herror⟩ := exec_writeComponents_of_error hprepare rest
      cases herror.symm.trans hbefore
    obtain hlater | ⟨texts, -, hnone⟩ := bind_eq_error.1 hfails
    · rw [exec_writeComponents_of_ok hprepare] at hbefore ⊢
      obtain ⟨⟨⟩, v, hwrite, hrest⟩ := exec_bind_eq_ok.1 hbefore
      obtain ⟨others, v', hothers, hend⟩ := exec_bind_eq_ok.1 hrest
      obtain ⟨-, rfl⟩ := Prod.mk.inj hend
      -- The file tree has grown, but paths are still seen from the same directory.
      have hhere : v.workspace.here = s.workspace.here := by
        obtain ⟨v₁, hwrites, halike⟩ := exists_of_writeComponent hwrite
        rw [halike.workspace, here_writeTexts hwrites]
      rw [← hhere] at hlater
      obtain ⟨t, halike, hstops⟩ := ih hothers hlater
      exact ⟨t, halike, by rw [exec_bind_of_ok hwrite, exec_bind_of_error hstops]⟩
    · cases hnone

/-- A run stops at the first component that cannot be prepared, and leaves what the components before it
leave. -/
lemma exec_syncComponents_stops (hfound : findComponents root = .ok (before ++ tree :: after))
    (hbefore : (writeSeries settings files withTwig before).exec s = (.ok given, u))
    (hfails : componentTexts settings s.workspace.here files withTwig (.initial .standard) []
      (before ++ [tree]) = .error fault) :
    ∃ t, Alike u t ∧ (syncComponents settings root files withTwig).exec s = (.error fault, t) := by
  obtain ⟨s', hs', hrun⟩ := exec_syncComponents_of_found settings files withTwig hfound
    (by simp) s
  obtain ⟨u', hbefore', hu'⟩ := exec_of_alike (blind_writeSeries ..) hs' hbefore
  obtain ⟨world, v, hget, hwrite⟩ := exec_bind_eq_ok.1 hbefore'
  cases hget
  obtain ⟨written, v, hpartial, hseries⟩ := exec_bind_eq_ok.1 hwrite
  have hthere : v.workspace.here = s.workspace.here := by
    rw [here_writeText hpartial, hs'.workspace]
  rw [← hthere] at hfails
  obtain ⟨t, ht, hstops⟩ := exec_writeComponents_stops hseries hfails after
  refine ⟨t, hu'.trans ht, hrun.trans ?_⟩
  rw [writeSeries, exec_bind_of_ok (exec_get s'), exec_bind_of_ok hpartial]
  exact hstops

/-! ### What the run leaves -/

/-- The partial and all files of the components are stored with the texts rendered for them, and every other
file is as it was. -/
structure LeavesSeries (settings : Settings) (files : FileMap) (withTwig : Bool) (trees : List LayerTree)
    (components : List Component) (artifacts : List ArtifactSet) (s t : World) : Prop where
  annotated : annotateAll (.initial .standard) [] trees = .ok components
  rendered : components.mapM (buildArtifacts settings s.workspace.here files withTwig) = .ok artifacts
  stores : StoresAll (seriesFiles settings s.workspace.here artifacts) s t
  others : ∀ l content,
    (∀ e ∈ seriesFiles settings s.workspace.here artifacts, e.1.locate s.workspace.here ≠ l) →
      (t.workspace.entry? l = some (.file content) ↔ s.workspace.entry? l = some (.file content))

lemma LeavesSeries.congr {components : List Component} {artifacts : List ArtifactSet}
    (h : LeavesSeries settings files withTwig trees components artifacts s t) (ht : Alike t u) :
    LeavesSeries settings files withTwig trees components artifacts s u where
  annotated := h.annotated
  rendered := h.rendered
  stores := h.stores.congr (.refl s) ht
  others := by
    rw [ht.workspace]
    exact h.others

lemma leavesSeries_of_writeSeries (hs : s.workspace.Sound)
    (h : (writeSeries settings files withTwig trees).exec s = (.ok given, t)) :
    ∃ components artifacts, LeavesSeries settings files withTwig trees components artifacts s t := by
  obtain ⟨components, artifacts, hall, hbuilt, -, v, hwrites, hv⟩ := exists_of_writeSeries h
  have hnamed := namedApart_of_buildAll hall hbuilt
  have hends := hnamed.endsIn_seriesFiles settings s.workspace.here
  obtain ⟨-, hvisited, hstored⟩ := stored_of_writeTexts hs hends
    (hnamed.pairwise_seriesFiles settings s.workspace.here) hwrites
  obtain ⟨-, hspread⟩ := spread_of_exec_writeTexts (fun _ => True) hs
    (fun e he => ⟨trivial, hends e he⟩) hwrites
  have hleaves : LeavesSeries settings files withTwig trees components artifacts s v := by
    refine ⟨hall, hbuilt, ⟨hvisited, hstored⟩, fun l content hl => hspread.file l content fun p hp => ?_⟩
    obtain ⟨e, he, rfl⟩ := List.mem_map.1 hp
    exact hl e he
  exact ⟨components, artifacts, hleaves.congr hv⟩

/-- The files of the components of a series are unlike those of the components that would be named after
them. -/
lemma LeavesSeries.unlike {components : List Component} {artifacts : List ArtifactSet}
    (h : LeavesSeries settings files withTwig before components artifacts s t) {later : List LayerTree}
    {all : List Text} (hnames : nameAll (.initial .standard) (before ++ later) = .ok all) {name : Text}
    (hname : name ∈ all.drop before.length) {path : Path} (hpath : IsArtifact name path) :
    ∀ e ∈ seriesFiles settings s.workspace.here artifacts, e.1.Unlike path := by
  have hfirst := nameAll_of_annotateAll h.annotated
  obtain ⟨hfresh, hapart⟩ := fresh_of_nameAll hnames
  have hlater := hfresh name (List.mem_of_mem_drop hname)
  rw [nameAll_append_eq_ok hfirst hnames, ← names_of_buildAll h.rendered,
    List.pairwise_append] at hapart
  have hwords := namedApart_of_buildAll h.annotated h.rendered
  refine List.forall_mem_cons.2 ⟨?_, fun e he => ?_⟩
  · exact hpath.unlike_of_underscore hlater.word hlater.ne_empty isFileName_variables isAscii_scss
      (by rw [lower_variables]; decide) _
  · obtain ⟨a, ha, he⟩ := List.mem_flatMap.1 he
    obtain ⟨dir, ext, hext, he⟩ := isArtifact_of_mem settings he
    obtain ⟨dir', ext', hext', rfl⟩ := hpath
    rw [he]
    exact filePath_unlike (hwords.word a ha).1 (hwords.word a ha).2 hlater.word hlater.ne_empty hext hext'
      (Or.inl (hapart.2.2 _ (List.mem_map_of_mem ha) _ hname)) dir dir'

/-- A run over a design stops at the first component that cannot be named, annotated or rendered, with the
fault of that. Its files are then those that a run over the components before that one leaves: the partial
and all of theirs, each with the text rendered for it, while every other file is as it was. In particular no
file of the component or of a later one was made or changed, whatever names they would have got. -/
theorem syncComponents_stops (hs : s.workspace.Sound)
    (hfound : findComponents root = .ok (before ++ tree :: after))
    (hbefore : (writeSeries settings files withTwig before).exec s = (.ok given, u))
    (hfails : componentTexts settings s.workspace.here files withTwig (.initial .standard) []
      (before ++ [tree]) = .error fault) :
    ∃ t components artifacts,
      (syncComponents settings root files withTwig).exec s = (.error fault, t) ∧ Alike u t ∧
      (∀ other, findComponents other = .ok before → before ≠ [] →
        ∃ v, (syncComponents settings other files withTwig).exec s = (.ok given, v) ∧ Alike v t) ∧
      LeavesSeries settings files withTwig before components artifacts s t ∧
      ∀ later all, nameAll (.initial .standard) (before ++ later) = .ok all →
        ∀ name ∈ all.drop before.length, ∀ path, IsArtifact name path → ∀ content,
          (t.workspace.entry? (path.locate s.workspace.here) = some (.file content) ↔
            s.workspace.entry? (path.locate s.workspace.here) = some (.file content)) := by
  obtain ⟨t, halike, hstops⟩ := exec_syncComponents_stops hfound hbefore hfails
  obtain ⟨components, artifacts, hleaves⟩ := leavesSeries_of_writeSeries hs hbefore
  refine ⟨t, components, artifacts, hstops, halike, ?_, hleaves.congr halike, ?_⟩
  · intro other hother hne
    obtain ⟨s', hs', hrun⟩ := exec_syncComponents_of_found settings files withTwig hother
      hne s
    obtain ⟨v, hv, huv⟩ := exec_of_alike (blind_writeSeries ..) hs' hbefore
    exact ⟨v, hrun.trans hv, huv.symm.trans halike⟩
  · intro later all hnames name hname path hpath content
    refine (hleaves.congr halike).others _ content fun e he hsame => ?_
    exact (hleaves.unlike hnames hname hpath e he).folded_ne s.workspace.here
      (congrArg Location.folded hsame)

/-- A component without anything in it. -/
def noteTree (id : Text) : LayerTree := .node (plainLayer id "Note" "COMPONENT") []

/-- A component without an end in width. -/
def endlessTree : LayerTree :=
  .node { plainLayer "1:2" "Endless" "COMPONENT" with width := .double (.infinite false) } []

/-- A design with the endless component between two others of one name. -/
def endlessPage : LayerTree :=
  .node (plainLayer "0:0" "Page" "DOCUMENT") [noteTree "1:1", endlessTree, noteTree "1:3"]

/-- The first component is written, and of the endless one and of the second of its name nothing is. -/
theorem syncComponents_stops_endless : ∃ t components artifacts,
    (syncComponents plainSettings endlessPage [] false).exec (.start empty) =
      (.error .infinityToInteger, t) ∧
    LeavesSeries plainSettings [] false [noteTree "1:1"] components artifacts (.start empty) t ∧
    ∀ path, IsArtifact "Endless" path ∨ IsArtifact "Note2" path → ∀ content,
      t.workspace.entry? (path.locate empty.here) ≠ some (.file content) := by
  have hgiven : ((writeSeries plainSettings [] false [noteTree "1:1"]).exec (.start empty)).1.toOption =
      some (["Note"] : List Text) := by decide +kernel
  rcases hbefore : (writeSeries plainSettings [] false [noteTree "1:1"]).exec (.start empty) with
    ⟨result, u⟩
  rw [hbefore] at hgiven
  obtain rfl := eq_ok_of_toOption hgiven
  have hfound : findComponents endlessPage =
      .ok ([noteTree "1:1"] ++ endlessTree :: [noteTree "1:3"]) := rfl
  have hfails : componentTexts plainSettings empty.here [] false (.initial .standard) []
      ([noteTree "1:1"] ++ [endlessTree]) = .error .infinityToInteger := by decide +kernel
  obtain ⟨t, components, artifacts, hstops, -, -, hleaves, hlater⟩ :=
    syncComponents_stops sound_empty hfound hbefore hfails
  have hnames : nameAll (.initial .standard) ([noteTree "1:1"] ++ [endlessTree, noteTree "1:3"]) =
      .ok (["Note", "Endless", "Note2"] : List Text) := by decide +kernel
  refine ⟨t, components, artifacts, hstops, hleaves, fun path hpath content hfile => ?_⟩
  have hname : ∃ name ∈ (["Endless", "Note2"] : List Text), IsArtifact name path := by
    rcases hpath with h | h
    · exact ⟨_, by decide, h⟩
    · exact ⟨_, by decide, h⟩
  obtain ⟨name, hname, hpath⟩ := hname
  exact not_file_empty _ content ((hlater _ _ hnames name hname path hpath content).1 hfile)

end Handoff
