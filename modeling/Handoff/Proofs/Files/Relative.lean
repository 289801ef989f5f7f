import Handoff.Proofs.Files.Names
import Handoff.Proofs.Files.Saving
import Mathlib.Data.List.Induction

/-!
Relative paths: the path from one directory to another leads there, also when it is written out and
read again.

Locations have no dots in them, whatever the paths have from which they are computed. So behind the
common front of two locations a relative path goes up only at its beginning.
-/

namespace Handoff.Files

open Text

/-! ### Paths as they are read -/

/-- A part as it is read: neither empty nor a dot, and without slashes. -/
structure IsPart (part : Text) : Prop where
  proper : Path.isProper part = true
  slashless : ∀ c ∈ part.toList, c ≠ '/'

lemma IsFileName.isPart {name stem ext : Text} (h : IsFileName name stem ext) : IsPart name :=
  ⟨h.proper, h.ne_slash⟩

/-- A path that can be read. -/
def Path.IsRead (path : Path) : Prop := ∀ part ∈ path.parts, IsPart part

/-- A place that has a name at each step. -/
def IsPlace (location : Location) : Prop := ∀ part ∈ location, IsPart part ∧ part ≠ ".."

lemma slashless_of_mem_splitSlashes {part l : List CodePoint} (hpart : ∀ c ∈ part, c ≠ '/') :
    ∀ text ∈ Path.splitSlashes part l, ∀ c ∈ text.toList, c ≠ '/' := by
  induction l generalizing part with
  | nil =>
    intro text htext c hc
    cases List.mem_singleton.1 htext
    exact hpart c (List.mem_reverse.1 hc)
  | cons d rest ih =>
    unfold Path.splitSlashes
    split
    · refine List.forall_mem_cons.2 ⟨fun c hc => hpart c (List.mem_reverse.1 hc), ih (by simp)⟩
    · rename_i hd
      exact ih (List.forall_mem_cons.2 ⟨hd, hpart⟩)

/-- What is read is a path that can be read. -/
lemma isRead_parse (text : Text) : (Path.parse text).IsRead := by
  intro part hpart
  obtain ⟨hmem, hproper⟩ := List.mem_filter.1 hpart
  exact ⟨hproper, slashless_of_mem_splitSlashes (by simp) part hmem⟩

namespace Path.IsRead

variable {path below : Path}

lemma join (h : path.IsRead) (h' : below.IsRead) : (path.join below).IsRead := by
  unfold Path.join
  split
  · exact List.forall_mem_append.2 ⟨h, h'⟩
  · exact h'

lemma child (h : path.IsRead) (text : Text) : (path.child text).IsRead := h.join (isRead_parse text)

end Path.IsRead

/-! ### Reading what was written -/

lemma splitSlashes_append {part l rest : List CodePoint} (h : ∀ c ∈ l, c ≠ '/') :
    Path.splitSlashes part (l ++ .char '/' :: rest) =
      Text.ofList (part.reverse ++ l) :: Path.splitSlashes [] rest := by
  induction l generalizing part with
  | nil => simp [Path.splitSlashes]
  | cons c l ih =>
    rw [List.cons_append, Path.splitSlashes, if_neg (h c List.mem_cons_self),
      ih fun d hd => h d (List.mem_cons_of_mem _ hd)]
    simp

/-- Parts that are written with slashes between them are read again. -/
lemma splitSlashes_intercalate {parts : List Text} (h : ∀ part ∈ parts, IsPart part)
    (hne : parts ≠ []) : Path.splitSlashes [] (Text.intercalate "/" parts).toList = parts := by
  induction parts with
  | nil => exact absurd rfl hne
  | cons part rest ih =>
    obtain ⟨hpart, hrest⟩ := List.forall_mem_cons.1 h
    cases rest with
    | nil =>
      have hsingle : (Text.intercalate "/" [part]).toList = part.toList := by
        simp [Text.intercalate]
      rw [hsingle, splitSlashes_of_forall_ne hpart.slashless]
      rfl
    | cons next others =>
      have hsplit : (Text.intercalate "/" (part :: next :: others)).toList =
          part.toList ++ .char '/' :: (Text.intercalate "/" (next :: others)).toList := by
        simp [Text.intercalate, List.intercalate_cons_cons]
      rw [hsplit, splitSlashes_append hpart.slashless, ih hrest (List.cons_ne_nil _ _)]
      rfl

lemma IsPart.exists_cons {part : Text} (h : IsPart part) :
    ∃ c rest, part.toList = c :: rest ∧ c ≠ '/' := by
  cases hlist : part.toList with
  | nil =>
    have hempty : part = "" := ext_toList hlist
    have hproper := h.proper
    rw [hempty] at hproper
    cases hproper
  | cons c rest => exact ⟨c, rest, rfl, h.slashless c (by simp [hlist])⟩

lemma anchorOf_cons {c : CodePoint} (h : c ≠ '/') (rest : List CodePoint) :
    Path.anchorOf (c :: rest) = .here := by
  unfold Path.anchorOf
  split <;> simp_all

/-- Parts with slashes between them are read as a path without an anchor. -/
lemma parse_intercalate {parts : List Text} (h : ∀ part ∈ parts, IsPart part) (hne : parts ≠ []) :
    Path.parse (Text.intercalate "/" parts) = ⟨.here, parts⟩ := by
  obtain ⟨part, rest, rfl⟩ := List.exists_cons_of_ne_nil hne
  obtain ⟨c, more, hc, hslash⟩ := (h part List.mem_cons_self).exists_cons
  have hfront : ∃ others, (Text.intercalate "/" (part :: rest)).toList = c :: others := by
    cases rest with
    | nil => exact ⟨more, by simp [Text.intercalate, hc]⟩
    | cons next others => exact ⟨_, by simp [Text.intercalate, List.intercalate_cons_cons, hc]; rfl⟩
  obtain ⟨others, hothers⟩ := hfront
  unfold Path.parse
  rw [splitSlashes_intercalate h hne, hothers, anchorOf_cons hslash]
  rw [List.filter_eq_self.2 fun part hpart => (h part hpart).proper]

lemma intercalate_concat (sep x : Text) {parts : List Text} (hne : parts ≠ []) :
    Text.intercalate sep (parts ++ [x]) = Text.intercalate sep parts ++ sep ++ x := by
  induction parts with
  | nil => exact absurd rfl hne
  | cons part rest ih =>
    refine ext_toList ?_
    cases rest with
    | nil => simp [Text.intercalate, List.intercalate_cons_cons]
    | cons next others =>
      have hrest := congrArg Text.toList (ih (List.cons_ne_nil next others))
      simp only [Text.intercalate, List.map_cons, List.map_append, toList_append, List.cons_append,
        List.intercalate_cons_cons, List.append_assoc] at hrest ⊢
      rw [hrest]

/-- A path from a directory is read as it was written. -/
theorem parse_text {parts : List Text} (h : ∀ part ∈ parts, IsPart part) :
    Path.parse (Path.text ⟨.here, parts⟩) = ⟨.here, parts⟩ := by
  cases parts with
  | nil => rfl
  | cons part rest => exact parse_intercalate h (List.cons_ne_nil _ _)

/-- A name behind a written path is read as the last part. -/
theorem parse_text_append {parts : List Text} (h : ∀ part ∈ parts, IsPart part) {name : Text}
    (hname : IsPart name) :
    Path.parse (Path.text ⟨.here, parts⟩ ++ "/" ++ name) = ⟨.here, parts ++ [name]⟩ := by
  cases parts with
  | nil =>
    -- The empty path is written as a dot, which is dropped again.
    have hlist : (Path.text ⟨.here, []⟩ ++ "/" ++ name).toList =
        [.char '.'] ++ .char '/' :: name.toList := rfl
    have hdot : ∀ c ∈ ([.char '.'] : List CodePoint), c ≠ '/' := by decide
    have hproper : Path.isProper name = true := hname.proper
    rw [Path.parse, hlist, splitSlashes_append hdot, splitSlashes_of_forall_ne hname.slashless,
      List.cons_append, anchorOf_cons (by decide)]
    have hfilter : ([".", name] : List Text).filter Path.isProper = [name] := by
      rw [List.filter_cons_of_neg (by decide), List.filter_cons_of_pos hproper, List.filter_nil]
    exact congrArg (Path.mk .here) hfilter
  | cons part rest =>
    have hall : ∀ p ∈ part :: rest ++ [name], IsPart p :=
      List.forall_mem_append.2 ⟨h, List.forall_mem_singleton.2 hname⟩
    have hwritten : Path.text ⟨.here, part :: rest⟩ ++ "/" ++ name =
        Text.intercalate "/" (part :: rest ++ [name]) :=
      (intercalate_concat "/" name (List.cons_ne_nil part rest)).symm
    rw [hwritten]
    exact parse_intercalate hall (by simp)

/-! ### From one location to another -/

lemma exists_common (start target : Location) : ∃ common,
    start = common ++ (Location.split start target).1 ∧
      target = common ++ (Location.split start target).2 := by
  induction start generalizing target with
  | nil => exact ⟨[], by simp [Location.split], by simp [Location.split]⟩
  | cons a as ih =>
    cases target with
    | nil => exact ⟨[], by simp [Location.split], by simp [Location.split]⟩
    | cons b bs =>
      by_cases hab : a = b
      · obtain ⟨common, hstart, htarget⟩ := ih bs
        subst hab
        refine ⟨a :: common, ?_, ?_⟩
        · simpa [Location.split] using hstart
        · simpa [Location.split] using htarget
      · exact ⟨[], by simp [Location.split, hab], by simp [Location.split, hab]⟩

/-- Going up as often as there are parts takes them away. -/
lemma foldl_step_up (common up : Location) :
    (List.replicate up.length (".." : Text)).foldl Path.step (common ++ up) = common := by
  induction up using List.reverseRecOn with
  | nil => simp
  | append_singleton up part ih =>
    rw [List.length_append, List.length_singleton, List.replicate_succ, List.foldl_cons, Path.step,
      if_pos rfl, ← List.append_assoc, List.dropLast_concat, ih]

/-- Names go down. -/
lemma foldl_step_down (location : Location) {down : Location} (h : ∀ part ∈ down, part ≠ "..") :
    down.foldl Path.step location = location ++ down := by
  induction down generalizing location with
  | nil => simp
  | cons part rest ih =>
    obtain ⟨hpart, hrest⟩ := List.forall_mem_cons.1 h
    rw [List.foldl_cons, Path.step, if_neg hpart, ih _ hrest, List.append_assoc]
    rfl

/-- The path from a location leads to the target. -/
theorem locate_pathFrom {start target : Location} (h : IsPlace target) :
    (Location.pathFrom start target).locate start = target := by
  obtain ⟨common, hstart, htarget⟩ := exists_common start target
  have hdown : ∀ part ∈ (Location.split start target).2, part ≠ ".." := fun part hpart =>
    (h part (by rw [htarget]; exact List.mem_append_right _ hpart)).2
  have hup : (List.replicate (Location.split start target).1.length (".." : Text)).foldl Path.step
      start = common := by
    rw [← foldl_step_up common (Location.split start target).1, ← hstart]
  have hparts : (Location.pathFrom start target).parts =
      List.replicate (Location.split start target).1.length (".." : Text) ++
        (Location.split start target).2 := rfl
  have hbegin : (Location.pathFrom start target).start start = start := rfl
  rw [Path.locate, hparts, hbegin, List.foldl_append, hup, foldl_step_down _ hdown]
  exact htarget.symm

lemma IsPlace.step {location : Location} (h : IsPlace location) {part : Text} (hpart : IsPart part) :
    IsPlace (Path.step location part) := by
  unfold Path.step
  split
  · exact fun p hp => h p ((List.dropLast_sublist _).subset hp)
  · rename_i hdots
    exact List.forall_mem_append.2 ⟨h, List.forall_mem_singleton.2 ⟨hpart, hdots⟩⟩

/-- Whatever a path goes through, it leads to a place. -/
lemma isPlace_locate {here : Location} {path : Path} (hhere : IsPlace here) (hpath : path.IsRead) :
    IsPlace (path.locate here) := by
  have hwalk (parts : List Text) (location : Location) (hl : IsPlace location)
      (hparts : ∀ part ∈ parts, IsPart part) : IsPlace (parts.foldl Path.step location) := by
    induction parts generalizing location with
    | nil => exact hl
    | cons part rest ih =>
      obtain ⟨hpart, hrest⟩ := List.forall_mem_cons.1 hparts
      exact ih _ (hl.step hpart) hrest
  refine hwalk path.parts _ ?_ hpath
  unfold Path.start
  split
  · exact hhere
  · exact List.forall_mem_nil _

lemma isPart_dots : IsPart ".." := ⟨by decide, by decide⟩

lemma isPart_of_pathFrom {start target : Location} (h : IsPlace target) :
    ∀ part ∈ (Location.pathFrom start target).parts, IsPart part := by
  obtain ⟨common, -, htarget⟩ := exists_common start target
  refine List.forall_mem_append.2 ⟨fun part hpart => ?_, fun part hpart => ?_⟩
  · rw [List.eq_of_mem_replicate hpart]
    exact isPart_dots
  · exact (h part (by rw [htarget]; exact List.mem_append_right _ hpart)).1

/-! ### Written relative paths -/

section

variable {here : Location} {target start : Path}

lemma locate_concat (path : Path) (name : Text) (here : Location) :
    Path.locate here ⟨path.anchor, path.parts ++ [name]⟩ = Path.step (path.locate here) name := by
  rw [Path.locate, List.foldl_append]
  rfl

/-- A relative path that is written out and read again leads from the directory to the target. -/
theorem locate_relativePath (hhere : IsPlace here) (htarget : target.IsRead) :
    (Path.parse (relativePath here target start).text).locate (start.locate here) =
      target.locate here := by
  have hplace := isPlace_locate hhere htarget
  have hread : Path.parse (relativePath here target start).text = relativePath here target start :=
    parse_text (isPart_of_pathFrom hplace)
  rw [hread]
  exact locate_pathFrom hplace

/-- A name behind a relative path is that of a file in the target. -/
theorem locate_relativePath_append (hhere : IsPlace here) (htarget : target.IsRead) {name : Text}
    (hname : IsPart name) :
    (Path.parse ((relativePath here target start).text ++ "/" ++ name)).locate (start.locate here) =
      (target.child name).locate here := by
  have hplace := isPlace_locate hhere htarget
  have hread : Path.parse ((relativePath here target start).text ++ "/" ++ name) =
      ⟨(relativePath here target start).anchor, (relativePath here target start).parts ++ [name]⟩ :=
    parse_text_append (isPart_of_pathFrom hplace) hname
  rw [hread, Path.child_eq _ hname.slashless hname.proper, locate_concat, locate_concat]
  exact congrArg (Path.step · name) (locate_pathFrom hplace)

end

/-! ### Places of files -/

namespace Workspace

variable {w : Workspace}

lemma eq_of_walk {parts : List Text} {location l : Location} (h : w.walk location parts = .ok l) :
    l = parts.foldl Path.step location := by
  induction parts generalizing location with
  | nil =>
    cases h
    rfl
  | cons part rest ih =>
    obtain ⟨next, hstep, hrest⟩ := bind_eq_ok.1 h
    obtain ⟨-, -, rfl⟩ := step_eq_ok.1 hstep
    exact ih hrest

/-- A walk that arrives does so where the path leads. -/
lemma eq_locate_of_place {path : Path} {l : Location} (h : w.place path = .ok l) :
    l = path.locate w.here := by
  unfold place at h
  split at h
  · cases h
  · exact eq_of_walk h

/-- The content stored at a path is that of the file where the path leads. -/
lemma Stores.entry? {path : Path} {content : ByteArray} (h : w.Stores path content) :
    w.entry? (path.locate w.here) = some (.file content) := by
  obtain ⟨l, hplace, hentry⟩ := look_eq_ok.1 h.look
  rwa [← eq_locate_of_place hplace]

end Workspace

end Handoff.Files
