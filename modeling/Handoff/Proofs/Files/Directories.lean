import Handoff.Proofs.Files.Growth

/-!
Making directories.

Making a directory with those above it either ends with a directory at the path, or the path is
denied from then on; in both cases only directories are added. A second attempt then changes
nothing and ends the same way.
-/

namespace Handoff.Files

/-! ### The length of a path as it is written -/

lemma nameSize_append (a b : Text) : (a ++ b).nameSize = a.nameSize + b.nameSize := by
  have hlist : (a ++ b).toList = a.toList ++ b.toList := rfl
  rw [Text.nameSize, Text.nameSize, hlist, List.foldr_append]
  induction a.toList with
  | nil => exact (Nat.zero_add _).symm
  | cons c rest ih => rw [List.foldr_cons, List.foldr_cons, ih, Nat.add_assoc]

lemma exists_intercalate_concat (sep : Text) (ps : List Text) (x : Text) :
    ∃ rest, Text.intercalate sep (ps ++ [x]) = Text.intercalate sep ps ++ rest := by
  induction ps with
  | nil =>
    refine ⟨x, congrArg Text.ofList ?_⟩
    simp [Text.intercalate]
  | cons p ps ih =>
    cases ps with
    | nil =>
      refine ⟨sep ++ x, congrArg Text.ofList ?_⟩
      simp [Text.intercalate, List.intercalate]
    | cons q ps =>
      obtain ⟨rest, h⟩ := ih
      refine ⟨rest, congrArg Text.ofList ?_⟩
      have h := congrArg Text.toList h
      simp only [Text.intercalate, List.intercalate, List.map_cons, List.cons_append, List.map_append,
        List.intersperse_cons_cons, List.flatten_cons, Text.toList_append] at h ⊢
      rw [h]
      simp

/-- A path is written with the path above it in front, unless that one is the bare dot. -/
lemma Path.exists_text_concat {a : Anchor} {ps : List Text} (x : Text)
    (h : a ≠ .here ∨ ps ≠ []) : ∃ rest, Path.text ⟨a, ps ++ [x]⟩ = Path.text ⟨a, ps⟩ ++ rest := by
  obtain ⟨rest, hr⟩ := exists_intercalate_concat "/" ps x
  cases a with
  | here =>
    have hps : ps ≠ [] := by simpa using h
    exact ⟨rest, by simpa [Path.text, hps] using hr⟩
  | root | doubleRoot =>
    refine ⟨rest, ?_⟩
    simp only [Path.text, hr]
    exact congrArg Text.ofList (List.append_assoc ..).symm

namespace Workspace

variable {w w' w'' : Workspace}

/-- A path below one that is too long is too long. -/
lemma isTooLong_concat {a : Anchor} {ps : List Text} (x : Text) (h : isTooLong ⟨a, ps⟩ = true) :
    isTooLong ⟨a, ps ++ [x]⟩ = true := by
  by_cases hdot : a ≠ .here ∨ ps ≠ []
  · obtain ⟨rest, hr⟩ := Path.exists_text_concat x hdot
    simp only [isTooLong, decide_eq_true_eq] at h ⊢
    rw [hr, nameSize_append]
    omega
  · simp only [ne_eq, not_or, not_not] at hdot
    rw [hdot.1, hdot.2] at h
    exact absurd h (by decide)

lemma place_concat {a : Anchor} {ps : List Text} {x : Text}
    (h : isTooLong ⟨a, ps ++ [x]⟩ = false) :
    w.place ⟨a, ps ++ [x]⟩ = w.place ⟨a, ps⟩ >>= fun l => w.step l x := by
  have hps : isTooLong ⟨a, ps⟩ = false := by
    by_contra hc
    rw [isTooLong_concat x (by simpa using hc)] at h
    cases h
  rw [place_of_not_tooLong h, place_of_not_tooLong hps]
  exact walk_concat w _ ps x

/-! ### Further directories -/

/-- The second tree is the first one with further directories. -/
structure Founds (w w' : Workspace) : Prop where
  here : w'.here = w.here
  entry : ∀ l, w'.entry? l = w.entry? l ∨ (w.entry? l = none ∧ w'.entry? l = some .directory)
  sound : w.Sound → w'.Sound

lemma Founds.refl (w : Workspace) : w.Founds w := ⟨rfl, fun _ => Or.inl rfl, id⟩

lemma Founds.trans (h : w.Founds w') (h' : w'.Founds w'') : w.Founds w'' where
  here := h'.here.trans h.here
  entry l := by
    rcases h.entry l with e | ⟨e, d⟩ <;> rcases h'.entry l with e' | ⟨e', d'⟩
    · exact Or.inl (e'.trans e)
    · exact Or.inr ⟨e.symm.trans e', d'⟩
    · exact Or.inr ⟨e, e'.trans d⟩
    · rw [d] at e'
      cases e'
  sound hs := h'.sound (h.sound hs)

lemma Founds.grows (h : w.Founds w') : w.Grows w' where
  here := h.here
  directory {l} hd := by
    rcases h.entry l with e | ⟨e, -⟩
    · rw [e, hd]
    · rw [hd] at e
      cases e
  file {l c} hf := by
    rcases h.entry l with e | ⟨e, -⟩
    · exact ⟨c, by rw [e, hf]⟩
    · rw [hf] at e
      cases e

lemma Founds.sameFiles (h : w.Founds w') (names : Text → Prop) : SameFilesBut names w w' := by
  intro l c _
  rcases h.entry l with e | ⟨e, d⟩
  · rw [e]
  · rw [e, d]
    simp

lemma Sound.put {l : Location} {part : Text} (h : w.Sound) (hl : w.entry? l = some .directory)
    (hnew : w.entry? (l ++ [part]) ≠ some .directory) (e : Entry) :
    (w.put (l ++ [part]) e).Sound := by
  have hne : l ++ [part] ≠ [] := by simp
  have hkeep : ∀ m, w.entry? m = some .directory →
      Workspace.entry? (w.put (l ++ [part]) e) m = some .directory := by
    intro m hm
    rw [entry?_put _ _ _ _ hne, if_neg (by rintro rfl; exact hnew hm), hm]
  refine ⟨hkeep _ h.here, fun m hm hsome => ?_⟩
  rw [entry?_put _ _ _ _ hne] at hsome
  by_cases hc : m = l ++ [part]
  · subst hc
    rw [List.dropLast_concat]
    exact hkeep l hl
  · rw [if_neg hc] at hsome
    exact hkeep _ (h.above m hm hsome)

/-! ### One directory -/

lemma step_concat_eq_ok {l l' : Location} {part : Text} (hs : w.step l part = .ok l')
    (hp : part ≠ "..") : l' = l ++ [part] := by
  rw [step_eq_ok, Path.step, if_neg hp] at hs
  exact hs.2.2

lemma step_dots_eq_ok {l l' : Location} (hs : w.step l ".." = .ok l') : l' = l.dropLast := by
  rw [step_eq_ok, Path.step, if_pos rfl] at hs
  exact hs.2.2

/-- Two dots lead from a directory to a directory. -/
lemma Sound.step_dots {l l' : Location} (h : w.Sound) (hs : w.step l ".." = .ok l') :
    w.entry? l' = some .directory := by
  rw [step_dots_eq_ok hs]
  cases l with
  | nil => rfl
  | cons a as => exact h.above _ (by simp) (by simp [(step_eq_ok.1 hs).1])

lemma makeDirectory_concat (w : Workspace) (a : Anchor) (ps : List Text) (x : Text) :
    w.makeDirectory ⟨a, ps ++ [x]⟩ =
      if isTooLong ⟨a, ps ++ [x]⟩ then .error .nameTooLong
      else match w.place ⟨a, ps⟩ with
        | .error t => .error t
        | .ok l => match w.step l x with
          | .error t => .error t
          | .ok l' =>
            if ( w.entry? l').isSome || x = ".." then .error .alreadyExists
            else .ok (w.put l' .directory) := by
  rw [makeDirectory, Path.parent, List.getLast?_concat, List.dropLast_concat] <;> rfl

lemma makeDirectory_founds {path : Path} (h : w.makeDirectory path = .ok w') : w.Founds w' := by
  unfold makeDirectory at h
  split at h
  · cases h
  · split at h
    · cases h
    · split at h
      · cases h
      · rename_i last _ _ _ above _
        split at h
        · cases h
        · rename_i l hl
          split at h
          · cases h
          · rename_i hfree
            cases h
            simp only [Bool.or_eq_true, decide_eq_true_eq, not_or, Option.not_isSome_iff_eq_none]
              at hfree
            rw [step_concat_eq_ok hl hfree.2] at hfree ⊢
            have hne : above ++ [last] ≠ [] := by simp
            refine ⟨rfl, fun m => ?_, fun hs => ?_⟩
            · rw [entry?_put _ _ _ _ hne]
              by_cases hm : m = above ++ [last]
              · subst hm
                exact Or.inr ⟨hfree.1, by simp⟩
              · exact Or.inl (by simp [hm])
            · exact hs.put (step_eq_ok.1 hl).1 (by rw [hfree.1]; simp) _

lemma makeDirectory_isDirectory {a : Anchor} {ps : List Text} {x : Text}
    (h : w.makeDirectory ⟨a, ps ++ [x]⟩ = .ok w') : w'.isDirectory ⟨a, ps ++ [x]⟩ = true := by
  have hgrows := (makeDirectory_founds h).grows
  rw [makeDirectory_concat] at h
  cases hlong : isTooLong ⟨a, ps ++ [x]⟩ with
  | true => simp [hlong] at h
  | false =>
    rw [hlong, if_neg (by simp)] at h
    rcases hp : w.place ⟨a, ps⟩ with t | l
    · simp [hp] at h
    rcases hs : w.step l x with t | l'
    · simp [hp, hs] at h
    have hplace : w.place ⟨a, ps ++ [x]⟩ = .ok l' := by rw [place_concat hlong, hp, ok_bind, hs]
    refine isDirectory_iff.2 ⟨l', hgrows.place_ok hplace, ?_⟩
    simp only [hp, hs] at h
    split at h
    · cases h
    · rename_i hfree
      simp only [Bool.or_eq_true, decide_eq_true_eq, not_or] at hfree
      cases h
      rw [step_concat_eq_ok hs hfree.2, entry?_put _ _ _ _ (by simp), if_pos rfl]

/-- When one directory cannot be made, and not because another one is missing, then it is there or
denied. -/
lemma makeDirectory_error (hw : w.Sound) {a : Anchor} {ps : List Text} {x : Text} {t : FileTrouble}
    (h : w.makeDirectory ⟨a, ps ++ [x]⟩ = .error t) (ht : t ≠ .missing) :
    w.isDirectory ⟨a, ps ++ [x]⟩ = true ∨ w.Denied ⟨a, ps ++ [x]⟩ := by
  rw [makeDirectory_concat] at h
  cases hlong : isTooLong ⟨a, ps ++ [x]⟩ with
  | true => exact Or.inr (Or.inl ⟨_, by simp, place_of_tooLong hlong⟩)
  | false =>
    rw [hlong, if_neg (by simp)] at h
    have hplace := place_concat (w := w) hlong
    rcases hp : w.place ⟨a, ps⟩ with t' | l
    · simp only [hp] at h
      cases h
      exact Or.inr (Or.inl ⟨t, ht, by rw [hplace, hp]; rfl⟩)
    rcases hs : w.step l x with t' | l'
    · simp only [hp, hs] at h
      cases h
      exact Or.inr (Or.inl ⟨t, ht, by rw [hplace, hp, ok_bind, hs]⟩)
    rw [hp, ok_bind, hs] at hplace
    rcases he : w.entry? l' with _ | _ | c
    · by_cases hx : x = ".."
      · subst hx
        rw [hw.step_dots hs] at he
        cases he
      · simp [hp, hs, he, hx] at h
    · exact Or.inl (isDirectory_iff.2 ⟨l', hplace, he⟩)
    · exact Or.inr (Or.inr ⟨l', c, hplace, he⟩)

/-- Where there is a directory, none is made. -/
lemma makeDirectory_of_isDirectory {a : Anchor} {ps : List Text} {x : Text}
    (h : w.isDirectory ⟨a, ps ++ [x]⟩ = true) :
    w.makeDirectory ⟨a, ps ++ [x]⟩ = .error .alreadyExists := by
  obtain ⟨l', hplace, he⟩ := isDirectory_iff.1 h
  cases hlong : isTooLong ⟨a, ps ++ [x]⟩ with
  | true =>
    rw [place_of_tooLong hlong] at hplace
    cases hplace
  | false =>
    rw [place_concat hlong] at hplace
    obtain ⟨l, hp, hs⟩ := bind_eq_ok.1 hplace
    simp [makeDirectory_concat, hlong, hp, hs, he]

/-- Where a directory is denied, none is made, and nothing is missing on the way. -/
lemma Denied.makeDirectory {a : Anchor} {ps : List Text} {x : Text}
    (h : w.Denied ⟨a, ps ++ [x]⟩) :
    ∃ t, t ≠ FileTrouble.missing ∧ w.makeDirectory ⟨a, ps ++ [x]⟩ = .error t := by
  cases hlong : isTooLong ⟨a, ps ++ [x]⟩ with
  | true => exact ⟨.nameTooLong, by simp, by simp [makeDirectory_concat, hlong]⟩
  | false =>
    have hplace := place_concat (w := w) hlong
    rcases h with ⟨t, ht, hp⟩ | ⟨l', c, hp, he⟩
    · refine ⟨t, ht, ?_⟩
      rw [hplace] at hp
      rcases hl : w.place ⟨a, ps⟩ with t' | l
      · rw [hl] at hp
        cases hp
        simp [makeDirectory_concat, hlong, hl]
      · rw [hl, ok_bind] at hp
        simp [makeDirectory_concat, hlong, hl, hp]
    · rw [hplace] at hp
      obtain ⟨l, hl, hs⟩ := bind_eq_ok.1 hp
      exact ⟨.alreadyExists, by simp, by simp [makeDirectory_concat, hlong, hl, hs, he]⟩

/-! ### A directory with those above it -/

/-- Where a path starts there is a directory. -/
lemma Sound.isDirectory_anchor (h : w.Sound) (a : Anchor) : w.isDirectory ⟨a, []⟩ = true := by
  have hshort : isTooLong ⟨a, []⟩ = false := by cases a <;> decide
  refine isDirectory_iff.2 ⟨_, place_of_not_tooLong hshort, ?_⟩
  cases a with
  | here => exact h.here
  | root => rfl
  | doubleRoot => rfl

/-- How an attempt to make a directory with those above it ends: with the directory, at the limit
of depth, or denied. -/
inductive Ensured (w : Workspace) (path : Path) : Except Fault Unit → Prop where
  | made (h : w.isDirectory path = true) : Ensured w path (.ok ())
  | tooDeep : Ensured w path (.error .tooDeep)
  | denied (t : FileTrouble) (text : Text) (h : w.Denied path) :
    Ensured w path (.error (.file t text))

/-- A denied directory denies what is below it. -/
lemma Denied.below {a : Anchor} {ps : List Text} {x : Text} (h : w.Denied ⟨a, ps⟩) :
    ∃ t, t ≠ FileTrouble.missing ∧ w.place ⟨a, ps ++ [x]⟩ = .error t := by
  cases hlong : isTooLong ⟨a, ps ++ [x]⟩ with
  | true => exact ⟨_, by simp, place_of_tooLong hlong⟩
  | false =>
    rw [place_concat hlong]
    rcases h with ⟨t, ht, hp⟩ | ⟨l, c, hp, he⟩
    · exact ⟨t, ht, by rw [hp]; rfl⟩
    · exact ⟨.notADirectory, by simp, by rw [hp, ok_bind, Workspace.step, he]⟩

/-- After everything above a directory is there, nothing is missing for the directory itself. -/
lemma makeDirectory_ne_missing {a : Anchor} {ps : List Text} (x : Text)
    (h : w.isDirectory ⟨a, ps⟩ = true) : w.makeDirectory ⟨a, ps ++ [x]⟩ ≠ .error .missing := by
  obtain ⟨l, hp, he⟩ := isDirectory_iff.1 h
  rw [makeDirectory_concat]
  split
  · simp
  · rw [hp]
    by_cases hname : longestName < x.nameSize
    · have hs : w.step l x = .error .nameTooLong := by simp [Workspace.step, he, hname]
      simp [hs]
    · have hs : w.step l x = .ok (Path.step l x) := by simp [Workspace.step, he, hname]
      simp only [hs]
      split <;> simp

/-- The answer when a directory could not be made: it is fine after all if it is there. -/
private lemma settle_ensured {path : Path} {t : FileTrouble}
    (h : w.isDirectory path = true ∨ w.Denied path) :
    ∃ r, (if w.isDirectory path then (.ok (), w) else (.error (.file t path.text), w)) = (r, w) ∧
      Ensured w path r := by
  rcases h with h | h
  · exact ⟨_, if_pos h, .made h⟩
  · exact ⟨_, if_neg (by simp [h.not_isDirectory]), .denied _ _ h⟩

theorem ensureFrom_ensured (a : Anchor) (room : Nat) (above : List Text) (hw : w.Sound) :
    w.Founds (ensureFrom a room above w).2 ∧
      Ensured (ensureFrom a room above w).2 ⟨a, above.reverse⟩ (ensureFrom a room above w).1 := by
  induction above generalizing room w with
  | nil =>
    cases room with
    | zero => exact ⟨.refl w, .tooDeep⟩
    | succ room =>
      simp only [ensureFrom, hw.isDirectory_anchor a, if_true]
      exact ⟨.refl w, .made (hw.isDirectory_anchor a)⟩
  | cons x above ih =>
    cases room with
    | zero => exact ⟨.refl w, .tooDeep⟩
    | succ room =>
      simp only [ensureFrom, List.reverse_cons]
      rcases hm : w.makeDirectory ⟨a, above.reverse ++ [x]⟩ with t | w'
      · have hsettle (ht : t ≠ .missing) := settle_ensured (t := t) (makeDirectory_error hw hm ht)
        cases t with
        | missing =>
          obtain ⟨hf, he⟩ := ih room hw
          rcases hr : ensureFrom a room above w with ⟨fault | ⟨⟨⟩⟩, w'⟩
          · rw [hr] at hf he
            refine ⟨hf, ?_⟩
            cases he with
            | tooDeep => exact .tooDeep
            | denied t text h =>
              obtain ⟨t', ht, hp⟩ := h.below (x := x)
              exact .denied _ _ (Or.inl ⟨t', ht, hp⟩)
          · rw [hr] at hf he
            cases he with
            | made hd =>
              simp only
              rcases hm' : w'.makeDirectory ⟨a, above.reverse ++ [x]⟩ with t | w''
              · have ht : t ≠ .missing := by
                  rintro rfl
                  exact makeDirectory_ne_missing x hd hm'
                obtain ⟨r, hr, hs⟩ :=
                  settle_ensured (t := t) (makeDirectory_error (hf.sound hw) hm' ht)
                simp only [hr]
                exact ⟨hf, hs⟩
              · exact ⟨hf.trans (makeDirectory_founds hm'), .made (makeDirectory_isDirectory hm')⟩
        | alreadyExists | notADirectory | isADirectory | nameTooLong =>
          obtain ⟨r, hr, hs⟩ := hsettle (by simp)
          simp only [hr]
          exact ⟨.refl w, hs⟩
      · exact ⟨makeDirectory_founds hm, .made (makeDirectory_isDirectory hm)⟩

lemma here_ensureFrom (anchor : Anchor) (room : Nat) (above : List Text) (w : Workspace) :
    (ensureFrom anchor room above w).2.here = w.here := by
  induction room generalizing above w with
  | zero => rfl
  | succ room ih =>
    cases above with
    | nil =>
      unfold ensureFrom
      dsimp only
      split <;> rfl
    | cons last above =>
      have hsettle (path : Path) (v : Workspace) (trouble : FileTrouble) :
          (if v.isDirectory path then (.ok (), v) else (.error (.file trouble path.text), v) :
            Except Fault Unit × Workspace).2.here = v.here := by
        split <;> rfl
      have habove := ih above w
      unfold ensureFrom
      dsimp only
      rcases hmake : w.makeDirectory ⟨anchor, (last :: above).reverse⟩ with trouble | w'
      · cases trouble with
        | missing =>
          simp only
          rcases hensure : ensureFrom anchor room above w with ⟨fault | ⟨⟩, v⟩
          · rw [hensure] at habove
            exact habove
          · rw [hensure] at habove
            simp only
            rcases hagain : v.makeDirectory ⟨anchor, (last :: above).reverse⟩ with trouble | v'
            · exact (hsettle _ v trouble).trans habove
            · exact (makeDirectory_founds hagain).here.trans habove
        | _ => exact hsettle _ w _
      · exact (makeDirectory_founds hmake).here

lemma here_ensureDirectory (w : Workspace) (path : Path) :
    (w.ensureDirectory path).2.here = w.here := by
  unfold ensureDirectory
  split
  · rfl
  · exact here_ensureFrom _ _ _ w

/-! ### Paths that the system can be asked about -/

lemma checkPath_eq_ok {path : Path} : checkPath path = .ok () ↔ path.isUsable = true := by
  unfold checkPath Path.isUsable
  cases path.surrogates? <;> simp

lemma checkPath_error {path : Path} (h : path.isUsable = false) :
    ∃ fault, checkPath path = .error fault ∧ fault.ofSystem = false := by
  unfold checkPath
  cases hs : path.surrogates? with
  | some found => exact ⟨_, rfl, rfl⟩
  | none => exact ⟨.nullCharacter, if_pos (by simpa [Path.isUsable, hs] using h), rfl⟩

lemma surrogatesFrom_eq_none {stands : Fin 0x800 → Bool} {offset : Nat} {l : List CodePoint} :
    Text.surrogatesFrom stands offset l = none ↔ ∀ i, .surrogate i ∈ l → stands i = true := by
  induction l generalizing offset with
  | nil => simp [Text.surrogatesFrom]
  | cons c rest ih =>
    cases c with
    | char c => simp [Text.surrogatesFrom, ih]
    | surrogate i =>
      by_cases hi : stands i = true <;> simp [Text.surrogatesFrom, hi, ih]

/-- The directory of a usable path is usable. -/
lemma isUsable_above {a : Anchor} {ps : List Text} {x : Text}
    (h : Path.isUsable ⟨a, ps ++ [x]⟩ = true) : Path.isUsable ⟨a, ps⟩ = true := by
  by_cases hdot : a ≠ .here ∨ ps ≠ []
  · obtain ⟨rest, hr⟩ := Path.exists_text_concat x hdot
    simp only [Path.isUsable, Path.surrogates?, Text.surrogatesInName?, hr, Text.toList_append,
      Path.hasNull, List.any_append, Bool.not_or, Bool.and_eq_true, Option.isNone_iff_eq_none,
      surrogatesFrom_eq_none, List.mem_append] at h ⊢
    exact ⟨fun i hi => h.1 i (Or.inl hi), h.2.1⟩
  · simp only [ne_eq, not_or, not_not] at hdot
    rw [hdot.1, hdot.2]
    decide

/-! ### The directory of a file -/

theorem ensureDirectory_ensured (hw : w.Sound) {path : Path} (hp : path.isUsable = true) :
    w.Founds (w.ensureDirectory path).2 ∧
      Ensured (w.ensureDirectory path).2 path (w.ensureDirectory path).1 := by
  have h := ensureFrom_ensured path.anchor mostNewDirectories path.parts.reverse hw
  rw [List.reverse_reverse] at h
  simpa only [ensureDirectory, checkPath_eq_ok.2 hp] using h

lemma ensureDirectory_of_not_usable (w : Workspace) {path : Path} (hp : path.isUsable = false) :
    ∃ fault, w.ensureDirectory path = (.error fault, w) ∧ fault.ofSystem = false := by
  obtain ⟨fault, hf, hs⟩ := checkPath_error hp
  exact ⟨fault, by simp [ensureDirectory, hf], hs⟩

/-- A directory that is there is left alone. -/
lemma ensureDirectory_of_isDirectory {path : Path} (hp : path.isUsable = true)
    (h : w.isDirectory path = true) : w.ensureDirectory path = (.ok (), w) := by
  obtain ⟨a, ps⟩ := path
  simp only [ensureDirectory, checkPath_eq_ok.2 hp, mostNewDirectories]
  rcases List.eq_nil_or_concat ps with rfl | ⟨qs, x, rfl⟩
  · simp [ensureFrom, h]
  · rw [List.concat_eq_append] at h ⊢
    simp [ensureFrom, makeDirectory_of_isDirectory h, h]

/-- A directory that is denied changes nothing. -/
lemma ensureDirectory_of_denied (hw : w.Sound) {path : Path} (hp : path.isUsable = true)
    (h : w.Denied path) : ∃ t, w.ensureDirectory path = (.error (.file t path.text), w) := by
  obtain ⟨a, ps⟩ := path
  simp only [ensureDirectory, checkPath_eq_ok.2 hp, mostNewDirectories]
  rcases List.eq_nil_or_concat ps with rfl | ⟨qs, x, rfl⟩
  · have hd := h.not_isDirectory
    rw [hw.isDirectory_anchor a] at hd
    cases hd
  · rw [List.concat_eq_append] at h ⊢
    obtain ⟨t, ht, hm⟩ := h.makeDirectory
    refine ⟨t, ?_⟩
    cases t <;> simp_all [ensureFrom, h.not_isDirectory]

/-- An attempt that ends at the limit of depth has changed nothing. -/
lemma ensureFrom_tooDeep {a : Anchor} {room : Nat} {above : List Text}
    (h : (ensureFrom a room above w).1 = .error .tooDeep) : (ensureFrom a room above w).2 = w := by
  induction above generalizing room w with
  | nil =>
    cases room with
    | zero => rfl
    | succ room =>
      simp only [ensureFrom] at h ⊢
      split <;> rfl
  | cons x above ih =>
    cases room with
    | zero => rfl
    | succ room =>
      simp only [ensureFrom] at h ⊢
      rcases hm : w.makeDirectory ⟨a, (x :: above).reverse⟩ with t | w'
      · rw [hm] at h
        cases t with
        | missing =>
          simp only at h ⊢
          rcases hr : ensureFrom a room above w with ⟨fault | ⟨⟨⟩⟩, w'⟩
          · rw [hr] at h
            have : (ensureFrom a room above w).2 = w := ih (by rw [hr]; exact h)
            rw [hr] at this
            exact this
          · rw [hr] at h
            simp only at h
            split at h
            · cases h
            · split at h <;> cases h
        | alreadyExists | notADirectory | isADirectory | nameTooLong =>
          simp only at h ⊢
          split <;> rfl
      · rw [hm] at h
        cases h

end Workspace

end Handoff.Files
