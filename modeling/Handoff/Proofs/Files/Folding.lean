import Handoff.Proofs.Files.Names

/-!
File names without regard to case.

The stems and extensions of generated files are ASCII, so a file name in lower case is the lower
case of its stem before the lower case of its extension. Paths that end in different names, even
without regard to case, are different places.
-/

namespace Handoff

namespace Text

lemma isWordChar_small {c : CodePoint} (h : isWordChar c = true) : isWordChar (small c) = true := by
  have hc : c.toNat < 128 := by
    have := isWordChar_iff.1 h
    omega
  revert h
  exact CodePoint.ascii_induction (P := fun c => isWordChar c = true → isWordChar (small c) = true)
    (by decide +kernel) hc

/-- The lower case of a word is a word. -/
lemma over_word_lower {a : Text} (h : Over isWordChar a) : Over isWordChar (lower a) := by
  intro c hc
  rw [toList_lower_of_ascii h.ascii] at hc
  obtain ⟨d, hd, rfl⟩ := List.mem_map.1 hc
  exact isWordChar_small (h d hd)

lemma small_hyphen : small '-' = '-' := by decide +kernel

end Text

namespace Files

open Asset Text

/-- Every character of the text is one of ASCII. -/
def IsAscii (text : Text) : Prop := ∀ c ∈ text.toList, c.toNat < 128

lemma isAscii_ofString {s : String} (h : s.toList.all (fun c => c.toNat < 128) = true) :
    IsAscii s := by
  intro c hc
  obtain ⟨d, hd, rfl⟩ := List.mem_map.1 hc
  simpa using List.all_eq_true.1 h d hd

lemma isAscii_of_over {text : Text} (h : Over isFileChar text) : IsAscii text := by
  intro c hc
  have hfile := isFileChar_iff.1 (h c hc)
  rw [isWordChar_iff] at hfile
  omega

lemma isFileChar_small {c : CodePoint} (h : isFileChar c = true) : isFileChar (small c) = true := by
  have hc : c.toNat < 128 := by
    have hfile := isFileChar_iff.1 h
    rw [isWordChar_iff] at hfile
    omega
  revert h
  exact CodePoint.ascii_induction (P := fun c => isFileChar c = true → isFileChar (small c) = true)
    (by decide +kernel) hc

variable {name stem ext name' stem' ext' : Text}

namespace IsFileName

/-- The lower case of a file name is one, with the lower case of the stem and the extension. -/
theorem lower (h : IsFileName name stem ext) (hext : IsAscii ext) :
    IsFileName (Text.lower name) (Text.lower stem) (Text.lower ext) := by
  have hstem : IsAscii stem := isAscii_of_over h.stem_over
  have hname : IsAscii name := by
    intro c hc
    rw [h.eq, toList_append, toList_append, List.mem_append, List.mem_append] at hc
    rcases hc with hc | hc | hc
    · exact hstem c hc
    · cases List.mem_singleton.1 hc
      decide
    · exact hext c hc
  refine ⟨ext_toList ?_, ?_, ?_, ?_⟩
  · rw [toList_append, toList_append, toList_lower_of_ascii hname, toList_lower_of_ascii hstem,
      toList_lower_of_ascii hext, h.eq, toList_append, toList_append, List.map_append,
      List.map_append]
    rfl
  · intro c hc
    rw [toList_lower_of_ascii hstem] at hc
    obtain ⟨d, hd, rfl⟩ := List.mem_map.1 hc
    exact isFileChar_small (h.stem_over d hd)
  · intro hempty
    have hlist := toList_lower_of_ascii hstem
    rw [hempty] at hlist
    exact h.stem_ne (ext_toList (List.map_eq_nil_iff.1 hlist.symm))
  · intro c hc hslash
    rw [toList_lower_of_ascii hext] at hc
    obtain ⟨d, hd, rfl⟩ := List.mem_map.1 hc
    have hd' : d = '/' := by
      revert hslash
      exact CodePoint.ascii_induction (P := fun d => small d = '/' → d = '/')
        (by decide +kernel) (hext d hd)
    exact h.ext_over d hd hd'

/-- Names with different stems or extensions differ, even without regard to case. -/
lemma lower_ne (h : IsFileName name stem ext) (h' : IsFileName name' stem' ext')
    (hext : IsAscii ext) (hext' : IsAscii ext')
    (hne : Text.lower stem ≠ Text.lower stem' ∨ Text.lower ext ≠ Text.lower ext') :
    Text.lower name ≠ Text.lower name' := by
  intro heq
  have hlower := h.lower hext
  rw [heq] at hlower
  obtain ⟨hstem, hexts⟩ := hlower.inj (h'.lower hext')
  rcases hne with hne | hne
  · exact hne hstem
  · exact hne hexts

end IsFileName

/-- The stem of a picture's file has a hyphen, also in lower case. -/
lemma hyphen_mem_lower (h : IsFileName name stem ext) (hmem : .char '-' ∈ stem.toList) :
    .char '-' ∈ (Text.lower stem).toList := by
  rw [toList_lower_of_ascii (isAscii_of_over h.stem_over)]
  exact List.mem_map.2 ⟨_, hmem, small_hyphen⟩

/-! ### Paths -/

/-- A location without regard to case. -/
def Location.folded (location : Location) : Location := location.map Text.lower

/-- Two paths end in the names of files, which differ even without regard to case. -/
def Path.Unlike (p q : Path) : Prop :=
  ∃ n m, p.EndsIn n ∧ q.EndsIn m ∧ Text.lower n ≠ Text.lower m

namespace Path.Unlike

variable {p q : Path}

lemma name_ne (h : p.Unlike q) {n : Text} (hp : p.EndsIn n) : ¬ q.EndsIn n := by
  obtain ⟨n', m, hn, hm, hne⟩ := h
  intro hq
  exact hne (by rw [hn.unique hp, hm.unique hq])

/-- Unlike paths are different places, even without regard to case. -/
lemma folded_ne (h : p.Unlike q) (here : Location) :
    (p.locate here).folded ≠ (q.locate here).folded := by
  obtain ⟨n, m, hn, hm, hne⟩ := h
  obtain ⟨dir, hp⟩ := hn.locate here
  obtain ⟨dir', hq⟩ := hm.locate here
  intro heq
  rw [hp, hq, Location.folded, Location.folded, List.map_append, List.map_append] at heq
  exact hne (List.cons.inj (List.append_inj_right' heq rfl)).1

end Path.Unlike

lemma IsFileName.unlike (h : IsFileName name stem ext) (h' : IsFileName name' stem' ext')
    (hext : IsAscii ext) (hext' : IsAscii ext')
    (hne : Text.lower stem ≠ Text.lower stem' ∨ Text.lower ext ≠ Text.lower ext')
    (dir dir' : Path) : (dir.child name).Unlike (dir'.child name') :=
  ⟨name, name', h.endsIn dir, h'.endsIn dir', h.lower_ne h' hext hext' hne⟩

end Files

end Handoff
