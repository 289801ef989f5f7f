import Handoff.Asset.FileName
import Handoff.Files.Path
import Handoff.Proofs.Text.Ascii

/-!
Names of generated files: a stem of letters, digits, hyphens and underscores, and an extension from
the first dot on.

Such a name is one part of a path, and stem and extension can be told apart again.
-/

namespace Handoff.Files

open Asset Text

variable {stem stem' ext ext' name : Text}

/-! ### One part of a path -/

lemma splitSlashes_of_forall_ne {part l : List CodePoint} (h : ∀ c ∈ l, c ≠ '/') :
    Path.splitSlashes part l = [Text.ofList (part.reverse ++ l)] := by
  induction l generalizing part with
  | nil => simp [Path.splitSlashes]
  | cons c rest ih =>
    rw [Path.splitSlashes, if_neg (h c List.mem_cons_self),
      ih fun d hd => h d (List.mem_cons_of_mem _ hd)]
    simp

lemma anchorOf_of_forall_ne {l : List CodePoint} (h : ∀ c ∈ l, c ≠ '/') :
    Path.anchorOf l = .here := by
  unfold Path.anchorOf
  split
  · exact absurd rfl (h _ List.mem_cons_self)
  · exact absurd rfl (h _ List.mem_cons_self)
  · exact absurd rfl (h _ List.mem_cons_self)
  · rfl

/-- A name without slashes that is neither empty nor a dot is one part below a path. -/
lemma Path.child_eq (path : Path) (hs : ∀ c ∈ name.toList, c ≠ '/') (hp : Path.isProper name = true) :
    path.child name = ⟨path.anchor, path.parts ++ [name]⟩ := by
  have hparse : Path.parse name = ⟨.here, [name]⟩ := by
    rw [Path.parse, splitSlashes_of_forall_ne hs, anchorOf_of_forall_ne hs]
    simp [hp]
  rw [Path.child, hparse]
  rfl

/-! ### Stems and extensions -/

lemma isFileChar_iff {c : CodePoint} :
    isFileChar c = true ↔ isWordChar c = true ∨ c.toNat = 95 ∨ c.toNat = 45 := by
  simp [isFileChar, or_assoc, ← CodePoint.toNat_inj]

lemma isFileChar_of_word {c : CodePoint} (h : isWordChar c = true) : isFileChar c = true :=
  isFileChar_iff.2 (Or.inl h)

lemma isFileChar_of_slug {c : CodePoint} (h : isSlugChar c = true) : isFileChar c = true := by
  have hs := isSlugChar_iff.1 h
  have hw := isWordChar_iff (c := c)
  rw [isFileChar_iff, hw]
  omega

lemma ne_of_isFileChar {c : CodePoint} (h : isFileChar c = true) : c ≠ '/' ∧ c ≠ '.' := by
  constructor <;>
  · rintro rfl
    exact absurd h (by decide)

/-- The name of a generated file: a stem and, from a dot on, an extension without slashes. -/
structure IsFileName (name stem ext : Text) : Prop where
  eq : name = stem ++ ("." ++ ext)
  stem_over : Over isFileChar stem
  stem_ne : stem ≠ ""
  ext_over : ∀ c ∈ ext.toList, c ≠ '/'

namespace IsFileName

lemma ne_slash (h : IsFileName name stem ext) : ∀ c ∈ name.toList, c ≠ '/' := by
  intro c hc
  rw [h.eq] at hc
  rcases List.mem_append.1 hc with hc | hc
  · exact (ne_of_isFileChar (h.stem_over c hc)).1
  · rcases List.mem_append.1 hc with hc | hc
    · cases List.mem_singleton.1 hc
      decide
    · exact h.ext_over c hc

/-- A stem begins with another character than a dot. -/
lemma exists_cons (h : IsFileName name stem ext) : ∃ c rest, name.toList = c :: rest ∧ c ≠ '.' := by
  rcases hl : stem.toList with _ | ⟨c, rest⟩
  · exact absurd (ext_toList hl) h.stem_ne
  · refine ⟨c, rest ++ ("." ++ ext : Text).toList, ?_, ?_⟩
    · rw [h.eq, toList_append, hl, List.cons_append]
    · exact (ne_of_isFileChar (h.stem_over c (by simp [hl]))).2

lemma ne_dots (h : IsFileName name stem ext) : name ≠ ".." := by
  obtain ⟨c, rest, hl, hc⟩ := h.exists_cons
  rintro rfl
  exact hc (List.cons.inj hl).1.symm

lemma proper (h : IsFileName name stem ext) : Path.isProper name = true := by
  obtain ⟨c, rest, hl, hc⟩ := h.exists_cons
  have hdot : name ≠ "." := by
    rintro rfl
    exact hc (List.cons.inj hl).1.symm
  simp [Path.isProper, isEmpty, hl, hdot]

lemma child_eq (h : IsFileName name stem ext) (path : Path) :
    path.child name = ⟨path.anchor, path.parts ++ [name]⟩ :=
  Path.child_eq path h.ne_slash h.proper

/-- A name has one stem and one extension. -/
theorem inj (h : IsFileName name stem ext) (h' : IsFileName name stem' ext') :
    stem = stem' ∧ ext = ext' := by
  have hl := congrArg toList (h.eq.symm.trans h'.eq)
  simp only [toList_append, toList_ofString] at hl
  have hsplit {s x : Text} (hs : Over isFileChar s) :
      (s.toList ++ (("." : String).toList.map CodePoint.char ++ x.toList)).takeWhile isFileChar =
        s.toList := by
    rw [List.takeWhile_append_of_pos hs]
    simp [show isFileChar (.char '.') = false by decide]
  have hstem : stem.toList = stem'.toList := by
    rw [← hsplit h.stem_over (x := ext), hl, hsplit h'.stem_over]
  rw [hstem] at hl
  exact ⟨ext_toList hstem, ext_toList (List.append_cancel_left (List.append_cancel_left hl))⟩

end IsFileName

/-! ### The names of the generated files -/

/-- The file name of a picture: a slug, the id of the layer and the extension. -/
lemma fileName_eq_ok {layer : Design.Layer} {format : Design.ExportFormat}
    (h : fileName layer format = .ok name) : ∃ lead id, Over isSlugChar lead ∧
      layer.id = .text id ∧ name = lead ++ "-" ++ fileId id ++ "." ++ format.name := by
  obtain ⟨slug, hslug, h⟩ := bind_eq_ok.1 h
  obtain ⟨fileId, hid, h⟩ := bind_eq_ok.1 h
  obtain ⟨label, -, hslug⟩ := bind_eq_ok.1 hslug
  obtain ⟨id, hidText, hid⟩ := bind_eq_ok.1 hid
  cases hslug
  cases hid
  cases h
  have hover : Over isSlugChar (if (slug label).isEmpty then "asset" else slug label : Text) := by
    split
    · exact over_ofString (by decide)
    · exact isSlug_slug label
  refine ⟨_, id, hover, ?_, rfl⟩
  unfold Value.asText at hidText
  split at hidText
  · rename_i text hlayer
    cases hidText
    exact hlayer
  · cases hidText

lemma over_fileId (id : Text) : Over isFileChar (fileId id) := by
  intro c hc
  obtain ⟨d, -, rfl⟩ := List.mem_map.1 hc
  split
  · assumption
  · decide

/-- The file name of a picture: its stem has a hyphen before the id. -/
lemma isFileName_of_fileName {layer : Design.Layer} {format : Design.ExportFormat}
    (h : fileName layer format = .ok name) :
    ∃ stem, IsFileName name stem format.name ∧ .char '-' ∈ stem.toList := by
  obtain ⟨lead, id, hlead, -, rfl⟩ := fileName_eq_ok h
  refine ⟨lead ++ "-" ++ fileId id, ⟨append_assoc .., ?_, ?_, ?_⟩, ?_⟩
  · exact over_append.2 ⟨over_append.2 ⟨hlead.mono fun _ => isFileChar_of_slug,
      over_ofString (by decide)⟩, over_fileId id⟩
  · intro he
    have := congrArg toList he
    simp at this
  · cases format <;> decide
  · simp

lemma lookup_of_file {files : FileMap} {key : Key} (h : files.file? key = some name) :
    files.lookup key = some (some name) := by
  unfold FileMap.file? at h
  split at h
  · split at h
    · cases h
    · cases h
      assumption
  · cases h

/-- The file name of an artifact: its stem is the name of the component. -/
lemma isFileName_of_word {ext : String} (h : Over isWordChar stem) (hne : stem ≠ "")
    (hext : ext.toList.all (fun c => c ≠ '/') = true) :
    IsFileName (stem ++ ("." ++ ext : Text)) stem ext where
  eq := rfl
  stem_over := h.mono fun _ => isFileChar_of_word
  stem_ne := hne
  ext_over c hc := by
    obtain ⟨d, hd, rfl⟩ := List.mem_map.1 hc
    have := List.all_eq_true.1 hext d hd
    simpa using this

/-! ### Paths of files -/

/-- The last part of a path is a name of a file. -/
structure Path.EndsIn (path : Path) (name : Text) : Prop where
  last : path.parts.getLast? = some name
  ne_dots : name ≠ ".."

lemma Path.endsIn_concat {a : Anchor} {ps : List Text} {name : Text} (hn : name ≠ "..") :
    Path.EndsIn ⟨a, ps ++ [name]⟩ name := ⟨List.getLast?_concat, hn⟩

namespace Path.EndsIn

variable {path : Path} {name other : Text}

lemma unique (h : path.EndsIn name) (h' : path.EndsIn other) : name = other :=
  Option.some.inj (h.last.symm.trans h'.last)

/-- The path of a file is that of its directory with the name below it. -/
lemma exists_eq (h : path.EndsIn name) : ∃ a ps, path = ⟨a, ps ++ [name]⟩ := by
  obtain ⟨a, parts⟩ := path
  obtain ⟨ps, rfl⟩ := List.getLast?_eq_some_iff.1 h.last
  exact ⟨a, ps, rfl⟩

/-- The last part of the location of a file is its name. -/
lemma locate (h : path.EndsIn name) (here : Location) :
    ∃ dir, path.locate here = dir ++ [name] := by
  obtain ⟨a, ps, rfl⟩ := h.exists_eq
  refine ⟨ps.foldl Path.step (Path.start here ⟨a, ps ++ [name]⟩), ?_⟩
  rw [Path.locate, List.foldl_append, List.foldl_cons, List.foldl_nil, Path.step, if_neg h.ne_dots]

end Path.EndsIn

lemma IsFileName.endsIn {name stem ext : Text} (h : IsFileName name stem ext) (dir : Path) :
    (dir.child name).EndsIn name := by
  rw [h.child_eq]
  exact Path.endsIn_concat h.ne_dots

end Handoff.Files
