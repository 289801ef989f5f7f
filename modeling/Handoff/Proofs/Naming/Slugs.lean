import Handoff.Proofs.Text.Ascii
import Handoff.Token.Variables

/-!
The slugs of labels, and the names of tokens.

Lower case can make a label longer, and it can bring letters of ASCII into it: the dotted capital I and the
Kelvin sign do so, and no other character beyond ASCII. It never makes a blank or takes one away, so the runs
of blanks are those of the label itself. A slug is therefore spelled character by character off its label,
and what it is spelled of does not change a second time.
-/

namespace Handoff.Naming

open Text Token

/-! ### Spelling -/

/-- The capital I with a dot. Its lower case is an `i` and a combining dot. -/
def dottedCapital : CodePoint := Char.ofNat 0x130

/-- The sign of the unit kelvin. Its lower case is the letter `k`. -/
def kelvinSign : CodePoint := Char.ofNat 0x212A

/-- What a character that is not blank leaves in a slug. -/
def slugPart (c : CodePoint) : List CodePoint :=
  if isSlugChar c then [c]
  else if isCapital c then [small c]
  else if c = dottedCapital then ['i']
  else if c = kelvinSign then ['k']
  else []

/-- A slash as a hyphen. -/
def unslashed (c : CodePoint) : CodePoint := if c = '/' then '-' else c

/-- What a character that is not blank leaves in the name of a token. -/
def tokenPart (c : CodePoint) : List CodePoint := slugPart (unslashed c)

/-- A label spells a slug: each run of blanks is one hyphen, and each other character leaves its part. -/
inductive Spells (part : CodePoint → List CodePoint) : List CodePoint → List CodePoint → Prop
  | nil : Spells part [] []
  | blanks {c : CodePoint} {label slug : List CodePoint} (hc : isBlank c = true)
      (hrest : Spells part (label.dropWhile isBlank) slug) : Spells part (c :: label) ('-' :: slug)
  | other {c : CodePoint} {label slug : List CodePoint} (hc : isBlank c = false)
      (hrest : Spells part label slug) : Spells part (c :: label) (part c ++ slug)

/-- A function on texts that gives only texts over a class of characters, leaves exactly these as they are,
and gives each of them. -/
structure RetractsOnto (p : CodePoint → Bool) (f : Text → Text) : Prop where
  chars : ∀ label, Over p (f label)
  fixed_iff : ∀ text, f text = text ↔ Over p text
  idempotent : ∀ label, f (f label) = f label
  image_iff : ∀ text, (∃ label, f label = text) ↔ Over p text

variable {part : CodePoint → List CodePoint} {c d : CodePoint} {l low rest before a b : List CodePoint}

namespace Spells

lemma unique (ha : Spells part l a) (hb : Spells part l b) : a = b := by
  induction ha generalizing b with
  | nil =>
    cases hb
    rfl
  | blanks hc _ ih =>
    cases hb with
    | blanks _ hb => rw [ih hb]
    | other hvisible _ => exact absurd hc (by simp [hvisible])
  | other hc _ ih =>
    cases hb with
    | blanks hblank _ => exact absurd hblank (by simp [hc])
    | other _ hb => rw [ih hb]

/-- What is spelled of parts over slug characters is over slug characters. -/
lemma chars (h : Spells part l a) (hpart : ∀ c, ∀ d ∈ part c, isSlugChar d = true) :
    ∀ d ∈ a, isSlugChar d = true := by
  induction h with
  | nil => exact List.forall_mem_nil _
  | blanks _ _ ih => exact List.forall_mem_cons.2 ⟨by decide, ih⟩
  | other _ _ ih => exact List.forall_mem_append.2 ⟨hpart _, ih⟩

/-- Characters may be replaced before the label is spelled, if blanks stay blanks. -/
lemma of_map {replace : CodePoint → CodePoint} (hblank : ∀ c, isBlank (replace c) = isBlank c)
    (h : Spells part (l.map replace) a) : Spells (fun c => part (replace c)) l a := by
  generalize hl : l.map replace = replaced at h
  induction h generalizing l with
  | nil =>
    obtain rfl := List.map_eq_nil_iff.1 hl
    exact .nil
  | blanks hc _ ih =>
    obtain ⟨c, rest, rfl, rfl, rfl⟩ := List.map_eq_cons_iff.1 hl
    refine .blanks (hblank c ▸ hc) (ih ?_)
    rw [List.dropWhile_map]
    exact congrArg (fun p => (rest.dropWhile p).map replace) (funext fun d => (hblank d).symm)
  | other hc _ ih =>
    obtain ⟨c, rest, rfl, rfl, rfl⟩ := List.map_eq_cons_iff.1 hl
    exact .other (hblank c ▸ hc) (ih rfl)

end Spells

/-! ### Lower case -/

lemma isBlank_iff : isBlank c = true ↔ ∃ b ∈ blanks, b.1 ≤ c.toNat ∧ c.toNat ≤ b.2 := by
  simp only [isBlank, CharClass.has, List.any_eq_true, Bool.and_eq_true, decide_eq_true_eq]

/-- The number of the first small letter of a row of the table. -/
def firstSmall (r : Nat × Nat × Nat × Int) : Int := r.1 + r.2.2.2

/-- The number of the last small letter of a row of the table. -/
def lastSmall (r : Nat × Nat × Nat × Int) : Int := r.2.1 + r.2.2.2

/-- No blank is a capital of the table. -/
lemma blank_outside : ∀ r ∈ smallLetters, ∀ b ∈ blanks, r.2.1 < b.1 ∨ b.2 < r.1 := by decide +kernel

/-- The small letters of a row of the table are characters beyond ASCII and none is blank, unless the row is
that of the Kelvin sign. -/
lemma row_beyond : ∀ r ∈ smallLetters, (r.1 = 0x212A ∧ r.2.1 = 0x212A) ∨
    128 ≤ firstSmall r ∧ (lastSmall r < 0xD800 ∨ 0xDFFF < firstSmall r ∧ lastSmall r < 0x110000) ∧
      ∀ b ∈ blanks, lastSmall r < b.1 ∨ b.2 < firstSmall r := by
  decide +kernel

/-- Beyond ASCII a character stays as it is or becomes the small letter of a row of the table. -/
lemma lowerChar_cases (hc : 128 ≤ c.toNat) (hdot : c ≠ dottedCapital) : lowerChar c = [c] ∨
    ∃ r ∈ smallLetters, r.1 ≤ c.toNat ∧ c.toNat ≤ r.2.1 ∧
      lowerChar c = [.char (Char.ofNat (c.toNat + r.2.2.2).toNat)] := by
  have hnot : c.toNat ≠ 0x130 := fun h => hdot (CodePoint.toNat_inj.1 h)
  rw [lowerChar, if_neg (by omega), if_neg hnot]
  split
  · rename_i r hr
    have hfound := List.find?_some hr
    simp only [Bool.and_eq_true, decide_eq_true_eq] at hfound
    exact .inr ⟨r, List.mem_of_find?_eq_some hr, hfound.1.1, hfound.1.2, rfl⟩
  · exact .inl rfl

/-- A blank has no lower case of its own. -/
lemma lowerChar_of_isBlank (hc : isBlank c = true) : lowerChar c = [c] := by
  rcases Nat.lt_or_ge c.toNat 128 with hascii | hbeyond
  · rw [lowerChar_of_ascii hascii]
    exact CodePoint.ascii_induction (P := fun c => isBlank c = true → [small c] = [c]) (by decide +kernel)
      hascii hc
  · have hdot : c ≠ dottedCapital := by
      rintro rfl
      exact absurd hc (by decide)
    rcases lowerChar_cases hbeyond hdot with hsame | ⟨r, hr, hfirst, hlast, -⟩
    · exact hsame
    · obtain ⟨b, hb, hlow, hhigh⟩ := isBlank_iff.1 hc
      have := blank_outside r hr b hb
      omega

/-- What can stand for a character in lower case: something without blanks that keeps its part. -/
structure StandsFor (low : List CodePoint) (c : CodePoint) : Prop where
  ne_nil : low ≠ []
  visible : ∀ d ∈ low, isBlank d = false
  filter_eq : low.filter isSlugChar = slugPart c

/-- Beyond ASCII and but for two characters, nothing is left in a slug. -/
lemma standsFor_beyond (hc : 128 ≤ c.toNat) (hdot : c ≠ dottedCapital) (hkelvin : c ≠ kelvinSign)
    (hd : 128 ≤ d.toNat) (hvisible : isBlank d = false) : StandsFor [d] c := by
  have hnot {e : CodePoint} (he : 128 ≤ e.toNat) : isSlugChar e = false := by
    rw [Bool.eq_false_iff, Ne, isSlugChar_iff]
    omega
  have hsmall : isCapital c = false := by
    rw [Bool.eq_false_iff, Ne, isCapital_iff]
    omega
  refine ⟨List.cons_ne_nil d [], by simpa using hvisible, ?_⟩
  simp [slugPart, hnot hc, hnot hd, hsmall, hdot, hkelvin]

/-- A small letter of the table stands for its capital. -/
lemma standsFor_row {r : Nat × Nat × Nat × Int} (hr : r ∈ smallLetters) (hfirst : r.1 ≤ c.toNat)
    (hlast : c.toNat ≤ r.2.1) (hc : 128 ≤ c.toNat) (hdot : c ≠ dottedCapital) (hkelvin : c ≠ kelvinSign) :
    StandsFor [.char (Char.ofNat (c.toNat + r.2.2.2).toNat)] c := by
  rcases row_beyond r hr with hone | ⟨hbeyond, hvalid, houtside⟩
  · have hnumber : kelvinSign.toNat = 0x212A := rfl
    have hsame : c.toNat = kelvinSign.toNat := by omega
    exact absurd (CodePoint.toNat_inj.1 hsame) hkelvin
  · simp only [firstSmall, lastSmall] at hbeyond hvalid houtside
    obtain ⟨n, hn⟩ : ∃ n : Nat, (c.toNat : Int) + r.2.2.2 = n := ⟨(c.toNat + r.2.2.2).toNat, by omega⟩
    have hvalid : n.isValidChar := hvalid.imp (fun h => by omega) fun h => ⟨by omega, by omega⟩
    have hnat : (Char.ofNat n).toNat = n := congrArg Char.toNat (dif_pos hvalid)
    rw [hn, Int.toNat_natCast]
    refine standsFor_beyond hc hdot hkelvin (by rw [CodePoint.toNat_char, hnat]; omega) ?_
    rw [Bool.eq_false_iff, Ne, isBlank_iff, CodePoint.toNat_char, hnat]
    rintro ⟨b, hb, hlow, hhigh⟩
    have := houtside b hb
    omega

/-- The small letters of a character that is not blank stand for it. -/
lemma standsFor_lowerChar (hc : isBlank c = false) : StandsFor (lowerChar c) c := by
  rcases Nat.lt_or_ge c.toNat 128 with hascii | hbeyond
  · have hsmall : isBlank (small c) = false ∧ [small c].filter isSlugChar = slugPart c :=
      CodePoint.ascii_induction (P := fun c => isBlank c = false →
        isBlank (small c) = false ∧ [small c].filter isSlugChar = slugPart c) (by decide +kernel) hascii hc
    rw [lowerChar_of_ascii hascii]
    exact ⟨List.cons_ne_nil _ _, by simpa using hsmall.1, hsmall.2⟩
  · by_cases hdot : c = dottedCapital
    · subst hdot
      exact ⟨by decide, by decide, by decide⟩
    by_cases hkelvin : c = kelvinSign
    · subst hkelvin
      have hk : lowerChar kelvinSign = [.char 'k'] := by decide +kernel
      rw [hk]
      exact ⟨by decide, by decide, by decide⟩
    rcases lowerChar_cases hbeyond hdot with hsame | ⟨r, hr, hfirst, hlast, hrow⟩
    · rw [hsame]
      exact standsFor_beyond hbeyond hdot hkelvin hbeyond hc
    · rw [hrow]
      exact standsFor_row hr hfirst hlast hbeyond hdot hkelvin

lemma standsFor_lowerSigma (before after : List CodePoint) :
    StandsFor [lowerSigma before after] capitalSigma := by
  refine standsFor_beyond (by decide) (by decide) (by decide) ?_ ?_
  all_goals
    unfold lowerSigma
    split <;> decide

lemma lowerFrom_cons_blank (hc : isBlank c = true) :
    lowerFrom before (c :: rest) = c :: lowerFrom (c :: before) rest := by
  have hsigma : c ≠ capitalSigma := by
    rintro rfl
    exact absurd hc (by decide)
  rw [lowerFrom, if_neg hsigma, lowerChar_of_isBlank hc, List.singleton_append]

/-- Wherever a character stands that is not blank, something in lower case stands for it. -/
lemma exists_lowerFrom_cons (before rest : List CodePoint) (hc : isBlank c = false) :
    ∃ low, StandsFor low c ∧ lowerFrom before (c :: rest) = low ++ lowerFrom (c :: before) rest := by
  rw [lowerFrom]
  split
  · rename_i hsigma
    subst hsigma
    exact ⟨_, standsFor_lowerSigma before rest, rfl⟩
  · exact ⟨_, standsFor_lowerChar hc, rfl⟩

/-! ### Runs of blanks -/

lemma hyphenateFrom_append {inRun : Bool} (hne : low ≠ []) (hlow : ∀ d ∈ low, isBlank d = false) :
    hyphenateFrom inRun (low ++ l) = low ++ hyphenateFrom false l := by
  induction low generalizing inRun with
  | nil => exact absurd rfl hne
  | cons d more ih =>
    obtain ⟨hd, hmore⟩ := List.forall_mem_cons.1 hlow
    rw [List.cons_append, hyphenateFrom, if_neg (by simp [hd])]
    cases more with
    | nil => rfl
    | cons e more =>
      rw [ih (List.cons_ne_nil e more) hmore]
      rfl

/-- A label spells its slug. Inside a run of blanks the slug is that of what stands behind the run. -/
lemma spells_hyphenateFrom (before label : List CodePoint) :
    Spells slugPart label ((hyphenateFrom false (lowerFrom before label)).filter isSlugChar) ∧
      Spells slugPart (label.dropWhile isBlank)
        ((hyphenateFrom true (lowerFrom before label)).filter isSlugChar) := by
  induction label generalizing before with
  | nil => exact ⟨.nil, .nil⟩
  | cons c rest ih =>
    obtain ⟨hrest, hbehind⟩ := ih (c :: before)
    cases hc : isBlank c with
    | true =>
      rw [lowerFrom_cons_blank hc, List.dropWhile_cons_of_pos hc]
      simp only [hyphenateFrom, hc, if_true]
      exact ⟨.blanks hc hbehind, hbehind⟩
    | false =>
      obtain ⟨low, hlow, hsame⟩ := exists_lowerFrom_cons before rest hc
      rw [List.dropWhile_cons_of_neg (by simp [hc]), hsame]
      simp only [hyphenateFrom_append hlow.ne_nil hlow.visible, List.filter_append, hlow.filter_eq]
      exact ⟨.other hc hrest, .other hc hrest⟩

/-! ### Slugs and names of tokens -/

/-- The slug of a label is what the label spells. -/
lemma slug_eq_iff {label text : Text} : slug label = text ↔ Spells slugPart label.toList text.toList := by
  have hspelled : Spells slugPart label.toList (slug label).toList := (spells_hyphenateFrom [] label.toList).1
  exact ⟨fun h => h ▸ hspelled, fun h => ext_toList (hspelled.unique h)⟩

lemma isBlank_unslashed (c : CodePoint) : isBlank (unslashed c) = isBlank c := by
  unfold unslashed
  split
  · rename_i hslash
    subst hslash
    decide
  · rfl

lemma tokenName_eq_iff {name text : Text} :
    tokenName name = text ↔ Spells tokenPart name.toList text.toList := by
  have hslug : Spells slugPart (name.toList.map unslashed) (tokenName name).toList := slug_eq_iff.1 rfl
  have hspelled := hslug.of_map isBlank_unslashed
  exact ⟨fun h => h ▸ hspelled, fun h => ext_toList (hspelled.unique h)⟩

lemma isBlank_of_slug (hc : isSlugChar c = true) : isBlank c = false := by
  have hascii : c.toNat < 128 := by
    have := isSlugChar_iff.1 hc
    omega
  exact CodePoint.ascii_induction (P := fun c => isSlugChar c = true → isBlank c = false) (by decide +kernel)
    hascii hc

lemma spells_self (hpart : ∀ c, isSlugChar c = true → part c = [c]) (hl : ∀ c ∈ l, isSlugChar c = true) :
    Spells part l l := by
  induction l with
  | nil => exact .nil
  | cons c rest ih =>
    obtain ⟨hc, hrest⟩ := List.forall_mem_cons.1 hl
    have hspells := Spells.other (isBlank_of_slug hc) (ih hrest)
    rwa [hpart c hc] at hspells

/-- What labels spell are slugs, and a slug spells itself, if parts are over slug characters and these are
their own parts. -/
lemma retractsOnto_of_spells {f : Text → Text}
    (hf : ∀ label text, f label = text ↔ Spells part label.toList text.toList)
    (hpart : ∀ c, ∀ d ∈ part c, isSlugChar d = true) (hself : ∀ c, isSlugChar c = true → part c = [c]) :
    RetractsOnto isSlugChar f := by
  have hover (label : Text) : Over isSlugChar (f label) := ((hf label _).1 rfl).chars hpart
  have hfixed (text : Text) (h : Over isSlugChar text) : f text = text := (hf _ _).2 (spells_self hself h)
  exact {
    chars := hover
    fixed_iff := fun text => ⟨fun h => h ▸ hover text, hfixed text⟩
    idempotent := fun label => hfixed _ (hover label)
    image_iff := fun text => ⟨fun ⟨label, h⟩ => h ▸ hover label, fun h => ⟨text, hfixed text h⟩⟩ }

lemma isSlugChar_of_slugPart (c : CodePoint) : ∀ d ∈ slugPart c, isSlugChar d = true := by
  unfold slugPart
  split_ifs with hslug hcapital
  · simpa using hslug
  · simpa using isSlugChar_small (isWordChar_of_capital hcapital)
  all_goals decide

lemma slugPart_of_slug (hc : isSlugChar c = true) : slugPart c = [c] := if_pos hc

lemma tokenPart_of_slug (hc : isSlugChar c = true) : tokenPart c = [c] := by
  have hslash : c ≠ '/' := by
    rintro rfl
    exact absurd hc (by decide)
  rw [tokenPart, unslashed, if_neg hslash, slugPart_of_slug hc]

/-- Every label has a slug, and every name the name of a token: what its characters spell, whatever they are.
Both are slugs, both leave exactly the slugs as they are, and each slug is one. -/
theorem slugs_of_labels :
    (∀ label text, slug label = text ↔ Spells slugPart label.toList text.toList) ∧
      (∀ name text, tokenName name = text ↔ Spells tokenPart name.toList text.toList) ∧
      RetractsOnto isSlugChar slug ∧ RetractsOnto isSlugChar tokenName :=
  ⟨fun _ _ => slug_eq_iff, fun _ _ => tokenName_eq_iff,
    retractsOnto_of_spells (fun _ _ => slug_eq_iff) isSlugChar_of_slugPart fun _ => slugPart_of_slug,
    retractsOnto_of_spells (fun _ _ => tokenName_eq_iff) (fun _ => isSlugChar_of_slugPart _) fun _ =>
      tokenPart_of_slug⟩

/-- The Kelvin sign and the dotted capital leave letters, and a star between blanks parts two hyphens. -/
example : slug "\u212A\u2003\u00A0\u0130\u00C0 ★ 2" = "k-i--2" ∧
    tokenName "Color/Primary 500" = "color-primary-500" := by
  decide +kernel

end Handoff.Naming
