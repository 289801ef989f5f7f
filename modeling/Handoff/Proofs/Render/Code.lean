import Mathlib.Data.List.Infix
import Handoff.Proofs.Render.Pictures
import Handoff.Proofs.Render.TopLevel

/-!
The code in a text of a twig file: a print, a tag or a comment begins with one of three pairs of
characters.

A pair can begin at the end of one piece of text and end in the next one. Texts that do not end in a
brace have the code of their pieces and no more, so the code of a file can be read off its pieces.
-/

namespace Handoff.Render

open Asset Design Naming Text

/-! ### Where code begins -/

/-- What makes code of a brace in front of it. -/
def isCodeMark (c : CodePoint) : Bool := c == '\x7b' || c == '%' || c == '#'

/-- Whether code begins here. -/
def beginsCode : List CodePoint → Bool
  | brace :: mark :: _ => brace == '\x7b' && isCodeMark mark
  | _ => false

/-- The text from each beginning of code on. -/
def codeStarts (text : List CodePoint) : List (List CodePoint) := text.tails.filter beginsCode

/-- Code begins in a text as often as there are entries, and there it reads like them. -/
def HasCode (codes : List Text) (text : Text) : Prop :=
  List.Forall₂ (fun code start => code.toList <+: start) codes (codeStarts text.toList)

section

variable {a b : List CodePoint}

lemma codeStarts_cons (c : CodePoint) (text : List CodePoint) :
    codeStarts (c :: text) = if beginsCode (c :: text) then (c :: text) :: codeStarts text
      else codeStarts text := by
  rw [codeStarts, List.tails_cons, List.filter_cons]
  rfl

/-- Code begins in a text where it begins in its parts, unless the seam makes more of it. -/
lemma codeStarts_append (h : a.getLast? = some (.char '\x7b') → ∀ c ∈ b.head?, isCodeMark c = false) :
    codeStarts (a ++ b) = (codeStarts a).map (· ++ b) ++ codeStarts b := by
  induction a with
  | nil => rfl
  | cons c rest ih =>
    cases rest with
    | nil =>
      have hseam : beginsCode (c :: b) = false := by
        cases b with
        | nil => rfl
        | cons d b =>
          by_cases hc : c = .char '\x7b'
          · have hd := h (by rw [hc]; rfl) d rfl
            simp [beginsCode, hd]
          · simp [beginsCode, hc]
      rw [List.singleton_append, codeStarts_cons, hseam]
      rfl
    | cons d rest =>
      have hrest := ih fun hlast => h (by rw [List.getLast?_cons_cons]; exact hlast)
      have hbegins : beginsCode (c :: d :: rest ++ b) = beginsCode (c :: d :: rest) := rfl
      rw [List.cons_append, codeStarts_cons, codeStarts_cons c, hrest, ← List.cons_append, hbegins]
      split <;> rfl

/-- No code begins without a brace. -/
lemma codeStarts_of_no_brace (h : ∀ c ∈ a, c ≠ '\x7b') : codeStarts a = [] := by
  induction a with
  | nil => rfl
  | cons c rest ih =>
    obtain ⟨hc, hrest⟩ := List.forall_mem_cons.1 h
    have hbegins : beginsCode (c :: rest) = false := by
      cases rest with
      | nil => rfl
      | cons d rest => simp [beginsCode, hc]
    rw [codeStarts_cons, hbegins, ih hrest]
    rfl

end

/-! ### Escaped descriptions -/

lemma no_brace_escapeMarkupChar {c : CodePoint} (hc : c ≠ '\x7b') :
    ∀ d ∈ escapeMarkupChar c, d ≠ '\x7b' := by
  unfold escapeMarkupChar
  split_ifs with h1 h2 h3 h4 h5
  · decide
  · decide
  · decide
  · decide
  · decide
  · simpa using hc

/-- What a character is escaped to makes code of a brace in front when the character does. -/
lemma beginsCode_escapeMarkupChar (c : CodePoint) (rest : List CodePoint) :
    beginsCode (.char '\x7b' :: (escapeMarkupChar c ++ rest)) = isCodeMark c := by
  unfold escapeMarkupChar
  split_ifs with h1 h2 h3 h4 h5
  · subst h1; rfl
  · subst h2; rfl
  · subst h3; rfl
  · subst h4; rfl
  · subst h5; rfl
  · rfl

/-- Escaping for markup leaves the beginnings of code where they are, and adds none. -/
theorem codeStarts_escapeMarkup (text : List CodePoint) :
    codeStarts (text.flatMap escapeMarkupChar) =
      (codeStarts text).map (·.flatMap escapeMarkupChar) := by
  induction text with
  | nil => rfl
  | cons c rest ih =>
    rw [List.flatMap_cons]
    by_cases hc : c = .char '\x7b'
    · subst hc
      have hbegins : beginsCode (.char '\x7b' :: rest.flatMap escapeMarkupChar) =
          beginsCode (.char '\x7b' :: rest) := by
        cases rest with
        | nil => rfl
        | cons d others => rw [List.flatMap_cons, beginsCode_escapeMarkupChar]; rfl
      change codeStarts (.char '\x7b' :: rest.flatMap escapeMarkupChar) = _
      rw [codeStarts_cons, codeStarts_cons, hbegins, ih]
      split <;> rfl
    · have hplain := no_brace_escapeMarkupChar hc
      have hbegins : beginsCode (c :: rest) = false := by
        cases rest with
        | nil => rfl
        | cons d others => simp [beginsCode, hc]
      rw [codeStarts_append fun hlast => absurd rfl (hplain _ (List.mem_of_getLast? hlast)),
        codeStarts_of_no_brace hplain, ih, codeStarts_cons, hbegins]
      rfl

/-! ### Stretches of text -/

/-- A text with this code in it, which makes no more code with what comes after it. -/
structure Stretch (codes : List Text) (text : Text) : Prop where
  code : HasCode codes text
  sealed : text.toList.getLast? ≠ some (.char '\x7b')

variable {codes more : List Text}

namespace Stretch

variable {a b text : Text}

lemma of_no_brace (h : ∀ c ∈ text.toList, c ≠ '\x7b') : Stretch [] text := by
  refine ⟨?_, fun hlast => h _ (List.mem_of_getLast? hlast) rfl⟩
  rw [HasCode, codeStarts_of_no_brace h]
  exact .nil

lemma append (h : Stretch codes a) (h' : Stretch more b) : Stretch (codes ++ more) (a ++ b) := by
  constructor
  · rw [HasCode, toList_append, codeStarts_append fun hlast => absurd hlast h.sealed]
    refine List.rel_append ?_ h'.code
    refine List.forall₂_map_right_iff.2 (h.code.imp fun code start hprefix => ?_)
    exact hprefix.trans (List.prefix_append _ _)
  · rw [toList_append, List.getLast?_append]
    have hlast := h'.sealed
    cases hb : b.toList.getLast? with
    | none => exact h.sealed
    | some c =>
      rw [hb] at hlast
      exact hlast

/-- One beginning of code and no further brace. -/
lemma opened {mark : CodePoint} {rest : List CodePoint}
    (htext : text.toList = .char '\x7b' :: mark :: rest) (hmark : isCodeMark mark = true)
    (hseam : beginsCode (mark :: rest) = false) (hrest : ∀ c ∈ rest, c ≠ '\x7b') (hne : rest ≠ []) :
    Stretch [text] text := by
  have hbegins : beginsCode text.toList = true := by
    rw [htext]
    exact hmark
  constructor
  · have hstarts : codeStarts text.toList = [text.toList] := by
      rw [htext] at hbegins ⊢
      rw [codeStarts_cons, hbegins, codeStarts_cons, hseam, codeStarts_of_no_brace hrest]
      rfl
    rw [HasCode, hstarts]
    exact .cons (List.prefix_refl _) .nil
  · obtain ⟨c, others, rfl⟩ := List.exists_cons_of_ne_nil hne
    rw [htext, List.getLast?_cons_cons, List.getLast?_cons_cons]
    exact fun hlast => hrest _ (List.mem_of_getLast? hlast) rfl

/-- A print is code. -/
lemma printed (h : ∀ c ∈ text.toList, c ≠ '\x7b') :
    Stretch [Render.printed text] (Render.printed text) := by
  have hlist : (Render.printed text).toList =
      .char '\x7b' :: .char '\x7b' :: (" " ++ text ++ " \x7d\x7d" : Text).toList := by
    simp only [Render.printed, toList_append, List.append_assoc]
    rfl
  refine opened hlist (by decide) rfl ?_ (List.cons_ne_nil _ _)
  simp only [toList_append, List.forall_mem_append]
  exact ⟨⟨by decide, h⟩, by decide⟩

/-- A value between quotes: whatever it ends in, the quote makes no code of it. -/
lemma quoted (h : HasCode codes text) : Stretch codes (Render.quoted text) := by
  have hquote : codeStarts [.char '"'] = [] := rfl
  have hseam : codeStarts (text.toList ++ [.char '"']) =
      (codeStarts text.toList).map (· ++ [.char '"']) ++ [] := by
    rw [codeStarts_append (by simp [isCodeMark]), hquote]
  have hlist : (Render.quoted text).toList = .char '"' :: (text.toList ++ [.char '"']) := rfl
  have hbegins : beginsCode (.char '"' :: (text.toList ++ [.char '"'])) = false := by
    cases text.toList <;> rfl
  constructor
  · rw [HasCode, hlist, codeStarts_cons, hbegins, hseam, List.append_nil]
    refine List.forall₂_map_right_iff.2 (h.imp fun code start hprefix => ?_)
    exact hprefix.trans (List.prefix_append _ _)
  · rw [hlist, ← List.cons_append, List.getLast?_concat]
    decide

lemma indented (h : Stretch codes text) (depth : Nat) : Stretch codes (Render.indented depth text) := by
  have hblanks : Stretch [] (ofList (List.replicate (2 * depth) (.char ' '))) := by
    refine .of_no_brace fun c hc => ?_
    rw [List.eq_of_mem_replicate hc]
    decide
  exact hblanks.append h

end Stretch

/-! ### Lines -/

/-- Lines with this code in them, one after the other. -/
inductive LinesHave : List Text → List Text → Prop
  | nil : LinesHave [] []
  | cons {codes more lines : List Text} {line : Text} (h : Stretch codes line)
      (hrest : LinesHave more lines) : LinesHave (codes ++ more) (line :: lines)

namespace LinesHave

variable {lines others : List Text}

lemma append (h : LinesHave codes lines) (h' : LinesHave more others) :
    LinesHave (codes ++ more) (lines ++ others) := by
  induction h with
  | nil => exact h'
  | cons hline _ ih =>
    rw [List.append_assoc]
    exact .cons hline ih

lemma single {line : Text} (h : Stretch codes line) : LinesHave codes [line] := by
  have hone := cons h nil
  rwa [List.append_nil] at hone

lemma eq_nil (h : LinesHave codes []) : codes = [] := by
  cases h
  rfl

lemma indented (h : LinesHave codes lines) (depth : Nat) :
    LinesHave codes (lines.map (Render.indented depth)) := by
  induction h with
  | nil => exact .nil
  | cons hline _ ih => exact .cons (hline.indented depth) ih

/-- Lines one below the other have the code of each. -/
lemma unlines (h : LinesHave codes lines) : Stretch codes (Render.unlines lines) := by
  induction h with
  | nil => exact .of_no_brace nofun
  | @cons codes more rest line hline hrest ih =>
    by_cases hempty : rest = []
    · rw [hempty, unlines_singleton]
      rw [hempty] at hrest
      cases hrest
      rwa [List.append_nil]
    · have hend : Stretch [] "\n" := .of_no_brace (by decide)
      rw [unlines_cons line hempty, append_assoc]
      exact hline.append (hend.append ih)

end LinesHave

end Handoff.Render
