import Handoff.Proofs.Component.Kept
import Handoff.Proofs.Naming.Labels

/-!
The classes that a series of labels is given.

Literal labels, numbered classes and positions share one space of names, so any label may ask for a class
that an earlier one has. What is used after each label are exactly the classes given so far, and there are
as many as labels; this carries the induction over labels.
-/

namespace Handoff.Naming

open Text

/-- The class that a label asks for after some others: its slug, or the fallback with the position of the
label. -/
def wantedClass (rules : Rules) (earlier : List Text) (label : Text) : Text :=
  if slug label = "" then rules.fallbackElement ++ "-" ++ toString (earlier.length + 1) else slug label

/-- The class that is given to a label after earlier classes. -/
structure IsClassed (rules : Rules) (earlier : List Text) (label name : Text) : Prop where
  ends : Searches (· ∈ earlier) (wantedClass rules earlier label ++ "-") (wantedClass rules earlier label) 1
    name
  kept : wantedClass rules earlier label ∉ earlier → name = wantedClass rules earlier label
  numbered : wantedClass rules earlier label ∈ earlier → ∃ k : Int, 1 ≤ k ∧
    name = ElementNames.numbered (wantedClass rules earlier label) k ∧ name ∉ earlier ∧
    ∀ j, 1 ≤ j → j < k → ElementNames.numbered (wantedClass rules earlier label) j ∈ earlier

variable {rules : Rules} {names names' : ElementNames} {earlier : List Text} {label name : Text}

/-- Whatever search ends, the class it ends with is the one that a label is given. -/
lemma isClassed_of_searches (h : Searches (· ∈ earlier) (wantedClass rules earlier label ++ "-")
    (wantedClass rules earlier label) 1 name) : IsClassed rules earlier label name where
  ends := h
  kept hfree := (h.least.resolve_right fun hused => hfree hused.1).2
  numbered hused := (h.least.resolve_left fun hfree => hfree.1 hused).2

lemma IsClassed.free (h : IsClassed rules earlier label name) : name ∉ earlier := by
  rcases h.ends.least with ⟨hfree, rfl⟩ | ⟨-, k, -, -, hfree, -⟩
  · exact hfree
  · exact hfree

/-- The class for a label is a nonempty slug when the fallback is. -/
lemma IsClassed.slug (hfallback : Over isSlugChar rules.fallbackElement)
    (h : IsClassed rules earlier label name) : name ≠ "" ∧ Over isSlugChar name := by
  have hwanted : wantedClass rules earlier label ≠ "" ∧
      Over isSlugChar (wantedClass rules earlier label) := by
    unfold wantedClass
    split
    · exact ⟨ElementNames.numbered_ne_empty ((earlier.length + 1 : Nat) : Int),
        ElementNames.over_numbered (k := (earlier.length + 1 : Nat)) hfallback (by omega)⟩
    · rename_i hne
      exact ⟨hne, isSlug_slug label⟩
  rcases h.ends.least with ⟨-, rfl⟩ | ⟨-, k, hk, rfl, -, -⟩
  · exact hwanted
  · exact ⟨ElementNames.numbered_ne_empty k, ElementNames.over_numbered hwanted.2 (by omega)⟩

lemma slugOf_labelValue (label : Option Text) :
    slugOf (labelValue label) = .ok (slug (label.getD "")) := by
  rw [slugOf, orElse_labelValue]
  rfl

namespace ElementNames

/-- The classes given so far are these, in order. -/
structure Holds (names : ElementNames) (given : List Text) : Prop where
  labels : names.labels = given.length
  nodup : given.Nodup
  used : ∀ name, names.used.contains name = true ↔ name ∈ given

lemma holds_empty : empty.Holds [] where
  labels := rfl
  nodup := .nil
  used name := by
    rw [empty, Std.TreeSet.contains_emptyc]
    simp

lemma Holds.insert (h : names.Holds earlier) (hfree : name ∉ earlier) :
    Holds ⟨names.labels + 1, names.used.insert name⟩ (earlier ++ [name]) where
  labels := by rw [h.labels, List.length_append, List.length_singleton]
  nodup := List.nodup_append'.2 ⟨h.nodup, List.nodup_singleton name, by simpa using hfree⟩
  used other := by
    rw [Std.TreeSet.contains_insert, Bool.or_eq_true, h.used other, List.mem_append,
      List.mem_singleton, or_comm, beq_iff_eq, Std.compare_eq_iff_eq, eq_comm (a := name)]

/-- As many classes were given as there were labels, so the position is that of the label. -/
lemma base_of_holds (h : names.Holds earlier) (rules : Rules) (label : Text) :
    names.base rules (Text.slug label) = wantedClass rules earlier label := by
  unfold base wantedClass
  rw [h.labels]
  by_cases hempty : Text.slug label = ""
  · rw [if_pos hempty, hempty]
    rfl
  · have hsome : ¬ (Text.slug label).isEmpty = true := fun h => hempty (ext_toList (List.isEmpty_iff.1 h))
    rw [if_neg hempty, if_neg hsome]

lemma searches_choose {slug : Text} (hfree : names.used.contains (names.choose rules slug) = false) :
    Searches (fun name => names.used.contains name = true) (names.base rules slug ++ "-")
      (names.base rules slug) 1 (names.choose rules slug) := by
  simp only [choose] at hfree ⊢
  split
  · rename_i htaken
    rw [if_pos htaken] at hfree
    exact .next htaken (searches_firstFree hfree)
  · rename_i hbase
    exact .found hbase

/-- A label is given a class, which is used from then on. -/
theorem exists_resolve (h : names.Holds earlier) (rules : Rules) (label : Option Text) :
    ∃ name names', names.resolve rules (labelValue label) = .ok (name, names') ∧
      IsClassed rules earlier (label.getD "") name ∧ names'.Holds (earlier ++ [name]) := by
  have hresolve : names.resolve rules (labelValue label) =
      .ok (names.choose rules (Text.slug (label.getD "")),
        ⟨names.labels + 1, names.used.insert (names.choose rules (Text.slug (label.getD "")))⟩) := by
    rw [resolve, slugOf_labelValue, ok_bind]
    rfl
  have hclassed : IsClassed rules earlier (label.getD "") (names.choose rules (Text.slug (label.getD ""))) := by
    have hends := searches_choose (choose_cases rules names (Text.slug (label.getD ""))).1
    have hsame : (fun name => names.used.contains name = true) = (· ∈ earlier) :=
      funext fun name => propext (h.used name)
    rw [hsame, base_of_holds h] at hends
    exact isClassed_of_searches hends
  exact ⟨_, _, hresolve, hclassed, h.insert hclassed.free⟩

/-- Labels one after the other are given classes, each after those before it. -/
theorem exists_resolveAll (h : names.Holds earlier) (rules : Rules) (labels : List (Option Text)) :
    ∃ given names', names.resolveAll rules (labels.map labelValue) = .ok (given, names') ∧
      given.length = labels.length ∧ names'.Holds (earlier ++ given) ∧
      ∀ i label name, labels[i]? = some label → given[i]? = some name →
        IsClassed rules (earlier ++ given.take i) (label.getD "") name := by
  induction labels generalizing names earlier with
  | nil => exact ⟨[], names, rfl, rfl, by rwa [List.append_nil], fun i label name hlabel => nomatch hlabel⟩
  | cons label rest ih =>
    obtain ⟨name, names', hresolve, hclassed, hholds⟩ := exists_resolve h rules label
    obtain ⟨given, names'', hgiven, hlength, hafter, hturn⟩ := ih hholds
    have hassoc (more : List Text) : earlier ++ [name] ++ more = earlier ++ name :: more := by simp
    refine ⟨name :: given, names'', ?_, congrArg Nat.succ hlength, hassoc given ▸ hafter, ?_⟩
    · rw [List.map_cons, resolveAll, hresolve, ok_bind]
      simp only [hgiven, ok_bind]
      rfl
    · intro i other otherName hlabel hname
      cases i with
      | zero =>
        obtain rfl := Option.some.inj hlabel
        obtain rfl := Option.some.inj hname
        simpa using hclassed
      | succ i =>
        rw [List.take_succ_cons, ← hassoc]
        exact hturn i other otherName hlabel hname

end ElementNames

/-- All labels of a series, whatever they are and under whatever rules, are given classes. These differ from
each other, they are what is used in the end, and each is what its label asks for after the ones before it,
or that with the least free number. With the usual fallback they are nonempty slugs. -/
theorem classes_of_labels (rules : Rules) (labels : List (Option Text)) :
    ∃ given names, ElementNames.empty.resolveAll rules (labels.map labelValue) = .ok (given, names) ∧
      given.length = labels.length ∧ given.Nodup ∧
      (∀ name, names.used.contains name = true ↔ name ∈ given) ∧
      (∀ i label name, labels[i]? = some label → given[i]? = some name →
        IsClassed rules (given.take i) (label.getD "") name) ∧
      (rules.fallbackElement = Rules.standard.fallbackElement →
        ∀ name ∈ given, name ≠ "" ∧ Over isSlugChar name) := by
  obtain ⟨given, names, hgiven, hlength, hholds, hturn⟩ :=
    ElementNames.exists_resolveAll ElementNames.holds_empty rules labels
  refine ⟨given, names, hgiven, hlength, hholds.nodup, hholds.used, hturn, fun hfallback name hname => ?_⟩
  obtain ⟨i, hi⟩ := List.mem_iff_getElem?.1 hname
  obtain ⟨label, hlabel⟩ : ∃ label, labels[i]? = some label := by
    obtain ⟨hlt, -⟩ := List.getElem?_eq_some_iff.1 hi
    exact ⟨_, List.getElem?_eq_getElem (hlength ▸ hlt)⟩
  exact (hturn i label name hlabel hi).slug (hfallback ▸ over_ofString (by decide))

/-- Literal labels may ask for the class that a number or a position would give. -/
example : (ElementNames.empty.resolveAll .standard
    (([some "Icon", some "icon-1", some "icon", none, some "el-5", some "★"] : List (Option Text)).map
      labelValue)).map Prod.fst =
      .ok ["icon", "icon-1", "icon-2", "el-4", "el-5", "el-6"] := rfl

end Handoff.Naming
