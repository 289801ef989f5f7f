import Handoff.Proofs.Asset.Footprint
import Handoff.Proofs.Files.Names
import Mathlib.Data.List.Nodup

/-!
Layers with different ids have different picture files, and different identifiers for them.

File names and identifiers forget characters, and the name of a layer may end in numbers that look
like an id. Read from its end, an identifier still gives the id back: an id is a pair of numbers, and
the id of a layer inside an instance is a chain of pairs behind the only capital letter.
-/

namespace Handoff.Asset

open Design Files Text

/-! ### Ids -/

/-- A nonempty text of digits. -/
structure IsNumeral (text : Text) : Prop where
  digits : Over isNumeralChar text
  ne_empty : text ≠ ""

/-- A pair of numbers, each as it is written. -/
abbrev NumberPair := Text × Text

/-- A chain of pairs of numbers as it is written. -/
def chainText (pairs : List NumberPair) : Text :=
  Text.intercalate ";" (pairs.map fun p => p.1 ++ ":" ++ p.2)

/-- All numbers of a chain are numerals. -/
def AreNumerals (pairs : List NumberPair) : Prop := ∀ p ∈ pairs, IsNumeral p.1 ∧ IsNumeral p.2

/-- The ids of layers: one pair of numbers, or inside an instance a chain of at least two. -/
inductive IsNodeId : Text → Prop
  | pair {a b : Text} (ha : IsNumeral a) (hb : IsNumeral b) : IsNodeId (a ++ ":" ++ b)
  | chain {pairs : List NumberPair} (hpairs : AreNumerals pairs) (hlength : 2 ≤ pairs.length) :
      IsNodeId ("I" ++ chainText pairs)

instance : DecidablePred IsNumeral := fun text =>
  decidable_of_iff ((∀ c ∈ text.toList, isNumeralChar c = true) ∧ text ≠ "")
    ⟨fun h => ⟨h.1, h.2⟩, fun h => ⟨h.digits, h.ne_empty⟩⟩

instance : DecidablePred AreNumerals := fun pairs =>
  inferInstanceAs (Decidable (∀ p ∈ pairs, IsNumeral p.1 ∧ IsNumeral p.2))

/-! ### Identifiers -/

/-- A character as it stands in an identifier. -/
def flat (c : CodePoint) : CodePoint := if isWordChar c then c else '_'

/-- The numbers of a chain, one after the other. -/
def numbers (pairs : List NumberPair) : List (List CodePoint) :=
  pairs.flatMap fun p => [p.1.toList, p.2.toList]

lemma numbers_inj {pairs pairs' : List NumberPair} (h : numbers pairs = numbers pairs') :
    pairs = pairs' := by
  induction pairs generalizing pairs' with
  | nil =>
    cases pairs' with
    | nil => rfl
    | cons p rest => simp [numbers] at h
  | cons p rest ih =>
    cases pairs' with
    | nil => simp [numbers] at h
    | cons p' rest' =>
      simp only [numbers, List.flatMap_cons, List.cons_append, List.nil_append, List.cons.injEq] at h
      obtain ⟨h1, h2, hrest⟩ := h
      rw [ih hrest, Prod.ext (ext_toList h1) (ext_toList h2)]

lemma flat_of_word {c : CodePoint} (h : isWordChar c = true) : flat c = c := if_pos h

lemma map_flat_of_word {text : Text} (h : Over isWordChar text) :
    text.toList.map flat = text.toList :=
  (List.map_congr_left fun c hc => flat_of_word (h c hc)).trans (List.map_id _)

lemma IsNumeral.notMem {text : Text} (h : IsNumeral text) {c : CodePoint}
    (hc : isNumeralChar c = false) : c ∉ text.toList := by
  intro hmem
  rw [h.digits c hmem] at hc
  cases hc

lemma IsNumeral.map_flat {text : Text} (h : IsNumeral text) : text.toList.map flat = text.toList :=
  map_flat_of_word (h.digits.mono fun _ => isWordChar_of_numeral)

lemma map_flat_pair {a b : Text} (ha : IsNumeral a) (hb : IsNumeral b) :
    (a ++ ":" ++ b).toList.map flat = a.toList ++ .char '_' :: b.toList := by
  simp only [toList_append, List.map_append, ha.map_flat, hb.map_flat, List.append_assoc]
  rfl

/-- In an identifier the numbers of a chain are kept apart by underscores. -/
lemma map_flat_chainText {pairs : List NumberPair} (h : AreNumerals pairs) :
    (chainText pairs).toList.map flat = List.intercalate [.char '_'] (numbers pairs) := by
  induction pairs with
  | nil => rfl
  | cons p rest ih =>
    obtain ⟨⟨ha, hb⟩, hrest⟩ := List.forall_mem_cons.1 h
    have hfirst := map_flat_pair ha hb
    cases rest with
    | nil =>
      simpa [chainText, Text.intercalate, numbers, List.intercalate_cons_cons] using hfirst
    | cons q others =>
      have hchain : (chainText (p :: q :: others)).toList =
          (p.1 ++ ":" ++ p.2).toList ++ (";" : Text).toList ++ (chainText (q :: others)).toList := by
        simp only [chainText, Text.intercalate, List.map_cons, List.intercalate_cons_cons]
      have hnumbers : numbers (p :: q :: others) =
          p.1.toList :: p.2.toList :: q.1.toList :: (q.2.toList :: numbers others) := rfl
      have hothers : numbers (q :: others) = q.1.toList :: (q.2.toList :: numbers others) := rfl
      rw [hchain, List.map_append, List.map_append, hfirst, ih hrest, hnumbers, hothers,
        List.intercalate_cons_cons, List.intercalate_cons_cons]
      simp only [List.append_assoc, List.cons_append, List.nil_append]
      rfl

lemma underscore_notMem_numbers {pairs : List NumberPair} (h : AreNumerals pairs) :
    ∀ l ∈ numbers pairs, .char '_' ∉ l := by
  intro l hl
  obtain ⟨p, hp, hl⟩ := List.mem_flatMap.1 hl
  rcases List.mem_cons.1 hl with rfl | hl
  · exact (h p hp).1.notMem (by decide)
  · cases List.mem_singleton.1 hl
    exact (h p hp).2.notMem (by decide)

/-- A chain can be read back from an identifier. -/
lemma chain_inj {pairs pairs' : List NumberPair} (h : AreNumerals pairs) (h' : AreNumerals pairs')
    (hne : pairs ≠ []) (hne' : pairs' ≠ [])
    (he : (chainText pairs).toList.map flat = (chainText pairs').toList.map flat) :
    pairs = pairs' := by
  have hnumbers {pairs : List NumberPair} (h : AreNumerals pairs) (hne : pairs ≠ []) :
      ((chainText pairs).toList.map flat).splitOn (.char '_') = numbers pairs := by
    rw [map_flat_chainText h]
    refine List.splitOn_intercalate _ (underscore_notMem_numbers h) fun hnil => hne ?_
    exact numbers_inj hnil
  refine numbers_inj ?_
  rw [← hnumbers h hne, he, hnumbers h' hne']

/-! ### Identifiers of files -/

/-- The identifier of a file, in front of it perhaps a word. -/
lemma exists_handle_eq (file : Text) : ∃ lead, (∀ c ∈ lead, c ≠ .char 'I') ∧
    (handle file).toList = lead ++ file.toList.map flat := by
  have hlead (b : Bool) : ∀ c ∈ (if b then "asset_" else "" : Text).toList, c ≠ .char 'I' := by
    cases b <;> decide
  exact ⟨_, hlead _, rfl⟩

lemma flat_fileChar (c : CodePoint) : flat (if isFileChar c then c else '-') = flat c := by
  split
  · rfl
  · rename_i hc
    have hword : isWordChar c = false := by
      by_contra hword
      exact hc (isFileChar_of_word (by simpa using hword))
    simp [flat, hword, show isWordChar '-' = false by decide]

lemma flat_ne_of_slug {c : CodePoint} (h : isSlugChar c = true) : flat c ≠ .char 'I' := by
  unfold flat
  split
  · rintro rfl
    exact absurd h (by decide)
  · decide

/-- The identifier of a picture's file: something without a capital I, the id and the extension. -/
lemma exists_handle_fileName {layer : Layer} {format : ExportFormat} {file : Text}
    (h : fileName layer format = .ok file) :
    ∃ lead id ext, layer.id = .text id ∧ (∀ c ∈ lead, c ≠ .char 'I') ∧ ext.length = 4 ∧
      (handle file).toList = (lead ++ .char '_' :: id.toList.map flat) ++ ext := by
  obtain ⟨slug, id, hslug, hid, rfl⟩ := fileName_eq_ok h
  obtain ⟨lead, hlead, hhandle⟩ := exists_handle_eq (slug ++ "-" ++ fileId id ++ "." ++ format.name)
  have hflat : (fileId id).toList.map flat = id.toList.map flat := by
    simp only [fileId, List.map_map]
    exact List.map_congr_left fun c _ => flat_fileChar c
  refine ⟨lead ++ slug.toList.map flat, id, ("." ++ format.name : Text).toList.map flat, hid, ?_, ?_,
    ?_⟩
  · refine List.forall_mem_append.2 ⟨hlead, fun c hc => ?_⟩
    obtain ⟨d, hd, rfl⟩ := List.mem_map.1 hc
    exact flat_ne_of_slug (hslug d hd)
  · cases format <;> rfl
  · rw [hhandle]
    simp only [toList_append, List.map_append, hflat, List.append_assoc]
    rfl

/-! ### Telling ids apart -/

section

variable {α : Type} {sep : α} {u v b c : List α}

/-- The last place of a separator splits a list in one way. -/
lemma eq_of_append_cons_last (hb : sep ∉ b) (hc : sep ∉ c) (h : u ++ sep :: b = v ++ sep :: c) :
    u = v ∧ b = c := by
  rcases List.append_eq_append_iff.1 h with ⟨as, rfl, hrest⟩ | ⟨as, rfl, hrest⟩
  · rcases as with _ | ⟨x, as⟩
    · exact ⟨(List.append_nil u).symm, (List.cons.inj hrest).2⟩
    · have htail := (List.cons.inj hrest).2
      simp [htail] at hb
  · rcases as with _ | ⟨x, as⟩
    · exact ⟨List.append_nil v, (List.cons.inj hrest).2.symm⟩
    · have htail := (List.cons.inj hrest).2
      simp [htail] at hc

/-- The first place of a separator splits a list in one way. -/
lemma eq_of_append_cons_first (hu : sep ∉ u) (hv : sep ∉ v) (h : u ++ sep :: b = v ++ sep :: c) :
    u = v ∧ b = c := by
  have hreverse := congrArg List.reverse h
  simp only [List.reverse_append, List.reverse_cons, List.append_assoc,
    List.singleton_append] at hreverse
  obtain ⟨hb, hu⟩ := eq_of_append_cons_last (by simpa using hu) (by simpa using hv) hreverse
  exact ⟨List.reverse_inj.1 hu, List.reverse_inj.1 hb⟩

end

/-- An id is known by how it ends an identifier. -/
theorem IsNodeId.eq_of_flat {id id' : Text} (h : IsNodeId id) (h' : IsNodeId id')
    {lead lead' : List CodePoint} (hlead : ∀ c ∈ lead, c ≠ .char 'I')
    (hlead' : ∀ c ∈ lead', c ≠ .char 'I')
    (he : lead ++ .char '_' :: id.toList.map flat = lead' ++ .char '_' :: id'.toList.map flat) :
    id = id' := by
  have hI (pairs : List NumberPair) :
      ("I" ++ chainText pairs).toList.map flat = .char 'I' :: (chainText pairs).toList.map flat := rfl
  -- The id of a layer that is in no instance has no capital letter.
  have hplain {lead : List CodePoint} (hlead : ∀ c ∈ lead, c ≠ .char 'I') {a b : Text}
      (ha : IsNumeral a) (hb : IsNumeral b) :
      .char 'I' ∉ lead ++ .char '_' :: (a ++ ":" ++ b).toList.map flat := by
    rw [map_flat_pair ha hb]
    simp only [List.mem_append, List.mem_cons, not_or]
    exact ⟨fun hmem => hlead _ hmem rfl, by decide, ha.notMem (by decide), by decide,
      hb.notMem (by decide)⟩
  have hchain (lead : List CodePoint) (pairs : List NumberPair) :
      .char 'I' ∈ lead ++ .char '_' :: ("I" ++ chainText pairs).toList.map flat := by
    rw [hI]
    simp
  cases h with
  | @pair a b ha hb =>
    cases h' with
    | @pair a' b' ha' hb' =>
      rw [map_flat_pair ha hb, map_flat_pair ha' hb', ← List.cons_append, ← List.append_assoc,
        ← List.cons_append, ← List.append_assoc] at he
      obtain ⟨he, hsecond⟩ := eq_of_append_cons_last (hb.notMem (by decide)) (hb'.notMem (by decide)) he
      obtain ⟨-, hfirst⟩ := eq_of_append_cons_last (ha.notMem (by decide)) (ha'.notMem (by decide)) he
      rw [ext_toList hfirst, ext_toList hsecond]
    | chain => exact absurd (he ▸ hchain lead' _) (hplain hlead ha hb)
  | @chain pairs hpairs hlength =>
    cases h' with
    | pair ha' hb' => exact absurd (he ▸ hchain lead pairs) (hplain hlead' ha' hb')
    | @chain pairs' hpairs' hlength' =>
      have hsep {lead : List CodePoint} (hlead : ∀ c ∈ lead, c ≠ .char 'I') :
          .char 'I' ∉ lead ++ [.char '_'] := by
        simp only [List.mem_append, List.mem_singleton, not_or]
        exact ⟨fun hmem => hlead _ hmem rfl, by decide⟩
      rw [hI, hI, List.append_cons, List.append_cons lead'] at he
      obtain ⟨-, he⟩ := eq_of_append_cons_first (hsep hlead) (hsep hlead') he
      have hne {pairs : List NumberPair} (h : 2 ≤ pairs.length) : pairs ≠ [] := by
        rintro rfl
        simp at h
      rw [chain_inj hpairs hpairs' (hne hlength) (hne hlength') he]

/-- Layers with different ids have different picture files, and different identifiers for them. -/
theorem handle_ne_of_id_ne {a b : Layer} {id id' : Text} (ha : a.id = .text id)
    (hb : b.id = .text id') (h : IsNodeId id) (h' : IsNodeId id') (hne : id ≠ id')
    {format format' : ExportFormat} {file file' : Text} (hfile : fileName a format = .ok file)
    (hfile' : fileName b format' = .ok file') : handle file ≠ handle file' := by
  intro he
  obtain ⟨lead, _, ext, hid, hlead, hext, hhandle⟩ := exists_handle_fileName hfile
  obtain ⟨lead', _, ext', hid', hlead', hext', hhandle'⟩ := exists_handle_fileName hfile'
  cases ha.symm.trans hid
  cases hb.symm.trans hid'
  have hlists := congrArg Text.toList he
  rw [hhandle, hhandle'] at hlists
  obtain ⟨hbody, -⟩ := List.append_inj' hlists (hext.trans hext'.symm)
  exact hne (h.eq_of_flat h' hlead hlead' hbody)

/-! ### Designs -/

/-- Layers have ids of layers, no two the same. -/
structure HaveNodeIds (layers : List Layer) : Prop where
  written : ∀ layer ∈ layers, ∃ id, layer.id = .text id ∧ IsNodeId id
  distinct : (layers.map Layer.id).Nodup

namespace HaveNodeIds

variable {layers : List Layer} {a b : Layer} {format format' : ExportFormat} {file file' : Text}

/-- Layers have node ids when their ids are written so, each once. -/
lemma of_texts {ids : List Text} (h : layers.map Layer.id = ids.map Value.text)
    (hids : ∀ id ∈ ids, IsNodeId id) (hn : ids.Nodup) : HaveNodeIds layers where
  written layer hlayer := by
    have hmem : layer.id ∈ ids.map Value.text := by
      rw [← h]
      exact List.mem_map_of_mem hlayer
    obtain ⟨id, hid, htext⟩ := List.mem_map.1 hmem
    exact ⟨id, htext.symm, hids id hid⟩
  distinct := by
    rw [h]
    exact hn.map fun _ _ => Value.text.inj

lemma handle_ne (h : HaveNodeIds layers) (ha : a ∈ layers) (hb : b ∈ layers) (hne : a.id ≠ b.id)
    (hfile : fileName a format = .ok file) (hfile' : fileName b format' = .ok file') :
    handle file ≠ handle file' := by
  obtain ⟨id, hid, hnode⟩ := h.written a ha
  obtain ⟨id', hid', hnode'⟩ := h.written b hb
  refine handle_ne_of_id_ne hid hid' hnode hnode' (fun he => hne ?_) hfile hfile'
  rw [hid, hid', he]

lemma fileName_ne (h : HaveNodeIds layers) (ha : a ∈ layers) (hb : b ∈ layers) (hne : a.id ≠ b.id)
    (hfile : fileName a format = .ok file) (hfile' : fileName b format' = .ok file') :
    file ≠ file' :=
  fun he => h.handle_ne ha hb hne hfile hfile' (congrArg handle he)

/-- Layers with such ids share no files. -/
lemma sharesNoFiles (h : HaveNodeIds layers) : SharesNoFiles layers := by
  refine (List.pairwise_map.1 h.distinct).imp_of_mem fun ha hb hne _ _ file hfile hfile' => ?_
  obtain ⟨format, -, hname⟩ := hfile
  obtain ⟨format', -, hname'⟩ := hfile'
  exact h.fileName_ne ha hb hne hname hname' rfl

lemma eq_of_key (h : HaveNodeIds layers) (ha : a ∈ layers) (hb : b ∈ layers) {key : Key}
    (hkey : a.id.key = .ok key) (hkey' : b.id.key = .ok key) : a = b := by
  obtain ⟨id, hid, -⟩ := h.written a ha
  obtain ⟨id', hid', -⟩ := h.written b hb
  have hsame : Value.key (.text id) = Value.key (.text id') := by rw [← hid, ← hid', hkey, hkey']
  cases hsame
  exact List.inj_on_of_nodup_map h.distinct ha hb (hid.trans hid'.symm)

end HaveNodeIds

end Handoff.Asset
