import Handoff.Proofs.World.Running
import Handoff.Design.Reading

/-!
Hidden layers and what is below them are not read.

A raw layer is pruned by deleting its hidden children at every depth. Reading sees no difference: it
gives the same tree, or the same fault, and the layers of that tree are those of the pruned value.
-/

namespace Handoff.Design

/-! ### Pruning -/

/-- A raw layer is hidden if it says something about being visible that does not count as true. -/
def isHidden : Value → Bool
  | .record fields => !(fieldOr fields "visible" (.bool true)).truthy
  | _ => false

mutual

/-- A raw layer without its hidden children, at every depth. -/
def prune : Value → Value
  | .record fields => .record (pruneFields fields)
  | value => value

/-- The fields of a raw layer without its hidden children. -/
def pruneFields : List (Text × Value) → List (Text × Value)
  | [] => []
  | (name, value) :: rest =>
    (name, if name = "children" then pruneChildren value else value) :: pruneFields rest

/-- The children of a raw layer without the hidden ones; only a list has any. -/
def pruneChildren : Value → Value
  | .list items => .list (pruneItems items)
  | value => value

/-- The raw layers of a list that are not hidden, each without its hidden children. -/
def pruneItems : List Value → List Value
  | [] => []
  | item :: rest => if isHidden item then pruneItems rest else prune item :: pruneItems rest

end

mutual

/-- The ids of a raw layer and of all raw layers below it, a parent before its children. -/
def rawIds : Value → List Value
  | .record fields => fieldOr fields "id" .emptyText :: rawIdsBelow fields
  | _ => []

/-- The ids of all raw layers below the one with these fields. -/
def rawIdsBelow : List (Text × Value) → List Value
  | [] => []
  | (name, value) :: rest => if name = "children" then rawIdsAmong value else rawIdsBelow rest

/-- The ids of raw layers side by side and of all below them. -/
def rawIdsAmong : Value → List Value
  | .list items => rawIdsOfItems items
  | _ => []

/-- The ids of the raw layers of a list and of all below them. -/
def rawIdsOfItems : List Value → List Value
  | [] => []
  | item :: rest => rawIds item ++ rawIdsOfItems rest

end

/-! ### Reading a pruned layer -/

lemma lookup_pruneFields {name : Text} (hn : name ≠ "children") (fields : Fields) :
    (pruneFields fields).lookup name = fields.lookup name := by
  induction fields with
  | nil => rw [pruneFields]
  | cons field rest ih =>
    obtain ⟨key, value⟩ := field
    rw [pruneFields, List.lookup_cons, List.lookup_cons, ih]
    by_cases hk : name = key
    · rw [if_neg (hk ▸ hn)]
    · rw [beq_false_of_ne hk]

lemma fieldOr_pruneFields {name : Text} (hn : name ≠ "children") (fields : Fields)
    (missing : Value) : fieldOr (pruneFields fields) name missing = fieldOr fields name missing := by
  rw [fieldOr, fieldOr, lookup_pruneFields hn]

lemma fieldOf_pruneFields {name : Text} (hn : name ≠ "children") (fields : Fields) :
    fieldOf (pruneFields fields) name = fieldOf fields name :=
  fieldOr_pruneFields hn fields .null

lemma readPadding_pruneFields (fields : Fields) :
    readPadding (pruneFields fields) = readPadding fields := by
  have hany : (paddingNames.any fun name => !(fieldOf (pruneFields fields) name).isNull) =
      paddingNames.any fun name => !(fieldOf fields name).isNull := by
    simp (disch := decide) only [paddingNames, List.any_cons, List.any_nil, fieldOf_pruneFields]
  rw [readPadding, readPadding, hany]
  simp (disch := decide) only [fieldOf_pruneFields]

lemma readLayout_pruneFields (fields : Fields) :
    readLayout (pruneFields fields) = readLayout fields := by
  have hany : (layoutNames.any fun name => ((pruneFields fields).lookup name).isSome) =
      layoutNames.any fun name => (fields.lookup name).isSome := by
    simp (disch := decide) only [layoutNames, paddingNames, List.any_cons, List.any_nil,
      lookup_pruneFields]
  rw [readLayout, readLayout, hany]
  simp (disch := decide) only [fieldOf_pruneFields, readPadding_pruneFields]

/-- All that a layer says about itself is in other fields than its children. -/
lemma readLayer_pruneFields (fields : Fields) :
    readLayer (pruneFields fields) = readLayer fields := by
  have hradii : fieldOf (pruneFields fields) "rectangleCornerRadii" =
      fieldOf fields "rectangleCornerRadii" := fieldOf_pruneFields (by decide) fields
  rw [readLayer, readLayer, hradii]
  simp (disch := decide) only [fieldOf_pruneFields, fieldOr_pruneFields, readLayout_pruneFields]

/-- The children that are not hidden are the visible ones. -/
lemma isVisible_record (fields : Fields) :
    isVisible (.record fields) = .ok (!isHidden (.record fields)) := by
  rw [isHidden, Bool.not_not]
  rfl

lemma isVisible_pruneFields (fields : Fields) :
    isVisible (.record (pruneFields fields)) = isVisible (.record fields) := by
  rw [isVisible_record, isVisible_record, isHidden, isHidden, fieldOr, fieldOr,
    lookup_pruneFields (by decide)]

lemma isVisible_prune (value : Value) : isVisible (prune value) = isVisible value := by
  cases value with
  | record fields => rw [prune, isVisible_pruneFields]
  | _ =>
    rw [prune]
    simp

mutual

/-- A layer is read as if its hidden children were not there. -/
theorem readTree_prune (value : Value) : readTree (prune value) = readTree value := by
  match value with
  | .record fields =>
    rw [prune, readTree, readTree, readChildren_pruneFields fields, readLayer_pruneFields]
  | .null | .bool _ | .int _ | .double _ | .text _ | .list _ =>
    rw [prune]
    simp

theorem readChildren_pruneFields (fields : List (Text × Value)) :
    readChildren (pruneFields fields) = readChildren fields := by
  match fields with
  | [] => rw [pruneFields]
  | (name, value) :: rest =>
    rw [pruneFields, readChildren, readChildren, readChildren_pruneFields rest]
    split
    · exact readForest_pruneChildren value
    · rfl

theorem readForest_pruneChildren (value : Value) :
    readForest (pruneChildren value) = readForest value := by
  match value with
  | .list items => rw [pruneChildren, readForest, readForest, readVisible_pruneItems items]
  | .null | .bool _ | .int _ | .double _ | .text _ | .record _ =>
    rw [pruneChildren]
    simp

theorem readVisible_pruneItems (items : List Value) :
    readVisible (pruneItems items) = readVisible items := by
  match items with
  | [] => rw [pruneItems]
  | item :: rest =>
    have hrest := readVisible_pruneItems rest
    rw [pruneItems]
    split
    next hhidden =>
      -- A hidden child is skipped before anything of it is read.
      cases item with
      | record fields =>
        rw [hrest, readVisible, isVisible_record, hhidden]
        rfl
      | _ => cases hhidden
    next => rw [readVisible, readVisible, isVisible_prune, readTree_prune item, hrest]

end

/-! ### The layers of a tree -/

lemma id_of_readLayer {fields : Fields} {layer : Layer} (h : readLayer fields = .ok layer) :
    layer.id = fieldOr fields "id" .emptyText := by
  unfold readLayer at h
  obtain ⟨boxFields, -, h⟩ := bind_eq_ok.1 h
  obtain ⟨exportSettings, -, h⟩ := bind_eq_ok.1 h
  obtain ⟨typography, -, h⟩ := bind_eq_ok.1 h
  simp only at h
  split at h
  · obtain ⟨cornerRadii, -, h⟩ := bind_eq_ok.1 h
    cases h
    rfl
  · cases h
    rfl

/-- Only a list holds layers. -/
lemma eq_nil_of_readForest {value : Value} {forest : Forest Layer}
    (hv : ∀ items, value ≠ .list items) (h : readForest value = .ok forest) : forest = [] := by
  cases value with
  | list items => exact absurd rfl (hv items)
  | _ =>
    simp only [readForest] at h
    split at h <;> simp_all

mutual

/-- The layers that are read are those of the pruned value, in order and without loss. -/
theorem ids_of_readTree (value : Value) {tree : LayerTree} (h : readTree value = .ok tree) :
    tree.preorder.map Layer.id = rawIds (prune value) := by
  match value with
  | .record fields =>
    rw [readTree] at h
    obtain ⟨children, hchildren, h⟩ := bind_eq_ok.1 h
    obtain ⟨layer, hlayer, h⟩ := bind_eq_ok.1 h
    cases h
    rw [Tree.preorder_node, List.map_cons, ids_of_readChildren fields hchildren, prune, rawIds,
      id_of_readLayer hlayer, fieldOr, fieldOr, lookup_pruneFields (by decide)]
  | .null | .bool _ | .int _ | .double _ | .text _ | .list _ =>
    rw [readTree] at h
    · cases h
    · simp

theorem ids_of_readChildren (fields : List (Text × Value)) {forest : Forest Layer}
    (h : readChildren fields = .ok forest) :
    (Tree.preorderAll forest).map Layer.id = rawIdsBelow (pruneFields fields) := by
  match fields with
  | [] =>
    rw [readChildren] at h
    cases h
    rw [pruneFields, rawIdsBelow, Tree.preorderAll_nil, List.map_nil]
  | (name, value) :: rest =>
    rw [readChildren] at h
    rw [pruneFields, rawIdsBelow]
    split at h
    next hname => rw [if_pos hname, if_pos hname, ids_of_readForest value h]
    next hname => rw [if_neg hname, ids_of_readChildren rest h]

theorem ids_of_readForest (value : Value) {forest : Forest Layer}
    (h : readForest value = .ok forest) :
    (Tree.preorderAll forest).map Layer.id = rawIdsAmong (pruneChildren value) := by
  match value with
  | .list items =>
    rw [readForest] at h
    rw [pruneChildren, rawIdsAmong, ids_of_readVisible items h]
  | .null | .bool _ | .int _ | .double _ | .text _ | .record _ =>
    rw [eq_nil_of_readForest (by simp) h, pruneChildren, rawIdsAmong, Tree.preorderAll_nil,
      List.map_nil] <;> simp

theorem ids_of_readVisible (items : List Value) {forest : Forest Layer}
    (h : readVisible items = .ok forest) :
    (Tree.preorderAll forest).map Layer.id = rawIdsOfItems (pruneItems items) := by
  match items with
  | [] =>
    rw [readVisible] at h
    cases h
    rw [pruneItems, rawIdsOfItems, Tree.preorderAll_nil, List.map_nil]
  | .record fields :: rest =>
    rw [readVisible, isVisible_record, ok_bind] at h
    rw [pruneItems]
    cases hhidden : isHidden (.record fields) with
    | true =>
      rw [hhidden] at h
      exact ids_of_readVisible rest h
    | false =>
      rw [hhidden] at h
      obtain ⟨tree, htree, h⟩ := bind_eq_ok.1 h
      obtain ⟨others, hothers, h⟩ := bind_eq_ok.1 h
      cases h
      rw [Tree.preorderAll_cons, List.map_append, ids_of_readTree _ htree,
        ids_of_readVisible rest hothers, if_neg Bool.false_ne_true, rawIdsOfItems]
  | .null :: _ | .bool _ :: _ | .int _ :: _ | .double _ :: _ | .text _ :: _ | .list _ :: _ =>
    rw [readVisible] at h
    cases h

end

/-! ### Documents -/

/-- A design file without the hidden layers of its document; the document itself stays. -/
def pruneDocument : List (Text × Value) → List (Text × Value)
  | [] => []
  | (name, value) :: rest =>
    (name, if name = "document" then prune value else value) :: pruneDocument rest

/-- The answer to a file request without the hidden layers of its document. -/
def pruneFile : Value → Value
  | .record fields => .record (pruneDocument fields)
  | value => value

lemma lookup_pruneDocument (name : Text) (fields : Fields) : (pruneDocument fields).lookup name =
    (fields.lookup name).map fun value => if name = "document" then prune value else value := by
  induction fields with
  | nil => rfl
  | cons field rest ih =>
    obtain ⟨key, value⟩ := field
    rw [pruneDocument, List.lookup_cons, List.lookup_cons]
    by_cases hk : name = key
    · rw [hk, beq_self_eq_true, Option.map_some]
    · rw [beq_false_of_ne hk, ih]

lemma fieldOr_pruneDocument {name : Text} (hn : name ≠ "document") (fields : Fields)
    (missing : Value) : fieldOr (pruneDocument fields) name missing = fieldOr fields name missing := by
  rw [fieldOr, fieldOr, lookup_pruneDocument]
  simp [hn]

lemma document_pruneDocument (fields : Fields) :
    fieldOf (pruneDocument fields) "document" = prune (fieldOf fields "document") := by
  rw [fieldOf, fieldOf, fieldOr, fieldOr, lookup_pruneDocument]
  rcases fields.lookup (Text.ofString "document") with _ | value
  · rw [Option.map_none, Option.getD_none, prune]
    simp
  · rw [Option.map_some, if_pos rfl, Option.getD_some, Option.getD_some]

/-- A design file is read as if the hidden layers were not there. -/
theorem Document.read_pruneFile (file : Value) :
    Document.read (pruneFile file) = Document.read file := by
  cases file with
  | record fields =>
    have hname : fieldOr (pruneDocument fields) "name" .emptyText =
        fieldOr fields "name" .emptyText := fieldOr_pruneDocument (by decide) fields _
    have hstyles : fieldOf (pruneDocument fields) "styles" = fieldOf fields "styles" :=
      fieldOr_pruneDocument (by decide) fields .null
    rw [pruneFile, read, read, Value.fields, ok_bind, Value.fields, ok_bind, document_pruneDocument,
      hname, hstyles]
    cases fieldOf fields "document" with
    | record document =>
      rw [prune]
      simp only
      rw [← prune, readTree_prune]
    | _ =>
      rw [prune]
      simp
  | _ => rfl

/-- The layers of a document are those of its pruned tree, in order and without loss. -/
theorem Document.ids_of_read {file : Value} {document : Document}
    (h : Document.read file = .ok document) :
    ∃ fields, file = .record fields ∧
      document.root.preorder.map Layer.id = rawIds (prune (fieldOf fields "document")) := by
  obtain ⟨fields, hfields, hread⟩ := bind_eq_ok.1 h
  cases file with
  | record own =>
    cases hfields
    refine ⟨fields, rfl, ?_⟩
    cases hraw : fieldOf fields "document" with
    | record raw =>
      rw [hraw] at hread
      obtain ⟨root, hroot, hread⟩ := bind_eq_ok.1 hread
      cases hread
      exact ids_of_readTree _ hroot
    | _ =>
      rw [hraw] at hread
      cases hread
  | _ => cases hfields

end Handoff.Design
