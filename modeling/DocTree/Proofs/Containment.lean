import DocTree.Document
import DocTree.Proofs.Trees

/-!
# Validity and containment

A node holds its children and the nodes that its attributes lead to, straight or through lists, and
it contains what can be reached by holding, itself included. Flattening a node lists exactly the
nodes that it contains. A node is valid exactly if all of them have names, so that the check misses
no part of a tree and objects to nothing else.
-/

namespace DocTree

/-- An attribute leads to a node if it is the node, or a list of which an item leads to it. -/
inductive Attribute.LeadsTo : Attribute → Node → Prop where
  | node (inner : Node) : LeadsTo (.node inner) inner
  | list {items : List Attribute} {item : Attribute} {inner : Node} (hitem : item ∈ items)
      (h : LeadsTo item inner) : LeadsTo (.list items) inner

/-- A node holds its children, in whatever slot, and the nodes that its attributes lead to. -/
inductive Node.Holds : Node → Node → Prop where
  | child {node inner : Node} {slot : String} {children : List Node}
      (hslot : (slot, children) ∈ node.children) (hinner : inner ∈ children) : Holds node inner
  | attached {node inner : Node} {key : String} {value : Attribute}
      (hkey : (key, value) ∈ node.attributes) (hinner : value.LeadsTo inner) : Holds node inner

/-- A node contains itself, what it holds, what that holds, and so on. -/
def Node.Contains : Node → Node → Prop :=
  Relation.ReflTransGen Node.Holds

/-! ## What is held is smaller -/

/-- A node that an attribute leads to is smaller than the attribute. -/
theorem Attribute.LeadsTo.sizeOf_lt {value : Attribute} {inner : Node} (h : value.LeadsTo inner) :
    sizeOf inner < sizeOf value := by
  induction h with
  | node inner => simp
  | list hitem _ ih =>
    have hlt := List.sizeOf_lt_of_mem hitem
    simp only [Attribute.list.sizeOf_spec]
    omega

/-- A node that is held is smaller than the one that holds it. -/
theorem Node.Holds.sizeOf_lt {node inner : Node} (h : node.Holds inner) :
    sizeOf inner < sizeOf node := by
  obtain ⟨name, payload, primary, children, attributes⟩ := node
  rw [Node.mk.sizeOf_spec]
  cases h with
  | child hslot hinner =>
    have hentry := List.sizeOf_lt_of_mem hslot
    have hchild := List.sizeOf_lt_of_mem hinner
    simp only [Prod.mk.sizeOf_spec] at hentry
    omega
  | attached hkey hinner =>
    have hentry := List.sizeOf_lt_of_mem hkey
    have hvalue := hinner.sizeOf_lt
    simp only [Prod.mk.sizeOf_spec] at hentry
    omega

/-! ## Flattening lists the contained nodes -/

mutual

/-- The nodes in an attribute are those of the nodes that it leads to. -/
theorem Attribute.mem_flatten_iff {inner : Node} : ∀ value : Attribute,
    inner ∈ value.flatten ↔ ∃ held, value.LeadsTo held ∧ inner ∈ held.flatten
  | .text _ | .flag _ | .number _ => by
    refine ⟨fun h => absurd h List.not_mem_nil, ?_⟩
    rintro ⟨held, h, -⟩
    cases h
  | .node held => by
    refine ⟨fun h => ⟨held, .node held, h⟩, ?_⟩
    rintro ⟨_, h, hinner⟩
    cases h
    exact hinner
  | .list items => by
    rw [Attribute.flatten, Attribute.mem_flattenItems_iff items]
    constructor
    · rintro ⟨item, hitem, held, hleads, hinner⟩
      exact ⟨held, .list hitem hleads, hinner⟩
    · rintro ⟨held, h, hinner⟩
      cases h with
      | list hitem hleads => exact ⟨_, hitem, held, hleads, hinner⟩

/-- The nodes in a list of attributes are those of the nodes that one of them leads to. -/
theorem Attribute.mem_flattenItems_iff {inner : Node} : ∀ items : List Attribute,
    inner ∈ Attribute.flattenItems items ↔
      ∃ item ∈ items, ∃ held, item.LeadsTo held ∧ inner ∈ held.flatten
  | [] => by simp [Attribute.flattenItems]
  | item :: rest => by
    rw [Attribute.flattenItems, List.mem_append, Attribute.mem_flatten_iff item,
      Attribute.mem_flattenItems_iff rest]
    simp

end

namespace Node

/-- The nodes in slots are those of the children there. -/
theorem mem_flattenSlots {slots : List (String × List Node)} {inner : Node} :
    inner ∈ flattenSlots slots ↔ ∃ entry ∈ slots, ∃ child ∈ entry.2, inner ∈ child.flatten := by
  induction slots with
  | nil => simp [flattenSlots]
  | cons entry rest ih => simp [flattenSlots, mem_flattenAll, ih]

/-- The nodes in the attributes of a node are those in one of them. -/
theorem mem_flattenAttributes {attributes : List (String × Attribute)} {inner : Node} :
    inner ∈ flattenAttributes attributes ↔ ∃ entry ∈ attributes, inner ∈ entry.2.flatten := by
  induction attributes with
  | nil => simp [flattenAttributes]
  | cons entry rest ih => simp [flattenAttributes, ih]

/-- A flattened node is the node and then the flattened nodes that it holds. -/
theorem mem_flatten_iff_holds {node inner : Node} :
    inner ∈ node.flatten ↔ inner = node ∨ ∃ held, node.Holds held ∧ inner ∈ held.flatten := by
  obtain ⟨name, payload, primary, children, attributes⟩ := node
  rw [flatten, List.mem_cons, List.mem_append, mem_flattenSlots, mem_flattenAttributes]
  refine or_congr_right ⟨?_, ?_⟩
  · rintro (⟨⟨slot, nodes⟩, hslot, child, hchild, hinner⟩ | ⟨⟨key, value⟩, hkey, hinner⟩)
    · exact ⟨child, .child hslot hchild, hinner⟩
    · obtain ⟨held, hleads, hheld⟩ := (Attribute.mem_flatten_iff value).mp hinner
      exact ⟨held, .attached hkey hleads, hheld⟩
  · rintro ⟨held, h, hinner⟩
    cases h with
    | child hslot hchild => exact .inl ⟨_, hslot, held, hchild, hinner⟩
    | attached hkey hleads =>
      exact .inr ⟨_, hkey, (Attribute.mem_flatten_iff _).mpr ⟨held, hleads, hinner⟩⟩

/-- Flattening lists exactly the contained nodes. -/
theorem mem_flatten_iff_contains {node inner : Node} :
    inner ∈ node.flatten ↔ node.Contains inner := by
  constructor
  · -- What is held is smaller than the node, so that the induction is on its size.
    induction hsize : sizeOf node using Nat.strong_induction_on generalizing node with
    | _ size ih =>
      intro h
      rcases mem_flatten_iff_holds.mp h with rfl | ⟨held, hheld, hinner⟩
      · exact .refl
      · exact .head hheld (ih _ (hsize ▸ hheld.sizeOf_lt) rfl hinner)
  · intro h
    induction h using Relation.ReflTransGen.head_induction_on with
    | refl => exact mem_flatten_iff_holds.mpr (.inl rfl)
    | head hheld _ ih => exact mem_flatten_iff_holds.mpr (.inr ⟨_, hheld, ih⟩)

end Node

/-! ## Validity is about all contained nodes -/

mutual

/-- A node is valid exactly if every node in it has a name. -/
theorem Node.valid_iff_flatten : ∀ node : Node,
    node.valid = true ↔ ∀ inner ∈ node.flatten, inner.name ≠ ""
  | ⟨name, payload, primary, children, attributes⟩ => by
    simp [Node.valid, Node.flatten, Node.validSlots_iff_flatten children,
      Node.validAttributes_iff_flatten attributes, or_imp, forall_and, and_assoc]

/-- Nodes are valid exactly if every node in them has a name. -/
theorem Node.validAll_iff_flatten : ∀ nodes : List Node,
    Node.validAll nodes = true ↔ ∀ inner ∈ Node.flattenAll nodes, inner.name ≠ ""
  | [] => by simp [Node.validAll, Node.flattenAll]
  | node :: rest => by
    rw [Node.validAll, Bool.and_eq_true, Node.valid_iff_flatten node,
      Node.validAll_iff_flatten rest, Node.flattenAll, List.forall_mem_append]

/-- Slots are valid exactly if every node in them has a name. -/
theorem Node.validSlots_iff_flatten : ∀ slots : List (String × List Node),
    Node.validSlots slots = true ↔ ∀ inner ∈ Node.flattenSlots slots, inner.name ≠ ""
  | [] => by simp [Node.validSlots, Node.flattenSlots]
  | (slot, nodes) :: rest => by
    rw [Node.validSlots, Bool.and_eq_true, Node.validAll_iff_flatten nodes,
      Node.validSlots_iff_flatten rest, Node.flattenSlots, List.forall_mem_append]

/-- The attributes of a node are valid exactly if every node in them has a name. -/
theorem Node.validAttributes_iff_flatten : ∀ attributes : List (String × Attribute),
    Node.validAttributes attributes = true ↔
      ∀ inner ∈ Node.flattenAttributes attributes, inner.name ≠ ""
  | [] => by simp [Node.validAttributes, Node.flattenAttributes]
  | (key, value) :: rest => by
    rw [Node.validAttributes, Bool.and_eq_true, Attribute.valid_iff_flatten value,
      Node.validAttributes_iff_flatten rest, Node.flattenAttributes, List.forall_mem_append]

/-- An attribute is valid exactly if every node in it has a name. -/
theorem Attribute.valid_iff_flatten : ∀ value : Attribute,
    value.valid = true ↔ ∀ inner ∈ value.flatten, inner.name ≠ ""
  | .text _ | .flag _ | .number _ => by simp [Attribute.valid, Attribute.flatten]
  | .list items => Attribute.validItems_iff_flatten items
  | .node held => Node.valid_iff_flatten held

/-- A list of attributes is valid exactly if every node in it has a name. -/
theorem Attribute.validItems_iff_flatten : ∀ items : List Attribute,
    Attribute.validItems items = true ↔
      ∀ inner ∈ Attribute.flattenItems items, inner.name ≠ ""
  | [] => by simp [Attribute.validItems, Attribute.flattenItems]
  | item :: rest => by
    rw [Attribute.validItems, Bool.and_eq_true, Attribute.valid_iff_flatten item,
      Attribute.validItems_iff_flatten rest, Attribute.flattenItems, List.forall_mem_append]

end

/-- A node is valid exactly if every node that it contains has a name; a list of nodes and a
document are valid exactly if this holds of each of their nodes. -/
theorem Node.valid_iff_contains :
    (∀ node : Node, node.valid = true ↔ ∀ inner, node.Contains inner → inner.name ≠ "") ∧
    (∀ nodes : List Node, Node.validAll nodes = true ↔
      ∀ node ∈ nodes, ∀ inner, node.Contains inner → inner.name ≠ "") ∧
    ∀ document : Document, document.valid = true ↔
      ∀ node ∈ document.nodes, ∀ inner, node.Contains inner → inner.name ≠ "" := by
  have hnode (node : Node) :
      node.valid = true ↔ ∀ inner, node.Contains inner → inner.name ≠ "" := by
    simp only [Node.valid_iff_flatten, Node.mem_flatten_iff_contains]
  have hall (nodes : List Node) : Node.validAll nodes = true ↔
      ∀ node ∈ nodes, ∀ inner, node.Contains inner → inner.name ≠ "" := by
    simp only [Node.validAll_eq_all, List.all_eq_true, hnode]
  exact ⟨hnode, hall, fun document => hall document.nodes⟩

/-- A node without a name is found in a list within a list. -/
example : ({ Node.leaf "function" [] with
    attributes := [("related", .list [.list [.node (.leaf "" [])]])] } : Node).valid = false := rfl

end DocTree
