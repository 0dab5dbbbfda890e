import DocTree.Node
import Mathlib

/-!
# The nodes of a tree

A tree is flattened to the list of all nodes in it, through slots and attributes alike. Adding a
child to a node adds the nodes of the child, wherever its slot stands among the others.
-/

namespace DocTree

mutual

/-- A node and all nodes that it holds, at every depth. -/
def Node.flatten : Node → List Node
  | ⟨name, payload, primary, children, attributes⟩ =>
    ⟨name, payload, primary, children, attributes⟩ ::
      (Node.flattenSlots children ++ Node.flattenAttributes attributes)

/-- All nodes of a list of nodes, at every depth. -/
def Node.flattenAll : List Node → List Node
  | [] => []
  | node :: rest => node.flatten ++ Node.flattenAll rest

/-- All nodes in the slots of a node. -/
def Node.flattenSlots : List (String × List Node) → List Node
  | [] => []
  | (_, nodes) :: rest => Node.flattenAll nodes ++ Node.flattenSlots rest

/-- All nodes in the attributes of a node. -/
def Node.flattenAttributes : List (String × Attribute) → List Node
  | [] => []
  | (_, value) :: rest => value.flatten ++ Node.flattenAttributes rest

/-- All nodes in an attribute. -/
def Attribute.flatten : Attribute → List Node
  | .list items => Attribute.flattenItems items
  | .node node => node.flatten
  | .text _ | .flag _ | .number _ => []

/-- All nodes in a list of attributes. -/
def Attribute.flattenItems : List Attribute → List Node
  | [] => []
  | item :: rest => item.flatten ++ Attribute.flattenItems rest

end

namespace Node

/-- The paragraphs of some nodes, in whatever order, and the number of the nodes. -/
def content (nodes : List Node) : Multiset String × ℕ :=
  (nodes.flatMap Node.payload, nodes.length)

/-- Two lists of nodes hold together what each of them holds. -/
@[simp]
theorem content_append (nodes others : List Node) :
    content (nodes ++ others) = content nodes + content others := by
  simp [content]

/-- One node more brings its own paragraphs. -/
theorem content_cons (node : Node) (nodes : List Node) :
    content (node :: nodes) = ((node.payload : Multiset String), 1) + content nodes := by
  simp [content, ← Multiset.coe_add, Nat.add_comm]

/-- No nodes hold nothing. -/
@[simp]
theorem content_nil : content [] = 0 := rfl

/-- The nodes of two lists are those of the one and of the other. -/
@[simp]
theorem flattenAll_append (nodes others : List Node) :
    flattenAll (nodes ++ others) = flattenAll nodes ++ flattenAll others := by
  induction nodes with
  | nil => rfl
  | cons node rest ih => simp [flattenAll, ih]

/-- A list of one node has the nodes of that node. -/
@[simp]
theorem flattenAll_singleton (node : Node) : flattenAll [node] = node.flatten := by
  simp [flattenAll]

/-- A child added to a slot brings what it holds, wherever the slot stands. -/
theorem content_flattenSlots_insertWith (slot : String) (child : Node)
    (slots : Keyed (List Node)) :
    content (flattenSlots (Keyed.insertWith (fun present => present.getD [] ++ [child]) slot slots)) =
      content (flattenSlots slots) + content child.flatten := by
  fun_induction Keyed.insertWith (fun present => present.getD [] ++ [child]) slot slots with
  | case1 => simp [flattenSlots]
  | case2 nodes rest =>
    simp only [flattenSlots, Option.getD_some, flattenAll_append, flattenAll_singleton,
      content_append]
    exact add_right_comm _ _ _
  | case3 other nodes rest _ _ =>
    simp only [flattenSlots, Option.getD_none, List.nil_append, flattenAll_singleton, content_append]
    exact add_comm _ _
  | case4 other nodes rest _ _ ih =>
    simp only [flattenSlots, content_append, ih]
    exact (add_assoc _ _ _).symm

/-- A node with one child more holds what it held and what the child holds. -/
theorem content_flatten_addChild (node child : Node) (slot : String) :
    content (node.addChild slot child).flatten = content node.flatten + content child.flatten := by
  obtain ⟨name, payload, primary, children, attributes⟩ := node
  simp only [addChild, flatten, content_cons, content_append, content_flattenSlots_insertWith]
  rw [add_right_comm (content (flattenSlots children)), ← add_assoc]

/-! ## Which nodes are held -/

/-- The nodes of a list at every depth are those of its nodes. -/
theorem mem_flattenAll {nodes : List Node} {inner : Node} :
    inner ∈ flattenAll nodes ↔ ∃ node ∈ nodes, inner ∈ node.flatten := by
  induction nodes with
  | nil => simp [flattenAll]
  | cons node rest ih => simp [flattenAll, ih]

/-- What is in the slots after a child was added was there before, or is in the child. -/
theorem mem_flattenSlots_insertWith {inner : Node} (slot : String) (child : Node)
    (slots : Keyed (List Node)) :
    inner ∈ flattenSlots (Keyed.insertWith (fun present => present.getD [] ++ [child]) slot slots) ↔
      inner ∈ flattenSlots slots ∨ inner ∈ child.flatten := by
  fun_induction Keyed.insertWith (fun present => present.getD [] ++ [child]) slot slots with
  | case1 => simp [flattenSlots]
  | case2 nodes rest =>
    simp only [flattenSlots, Option.getD_some, flattenAll_append, flattenAll_singleton,
      List.mem_append]
    exact or_right_comm
  | case3 other nodes rest _ _ => simp [flattenSlots, or_comm]
  | case4 other nodes rest _ _ ih => simp [flattenSlots, ih, or_assoc]

/-- A node that was given a child holds itself, what it held in slots and attributes, and what the
child holds. -/
theorem mem_flatten_addChild {node child inner : Node} {slot : String}
    (h : inner ∈ (node.addChild slot child).flatten) :
    inner = node.addChild slot child ∨ inner ∈ node.flatten ∨ inner ∈ child.flatten := by
  obtain ⟨name, payload, primary, children, attributes⟩ := node
  simp only [addChild, flatten, List.mem_cons, List.mem_append, mem_flattenSlots_insertWith] at h ⊢
  tauto

end Node

end DocTree
