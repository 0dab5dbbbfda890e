import DocTree.Keyed
import DocTree.Paragraph

/-!
# Nodes

A node has the name of the link it was built from, its paragraphs, children in named slots, and
attributes. Attributes may hold nodes again, at any depth, so a node and an attribute are defined
together; `Node.valid` looks at every node held in one of these two ways.
-/

namespace DocTree

mutual

/-- A value attached to a node. -/
inductive Attribute where
  | text (value : String)
  | flag (value : Bool)
  | number (value : Int)
  | list (items : List Attribute)
  | node (value : Node)

/-- A named piece of a document: the value of its link, its paragraphs, whether nodes of its kind
belong at the top level of a document, child nodes by slot, in slot order, and attributes by key, in
key order. -/
structure Node where
  name : String
  payload : List String
  primary : Bool
  children : List (String × List Node)
  attributes : List (String × Attribute)

end

instance : Inhabited Attribute := ⟨.flag false⟩

namespace Node

/-- A primary node without children and attributes. -/
def leaf (name : String) (payload : List String) : Node :=
  { name, payload, primary := true, children := [], attributes := [] }

instance : Inhabited Node := ⟨leaf "" []⟩

/-- The children in a slot; a slot that is missing has none. -/
def childrenOf (node : Node) (slot : String) : List Node :=
  (Keyed.get? node.children slot).getD []

/-- Add a child at the end of a slot. -/
def addChild (node : Node) (slot : String) (child : Node) : Node :=
  { node with
    children := Keyed.insertWith (fun present => present.getD [] ++ [child]) slot node.children }

/-- Attach a value, replacing the one of the same key. -/
def setAttribute (node : Node) (key : String) (value : Attribute) : Node :=
  { node with attributes := Keyed.insert key value node.attributes }

/-- The paragraphs of a node as one text. -/
def text (node : Node) : String :=
  Paragraph.join node.payload

end Node

mutual

/-- Whether a node and every node that it holds has a name. -/
def Node.valid : Node → Bool
  | ⟨name, _, _, children, attributes⟩ =>
    name != "" && Node.validSlots children && Node.validAttributes attributes

/-- Whether every node of a list is valid. -/
def Node.validAll : List Node → Bool
  | [] => true
  | node :: rest => node.valid && Node.validAll rest

/-- Whether every node in every slot is valid. -/
def Node.validSlots : List (String × List Node) → Bool
  | [] => true
  | (_, nodes) :: rest => Node.validAll nodes && Node.validSlots rest

/-- Whether every attribute of a node is valid. -/
def Node.validAttributes : List (String × Attribute) → Bool
  | [] => true
  | (_, value) :: rest => value.valid && Node.validAttributes rest

/-- Whether every node that an attribute holds is valid. -/
def Attribute.valid : Attribute → Bool
  | .list items => Attribute.validItems items
  | .node node => node.valid
  | .text _ | .flag _ | .number _ => true

/-- Whether every attribute of a list is valid. -/
def Attribute.validItems : List Attribute → Bool
  | [] => true
  | item :: rest => item.valid && Attribute.validItems rest

end

/-- A list of nodes is valid when each of them is. -/
theorem Node.validAll_eq_all (nodes : List Node) : Node.validAll nodes = nodes.all Node.valid := by
  induction nodes with
  | nil => rfl
  | cons node rest ih => simp [Node.validAll, ih]

end DocTree
