import DocTree.Document

/-!
# Views

A view is the plain value that a node shows to the outside: an object with the node's name, its
paragraphs and its child slots as lists of views, and then those attributes whose keys are still
free. A slot called `name` or `payload` takes the place of that field, and whether a node is primary
does not show.
-/

namespace DocTree

/-- A plain value. The fields of an object are in key order. -/
inductive View where
  | text (value : String)
  | flag (value : Bool)
  | number (value : Int)
  | list (items : List View)
  | object (fields : List (String × View))
  deriving Inhabited

namespace View

/-- A list of texts. -/
def texts (values : List String) : View :=
  .list (values.map .text)

/-- The object of a node: child slots win over the name and the payload, and attributes only fill
the keys that are left. -/
def ofParts (name : String) (payload : List String) (slots attributes : List (String × View)) :
    View :=
  let own : Keyed View := [("name", .text name), ("payload", texts payload)]
  let fields := slots.foldl (fun fields (slot, view) => Keyed.insert slot view fields) own
  .object <| attributes.foldl
    (fun fields (key, view) =>
      if Keyed.contains fields key then fields else Keyed.insert key view fields)
    fields

end View

/-- The view of a token: its text and its kind. -/
def Token.view (token : Token) : View :=
  .object [("data", .text token.data), ("value", .text token.value)]

mutual

/-- The view of a node. -/
def Node.view : Node → View
  | ⟨name, payload, _, children, attributes⟩ =>
    View.ofParts name payload (Node.slotViews children) (Node.attributeViews attributes)

/-- The views of the nodes of a list. -/
def Node.views : List Node → List View
  | [] => []
  | node :: rest => node.view :: Node.views rest

/-- The views of child slots. -/
def Node.slotViews : List (String × List Node) → List (String × View)
  | [] => []
  | (slot, nodes) :: rest => (slot, .list (Node.views nodes)) :: Node.slotViews rest

/-- The views of attributes. -/
def Node.attributeViews : List (String × Attribute) → List (String × View)
  | [] => []
  | (key, value) :: rest => (key, value.view) :: Node.attributeViews rest

/-- The view of an attribute. -/
def Attribute.view : Attribute → View
  | .text value => .text value
  | .flag value => .flag value
  | .number value => .number value
  | .list items => .list (Attribute.itemViews items)
  | .node node => node.view

/-- The views of the attributes of a list. -/
def Attribute.itemViews : List Attribute → List View
  | [] => []
  | item :: rest => item.view :: Attribute.itemViews rest

end

/-- The views of a list of nodes are taken one by one. -/
theorem Node.views_eq_map (nodes : List Node) : Node.views nodes = nodes.map Node.view := by
  induction nodes with
  | nil => rfl
  | cons node rest ih => simp [Node.views, ih]

/-- The view of a document is the list of its nodes' views. -/
def Document.view (document : Document) : View :=
  .list (Node.views document.nodes)

end DocTree
