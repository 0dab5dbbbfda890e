import DocTree.Node

/-!
# Expectations of nodes

An expectation says what a node should be like, and a check gives the first expectation that is not
met, as a message that names the place in the tree.
-/

namespace DocTree

/-- What a node should be like. -/
inductive Expectation where
  | name (expected : String)
  | payload (expected : List String)
  | primary (expected : Bool)
  | childCount (slot : String) (expected : Nat)
  | noSlot (slot : String)
  | child (slot : String) (index : Nat) (checks : List Expectation)
  deriving Inhabited

mutual

/-- The first failure of an expectation at a place in the tree. -/
def Expectation.failure? (place : String) (node : Node) : Expectation → Option String
  | .name expected =>
    if node.name = expected then none
    else some (place ++ ": Expected name '" ++ expected ++ "', found '" ++ node.name ++ "'")
  | .payload expected =>
    if node.payload = expected then none else some (place ++ ": payload mismatch")
  | .primary expected =>
    if node.primary = expected then none
    else some (place ++ ": Expected primary = " ++ toString expected)
  | .childCount slot expected =>
    let count := (node.childrenOf slot).length
    if count = expected then none
    else some (place ++ ": Expected " ++ toString expected ++ " children in '" ++ slot
      ++ "', found " ++ toString count)
  | .noSlot slot =>
    if Keyed.contains node.children slot then some (place ++ ": Expected no '" ++ slot ++ "'")
    else none
  | .child slot index checks =>
    let children := node.childrenOf slot
    match children[index]? with
    | some found =>
      Expectation.firstFailure? (place ++ " > " ++ slot ++ "[" ++ toString index ++ "]") found
        checks
    | none => some (place ++ ": '" ++ slot ++ "' has " ++ toString children.length
        ++ " children, no index " ++ toString index)

/-- The first failure of expectations at a place in the tree. -/
def Expectation.firstFailure? (place : String) (node : Node) : List Expectation → Option String
  | [] => none
  | expectation :: rest =>
    match expectation.failure? place node with
    | some failure => some failure
    | none => Expectation.firstFailure? place node rest

end

/-- The first expectation that a node does not meet. -/
def Node.unmet? (node : Node) (expectations : List Expectation) : Option String :=
  Expectation.firstFailure? ("node '" ++ node.name ++ "'") node expectations

end DocTree
