import DocTree.Construction

/-!
# Documents

A document is the list of the nodes built from a whole sequence: its chains are taken in the order
in which their heads were pushed, each is walked from its head, and every live link of a primary
kind that is met gives a node.
-/

namespace DocTree

/-- The top-level nodes of a document, in order. -/
structure Document where
  nodes : List Node := []

namespace Document

/-- Whether every node at every depth has a name. -/
def valid (document : Document) : Bool :=
  Node.validAll document.nodes

/-- The top-level nodes of a name. -/
def named (document : Document) (name : String) : List Node :=
  document.nodes.filter fun node => node.name == name

end Document

/-- The links that begin a chain, in the order of pushing. -/
def Sequence.heads (s : Sequence) : List LinkId :=
  s.ids.filter fun id => s.isReachable id && (s.previous id).isNone

namespace Assembly

/-- Build the top-level node of a link, if it is live and of a registered primary kind. -/
def buildAt (registry : Registry) (s : Sequence) (id : LinkId) : Option (Built (Option Node)) :=
  let kind := s.value id
  if !s.isLive id || kind == "" then some { result := none, sequence := s }
  else if !registry.has kind then
    some { result := none, sequence := s, events := [.unregistered kind] }
  else if !registry.isPrimary kind then some { result := none, sequence := s }
  else registry.create kind s id

/-- The link to go on with after a link was looked at: its successor, or, when it is no longer in
a chain, the successor of the link that was before it. -/
def advance (s : Sequence) (id : LinkId) (anchor : Option LinkId) : Option LinkId :=
  if s.isReachable id then s.next id
  else match anchor with
    | some anchor => if s.isReachable anchor then s.next anchor else none
    | none => none

/-- Walk a chain from a link to its end, adding each node that is built. -/
def walk (registry : Registry) :
    Nat → Option LinkId → Built (List Node) → Option (Built (List Node))
  | 0, _, _ => none
  | _ + 1, none, done => some done
  | budget + 1, some id, done =>
    let anchor := done.sequence.previous id
    match buildAt registry done.sequence id with
    | none => none
    | some built =>
      walk registry budget (advance built.sequence id anchor)
        { result := done.result ++ built.result.toList
          sequence := built.sequence
          events := done.events ++ built.events }

/-- The steps granted to the walk of one chain: one for each link and one to end with, and the
allowance for recipes, which may insert links. -/
def budget (s : Sequence) : Nat :=
  s.size + 1 + Construction.recipeAllowance

end Assembly

/-- Build the document of a sequence. -/
def Sequence.assemble (s : Sequence) (registry : Registry) : Option (Built Document) := do
  let done ← s.heads.foldlM
    (fun done head => Assembly.walk registry (Assembly.budget done.sequence) (some head) done)
    { result := [], sequence := s : Built (List Node) }
  some { done with result := { nodes := done.result } }

end DocTree
