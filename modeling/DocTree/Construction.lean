import DocTree.Event
import DocTree.Registry

/-!
# Building nodes

A node is built from a link of a sequence in three steps: the link is claimed, the runs of absorbed
kinds on both sides give their paragraphs, and then every live link of a child kind on the whole
chain is taken out and built into a child. Building a child may absorb and extract in turn, and a
recipe may change the chain under its builder's hands, so after each child the builder finds its
place on the chain again from what is still linked.

Building takes a budget of steps and gives `none` when that runs out. With declared kinds each
child uses up a live link, so that four steps for each live link are enough; recipes that go on
inserting links or pass the work around in a circle would never end.
-/

namespace DocTree

/-- The outcome of a change to a sequence: a value, the sequence after it, and what there is to
report. -/
structure Built (α : Type) where
  result : α
  sequence : Sequence
  events : List Event := []

namespace Construction

/-- Empty links in order and split the text taken from each into paragraphs. -/
def takeParagraphs (s : Sequence) : List LinkId → Sequence × List String
  | [] => (s, [])
  | id :: rest =>
    let (s, text) := s.empty id
    let (s, paragraphs) := takeParagraphs s rest
    (s, Paragraph.split text ++ paragraphs)

/-- Take the paragraphs of the run of a kind beside a link; without a kind there is none. -/
def absorb (s : Sequence) (id : LinkId) (node : String) (direction : Direction) :
    Option String → Built (List String)
  | none => { result := [], sequence := s }
  | some kind =>
    let run := s.siblings id kind direction
    let (taken, paragraphs) := takeParagraphs s run
    { result := paragraphs, sequence := taken
      events := if run.isEmpty then [] else [.absorbed node kind run.length direction] }

/-- Where to search a chain from: its head, found from the node's link or else from the first link
of the chain, whichever is still in a chain. -/
def rewind (s : Sequence) (id : LinkId) (first : Option LinkId) : Option LinkId :=
  (([id] ++ first.toList).find? s.isReachable).map s.head

/-- The state of extracting children: the sequence, the first link of the chain, the node so far,
and what there is to report. -/
structure Extraction where
  sequence : Sequence
  first : Option LinkId
  node : Node
  events : List Event := []

/-- Take a link out of the chain after a child was or was not built from it, and give the place to
search on from. -/
def Extraction.drop (e : Extraction) (id found : LinkId) : Extraction × Option LinkId :=
  let wasLinked := e.sequence.isReachable found
  let (s, next) := e.sequence.remove found
  let first := if e.first = some found then next else e.first
  ({ e with sequence := s, first }, if wasLinked then next else rewind s id first)

/-- Add what came of building a child from a link. -/
def Extraction.addChild (e : Extraction) (kind : String) (found : LinkId)
    (built : Built (Option Node)) : Extraction :=
  let attempt := e.events ++ .attempted kind found :: built.events
  match built.result with
  | some child =>
    { e with sequence := built.sequence, node := e.node.addChild (slotName kind) child
             events := attempt }
  | none =>
    { e with sequence := built.sequence, events := attempt ++ [.dropped e.node.name kind] }

/-- A node claimed from its link with the paragraphs of both absorbed runs, before any child is
extracted. -/
def begin (s : Sequence) (id : LinkId) (kind : Kind) : Extraction :=
  let claimed := s.claim id
  let name := claimed.value id
  let own := Paragraph.split (claimed.data id)
  let before := absorb claimed id name .previous kind.absorbPrevious
  let after := absorb before.sequence id name .next kind.absorbNext
  { sequence := after.sequence
    first := some (after.sequence.head id)
    node := { Node.leaf name (before.result ++ own ++ after.result) with primary := kind.primary }
    events := before.events ++ after.events }

mutual

/-- Build a node from a link with what is registered under a name; there is none if nothing is
registered or a recipe gives none. -/
def createWithin (registry : Registry) :
    Nat → String → Sequence → LinkId → Option (Built (Option Node))
  | 0, _, _, _ => none
  | budget + 1, name, s, id =>
    match registry.find? name with
    | none => some { result := none, sequence := s }
    | some entry =>
      match entry.build with
      | .declared kind => do
        let built ← constructWithin registry budget kind s id
        some { built with result := some built.result }
      | .scripted recipe => do
        let prepared := RecipeStep.applyAll recipe.before s id
        let built ← match recipe.result with
          | .nothing => some { result := none, sequence := prepared }
          | .anonymous => some { result := some (Node.leaf "" []), sequence := prepared }
          | .delegate other => createWithin registry budget other prepared id
          | .node kind => do
            let built ← constructWithin registry budget kind prepared id
            some { built with result := some built.result }
        match built.result with
        | none => some built
        | some node =>
          some { built with
            result := some (recipe.finish node)
            sequence := RecipeStep.applyAll recipe.after built.sequence id }

/-- Build a node of a kind from a link. -/
def constructWithin (registry : Registry) :
    Nat → Kind → Sequence → LinkId → Option (Built Node)
  | 0, _, _, _ => none
  | budget + 1, kind, s, id => do
    let start := begin s id kind
    let done ← kind.children.foldlM (fun e child => extractWithin registry budget id child e) start
    some { result := done.node, sequence := done.sequence
           events := .opened id :: done.events ++ [.closed id] }

/-- Extract every link of one child kind from the chain of a link. -/
def extractWithin (registry : Registry) :
    Nat → LinkId → String → Extraction → Option Extraction
  | 0, _, _, _ => none
  | budget + 1, id, kind, e =>
    if slotName kind = "" then
      some { e with events := e.events ++ [.noSlot e.node.name kind] }
    else searchWithin registry budget id kind e (rewind e.sequence id e.first)

/-- Extract the links of one child kind that are met from a place on. -/
def searchWithin (registry : Registry) :
    Nat → LinkId → String → Extraction → Option LinkId → Option Extraction
  | 0, _, _, _, _ => none
  | budget + 1, id, kind, e, place =>
    match place.bind fun start => e.sequence.find? start kind .next with
    | none => some e
    | some found =>
      match createWithin registry budget kind e.sequence found with
      | none => none
      | some built =>
        let (e, place) := (e.addChild kind found built).drop id found
        searchWithin registry budget id kind e place

end

/-- Steps granted to recipes, beyond those that declared kinds need. -/
def recipeAllowance : Nat := 1000000

/-- The steps granted to one building run: four for each live link and four to begin with, which is
all that declared kinds need, and the allowance for recipes. -/
def budget (s : Sequence) : Nat :=
  4 * s.liveCount + 4 + recipeAllowance

end Construction

/-- Build a node from a link with what is registered under a name. -/
def Registry.create (registry : Registry) (name : String) (s : Sequence) (id : LinkId) :
    Option (Built (Option Node)) :=
  Construction.createWithin registry (Construction.budget s) name s id

/-- Build a node of a kind from a link, with the children that a registry builds. -/
def Kind.construct (kind : Kind) (registry : Registry) (s : Sequence) (id : LinkId) :
    Option (Built Node) :=
  Construction.constructWithin registry (Construction.budget s) kind s id

end DocTree
