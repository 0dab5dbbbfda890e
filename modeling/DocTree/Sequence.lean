import DocTree.Token

/-!
# Sequences of links

A sequence keeps its links in the order they were pushed, and a link's place in that order is its
id for good. Beside that, each link may have a previous and a next link, which chain the links in
document order. A link that is removed leaves its chain but keeps its place and its text; a link
that is emptied stays in its chain without text; a link that is claimed has had a node built from
it. Reading a link outside the sequence gives the blank link, and changing one does nothing.
-/

namespace DocTree

/-- The place of a link in its sequence. -/
abbrev LinkId := Nat

/-- What has become of a link. -/
inductive LinkState where
  | live
  | claimed
  | emptied
  | removed
  deriving DecidableEq, Repr, Inhabited

/-- The two ways along a chain. -/
inductive Direction where
  | previous
  | next
  deriving DecidableEq, Repr

/-- The text and the kind of a token in a sequence, its neighbours in its chain, and what has become
of it. -/
structure Link where
  data : String := ""
  value : String := ""
  previous : Option LinkId := none
  next : Option LinkId := none
  state : LinkState := .live
  deriving DecidableEq, Repr, Inhabited

namespace Link

/-- A live link for a token, without neighbours. -/
def ofToken (token : Token) : Link :=
  { data := token.data, value := token.value }

/-- The token that a link holds. -/
def token (link : Link) : Token :=
  { value := link.value, data := link.data }

end Link

/-- Links in the order they were pushed. -/
structure Sequence where
  links : Array Link := #[]
  deriving DecidableEq, Repr, Inhabited

namespace Sequence

/-- How many links were ever pushed. -/
def size (s : Sequence) : Nat := s.links.size

/-- All ids, in the order of pushing. -/
def ids (s : Sequence) : List LinkId := List.range s.size

/-- The link of an id. -/
def link (s : Sequence) (id : LinkId) : Link := s.links[id]?.getD {}

/-- The text of a link. -/
def data (s : Sequence) (id : LinkId) : String := (s.link id).data

/-- The kind of a link. -/
def value (s : Sequence) (id : LinkId) : String := (s.link id).value

/-- The state of a link. -/
def state (s : Sequence) (id : LinkId) : LinkState := (s.link id).state

/-- The link before a link. -/
def previous (s : Sequence) (id : LinkId) : Option LinkId := (s.link id).previous

/-- The link after a link. -/
def next (s : Sequence) (id : LinkId) : Option LinkId := (s.link id).next

/-- The neighbour of a link in a direction. -/
def step (s : Sequence) (direction : Direction) (id : LinkId) : Option LinkId :=
  match direction with
  | .previous => s.previous id
  | .next => s.next id

/-- Whether a link is live. -/
def isLive (s : Sequence) (id : LinkId) : Bool := s.state id == .live

/-- Whether a link is still in a chain. -/
def isReachable (s : Sequence) (id : LinkId) : Bool := s.state id != .removed

/-- How many links are live. -/
def liveCount (s : Sequence) : Nat := s.ids.countP s.isLive

/-! ## Changing links -/

/-- Change the link of an id. -/
def modify (s : Sequence) (id : LinkId) (f : Link → Link) : Sequence :=
  { links := s.links.modify id f }

/-- Set the link after a link. -/
def setNext (s : Sequence) (id : LinkId) (next : Option LinkId) : Sequence :=
  s.modify id fun link => { link with next }

/-- Set the link before a link. -/
def setPrevious (s : Sequence) (id : LinkId) (previous : Option LinkId) : Sequence :=
  s.modify id fun link => { link with previous }

/-- Add a link without neighbours; its id is the size before. -/
def push (s : Sequence) (token : Token) : Sequence :=
  { links := s.links.push (.ofToken token) }

/-- Put a link between another link and that one's successor. -/
def linkAfter (s : Sequence) (after id : LinkId) : Sequence :=
  let successor := s.next after
  let linked := ((s.setNext after (some id)).setPrevious id (some after)).setNext id successor
  match successor with
  | some successor => linked.setPrevious successor (some id)
  | none => linked

/-- Add a link right after another one, or without neighbours; its id is the size before. -/
def pushAfter (s : Sequence) (after : Option LinkId) (token : Token) : Sequence :=
  match after with
  | some after => (s.push token).linkAfter after s.size
  | none => s.push token

/-- A sequence that chains the tokens in order. -/
def ofTokens (tokens : List Token) : Sequence :=
  (tokens.foldl
    (fun (s, last) token => (s.pushAfter last token, some s.size)) (({} : Sequence), none)).1

/-- Mark a link as used by a node; only a live link changes. -/
def claim (s : Sequence) (id : LinkId) : Sequence :=
  s.modify id fun link => if link.state = .live then { link with state := .claimed } else link

/-- Take the text out of a link, which keeps its place in the chain. A removed link has none to
take. -/
def empty (s : Sequence) (id : LinkId) : Sequence × String :=
  if s.isReachable id then
    (s.modify id fun link => { link with data := "", value := "", state := .emptied }, s.data id)
  else (s, "")

/-- Take a link out of its chain, closing the gap, and give the link that came after it. A removed
link stays as it is. -/
def remove (s : Sequence) (id : LinkId) : Sequence × Option LinkId :=
  if s.isReachable id then
    let previous := s.previous id
    let next := s.next id
    let alone := s.modify id fun link => { link with previous := none, next := none }
    let closed := match previous with
      | some previous => alone.setNext previous next
      | none => alone
    let closed := match next with
      | some next => closed.setPrevious next previous
      | none => closed
    (closed.modify id fun link => { link with state := .removed }, next)
  else (s, none)

/-! ## What the changes leave -/

/-- Changing a link adds none. -/
@[simp]
theorem size_modify (s : Sequence) (id : LinkId) (f : Link → Link) :
    (s.modify id f).size = s.size :=
  Array.size_modify

/-- The changed link is what the change makes of it. -/
theorem link_modify_self {s : Sequence} {id : LinkId} (h : id < s.size) (f : Link → Link) :
    (s.modify id f).link id = f (s.link id) := by
  have hget : s.links[id]? = some s.links[id] := Array.getElem?_eq_getElem h
  simp [link, modify, Array.getElem?_modify, hget]

/-- The other links stay as they are. -/
theorem link_modify_of_ne {s : Sequence} {id other : LinkId} (h : other ≠ id) (f : Link → Link) :
    (s.modify id f).link other = s.link other := by
  simp [link, modify, Array.getElem?_modify, h.symm]

/-- Pushing adds one link. -/
@[simp]
theorem size_push (s : Sequence) (token : Token) : (s.push token).size = s.size + 1 :=
  Array.size_push _

/-- The pushed link holds its token and has no neighbours. -/
@[simp]
theorem link_push_size (s : Sequence) (token : Token) :
    (s.push token).link s.size = .ofToken token := by
  simp [link, push, size]

/-- Pushing changes no link that was there. -/
theorem link_push_of_ne {s : Sequence} {id : LinkId} (h : id ≠ s.size) (token : Token) :
    (s.push token).link id = s.link id := by
  have hne : id ≠ s.links.size := h
  simp [link, push, Array.getElem?_push, hne]

/-- Chaining a link after another one adds none. -/
@[simp]
theorem size_linkAfter (s : Sequence) (after id : LinkId) :
    (s.linkAfter after id).size = s.size := by
  cases h : s.next after <;> simp [linkAfter, setNext, setPrevious, h]

/-- Pushing after a link adds one. -/
@[simp]
theorem size_pushAfter (s : Sequence) (after : Option LinkId) (token : Token) :
    (s.pushAfter after token).size = s.size + 1 := by
  cases after <;> simp [pushAfter]

/-- Claiming a link adds none. -/
@[simp]
theorem size_claim (s : Sequence) (id : LinkId) : (s.claim id).size = s.size :=
  size_modify ..

/-- Emptying a link adds none. -/
@[simp]
theorem size_empty (s : Sequence) (id : LinkId) : (s.empty id).1.size = s.size := by
  unfold empty
  split <;> simp

/-- Removing a link adds none. -/
@[simp]
theorem size_remove (s : Sequence) (id : LinkId) : (s.remove id).1.size = s.size := by
  unfold remove
  split
  · cases hprevious : s.previous id <;> cases hnext : s.next id <;> simp [setNext, setPrevious]
  · rfl

/-! ## Walking along a chain -/

/-- At most `count` links from a link on, itself first. -/
def trailUpTo (s : Sequence) (direction : Direction) : Nat → LinkId → List LinkId
  | 0, _ => []
  | count + 1, id =>
    id :: match s.step direction id with
      | some neighbour => s.trailUpTo direction count neighbour
      | none => []

/-- The links from a link on, itself first. A chain never meets a link twice, so it is no longer
than the sequence. -/
def trail (s : Sequence) (direction : Direction) (id : LinkId) : List LinkId :=
  s.trailUpTo direction s.size id

/-- The first link of a link's chain. -/
def head (s : Sequence) (id : LinkId) : LinkId :=
  (s.trail .previous id).getLastD id

/-- The last link of a link's chain. -/
def tail (s : Sequence) (id : LinkId) : LinkId :=
  (s.trail .next id).getLastD id

/-- The links from a link to the end of its chain. -/
def iter (s : Sequence) (id : LinkId) : List LinkId :=
  s.trail .next id

/-- The nearest live link of a kind, the starting link included. -/
def find? (s : Sequence) (id : LinkId) (kind : String) (direction : Direction) : Option LinkId :=
  (s.trail direction id).find? fun other => s.isLive other && s.value other == kind

/-- Whether a link may be absorbed as one of a kind: it is live, of that kind, and has text. -/
def isAbsorbable (s : Sequence) (kind : String) (id : LinkId) : Bool :=
  s.isLive id && s.value id == kind && s.data id != ""

/-- The unbroken run of absorbable links right beside a link, in document order. -/
def siblings (s : Sequence) (id : LinkId) (kind : String) (direction : Direction) : List LinkId :=
  let run := ((s.trail direction id).drop 1).takeWhile (s.isAbsorbable kind)
  match direction with
  | .previous => run.reverse
  | .next => run

/-- The tokens from a link to the end of its chain. -/
def toTokens (s : Sequence) (id : LinkId) : List Token :=
  (s.iter id).map fun id => (s.link id).token

/-! ## Pruning -/

/-- Remove the links without text from `current` on; `kept` is the first link that was kept. -/
def pruneFrom : Nat → Sequence → Option LinkId → Option LinkId → Sequence × Option LinkId
  | 0, s, _, kept => (s, kept)
  | _ + 1, s, none, kept => (s, kept)
  | fuel + 1, s, some id, kept =>
    if s.data id = "" then
      let (s, next) := s.remove id
      pruneFrom fuel s next kept
    else pruneFrom fuel s (s.next id) (kept <|> some id)

/-- Remove every link without text from a link to the end of its chain, and give the first link
that stays. Between two removals no link is met twice, and no link is removed twice, which bounds
the walk. -/
def pruneEmpty (s : Sequence) (first : LinkId) : Sequence × Option LinkId :=
  pruneFrom ((s.size + 1) * (s.size + 1)) s (some first) none

end Sequence

end DocTree
