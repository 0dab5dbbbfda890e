import DocTree.Sequence

/-!
# What a run reports

A run over a sequence gives back, in order, the steps worth reporting. Most of them are of interest
in a log; the steps that open and close the building of a node, and each try to build a child,
are kept too, because they show how deep and how often building happened.
-/

namespace DocTree

/-- A step of a run. -/
inductive Event where
  /-- A batch of tokens was taken in. -/
  | classified (tokens : Nat)
  /-- Comment blocks were taken from a text. -/
  | blocksFound (count : Nat)
  /-- A link was passed over because nothing is registered for its kind. -/
  | unregistered (kind : String)
  /-- The building of a node from a link began. -/
  | opened (link : LinkId)
  /-- The building of a node from a link ended. -/
  | closed (link : LinkId)
  /-- A node took the text of the links beside its own. -/
  | absorbed (node kind : String) (count : Nat) (direction : Direction)
  /-- A child kind was passed over because it has no slot. -/
  | noSlot (node kind : String)
  /-- A child was to be built from a link. -/
  | attempted (kind : String) (link : LinkId)
  /-- A link of a child kind was dropped because no child came of it. -/
  | dropped (node kind : String)
  deriving DecidableEq, Repr

end DocTree
