import DocTree.Format
import DocTree.Intake

/-!
# A workbench over one sequence

A workbench holds an intake, a registry and the last document, and carries out single operations on
them. Operations that name a link which was never pushed are refused, as is a construction that
does not come to an end; everything else gives an answer.
-/

namespace DocTree

/-- Why a workbench refuses an operation. -/
inductive Refusal where
  /-- A link was named that the sequence does not have. -/
  | noSuchLink
  | unfinished
  deriving DecidableEq, Repr

/-- What is at hand while single operations are carried out: the sequence and how it grows, how
nodes are built, and the document that was assembled last. -/
structure Workbench where
  intake : Intake := {}
  registry : Registry := {}
  document : Document := {}

namespace Workbench

/-- The sequence of a workbench. -/
def sequence (bench : Workbench) : Sequence := bench.intake.sequence

/-- A workbench with another sequence. -/
def withSequence (bench : Workbench) (s : Sequence) : Workbench :=
  { bench with intake := { bench.intake with sequence := s } }

/-- Refuse a link that is not below a bound. -/
def requireBelow (bound : Nat) (id : LinkId) : Except Refusal Unit :=
  if id < bound then .ok () else .error .noSuchLink

/-- Refuse a link that the sequence does not have. -/
def require (bench : Workbench) (id : LinkId) : Except Refusal Unit :=
  requireBelow bench.sequence.size id

/-- Refuse the link to push after, if there is one, when the sequence has no such link even after
the push. -/
def requireAfter (bench : Workbench) : Option LinkId → Except Refusal Unit
  | some after => requireBelow (bench.sequence.size + 1) after
  | none => .ok ()

/-- Read something of a link. -/
def read {α : Type} (bench : Workbench) (f : Sequence → LinkId → α) (id : LinkId) :
    Except Refusal α := do
  bench.require id
  return f bench.sequence id

/-- Start over with a sequence of the given tokens; the intake keeps its first and last link. -/
def load (bench : Workbench) (tokens : List Token) : Workbench :=
  bench.withSequence (.ofTokens tokens)

/-- Push a token after a link or without neighbours, and give its link. -/
def pushAfter (bench : Workbench) (after : Option LinkId) (token : Token) :
    Except Refusal (Workbench × LinkId) := do
  bench.requireAfter after
  return (bench.withSequence (bench.sequence.pushAfter after token), bench.sequence.size)

/-- Link one link after another. -/
def linkAfter (bench : Workbench) (after id : LinkId) : Except Refusal Workbench := do
  bench.require after
  bench.require id
  return bench.withSequence (bench.sequence.linkAfter after id)

/-- Claim a link. -/
def claim (bench : Workbench) (id : LinkId) : Except Refusal Workbench := do
  bench.require id
  return bench.withSequence (bench.sequence.claim id)

/-- Empty a link, and give its text. -/
def empty (bench : Workbench) (id : LinkId) : Except Refusal (Workbench × String) := do
  bench.require id
  let (s, text) := bench.sequence.empty id
  return (bench.withSequence s, text)

/-- Remove a link, and give its successor. -/
def remove (bench : Workbench) (id : LinkId) : Except Refusal (Workbench × Option LinkId) := do
  bench.require id
  let (s, next) := bench.sequence.remove id
  return (bench.withSequence s, next)

/-- Remove the links without text from a link on, and give the first that stays. -/
def pruneEmpty (bench : Workbench) (id : LinkId) : Except Refusal (Workbench × Option LinkId) := do
  bench.require id
  let (s, first) := bench.sequence.pruneEmpty id
  return (bench.withSequence s, first)

/-- Take a batch of tokens in, and give its first link. -/
def parse (bench : Workbench) (tokens : List Token) :
    Except Refusal (Workbench × Option LinkId) := do
  bench.requireAfter bench.intake.last
  let (intake, first) := bench.intake.parse tokens
  return ({ bench with intake }, first)

/-- The listing of the tokens taken in: a JSON list of their texts and kinds, or nothing when there
is no first link. -/
def listing (bench : Workbench) : Except Refusal String := do
  match bench.intake.first with
  | none => return ""
  | some first =>
    bench.require first
    return bench.intake.listing

/-- Refuse the link of a construction as its first use demands: a link that is looked at must be
there, and one after which a token is pushed must be there after the push. -/
def requireFor (bench : Workbench) (id : LinkId) : FirstUse → Except Refusal Unit
  | .never _ => .ok ()
  | .push => bench.requireAfter (some id)
  | .look => bench.require id

/-- Build a node from a link with what is registered under a name. -/
def create (bench : Workbench) (name : String) (id : LinkId) :
    Except Refusal (Workbench × Option Node) := do
  bench.requireFor id (bench.registry.firstUseOf name)
  match bench.registry.create name bench.sequence id with
  | some built => return (bench.withSequence built.sequence, built.result)
  | none => throw .unfinished

/-- Build a node of a kind from a link. -/
def construct (bench : Workbench) (kind : Kind) (id : LinkId) :
    Except Refusal (Workbench × Node) := do
  bench.require id
  match kind.construct bench.registry bench.sequence id with
  | some built => return (bench.withSequence built.sequence, built.result)
  | none => throw .unfinished

/-- Assemble the sequence into the document of the workbench. -/
def assemble (bench : Workbench) : Except Refusal Workbench :=
  match bench.sequence.assemble bench.registry with
  | some built => .ok { bench.withSequence built.sequence with document := built.result }
  | none => .error .unfinished

end Workbench

end DocTree
