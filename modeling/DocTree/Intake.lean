import DocTree.Event
import DocTree.Json.Printer

/-!
# Taking tokens in

An intake owns a sequence and adds batches of tokens to it. Each batch begins with a blank sentinel
link after the end of what came before; a classifier then decides how each token is linked, and at
the end what the first link of the batch is. The intake remembers the first link of all and the
last link, so that the next batch continues the chain.
-/

namespace DocTree

/-- The ways to link a token to the end of a sequence, and to settle a batch. -/
inductive Classifier where
  /-- Tokens are linked one after another. -/
  | plain
  /-- As plain, and links without text are removed at the end of the batch. -/
  | pruning
  /-- Successive `line` tokens join into one link of the given kind. -/
  | joining (kind : String)
  /-- A `title` token goes right after the head of the chain, and the end stays where it was. -/
  | hoisting
  /-- A batch has no first link. -/
  | withoutFirst
  /-- The sentinel of a batch is removed again. -/
  | droppingFirst
  deriving DecidableEq, Repr

namespace Classifier

/-- The kind of the tokens that join into one. -/
def lineKind : String := "line"

/-- The kind of the tokens that are hoisted. -/
def titleKind : String := "title"

/-- Link a token, given the last link; the result names the new last link. -/
def classify (classifier : Classifier) (s : Sequence) (token : Token) (last : LinkId) :
    Sequence × LinkId :=
  match classifier with
  | .joining kind =>
    if token.value = lineKind ∧ s.value last = kind then
      let joined := { value := kind, data := s.data last ++ "\n" ++ token.data }
      let previous := s.previous last
      let (s, _) := s.remove last
      (s.pushAfter previous joined, s.size)
    else
      let value := if token.value = lineKind then kind else token.value
      (s.pushAfter (some last) { token with value }, s.size)
  | .hoisting =>
    if token.value = titleKind then (s.pushAfter (some (s.head last)) token, last)
    else (s.pushAfter (some last) token, s.size)
  | .plain | .pruning | .withoutFirst | .droppingFirst => (s.pushAfter (some last) token, s.size)

/-- Settle a batch that begins with a link, and name its first link. -/
def finalize (classifier : Classifier) (s : Sequence) (first : LinkId) :
    Sequence × Option LinkId :=
  match classifier with
  | .pruning => s.pruneEmpty first
  | .withoutFirst => (s, none)
  | .droppingFirst => s.remove first
  | .plain | .joining _ | .hoisting => (s, some first)

end Classifier

/-- A sequence that grows batch by batch: how tokens are linked, the sequence so far, the first link
of the first batch that had one, and the link that the next batch follows. -/
structure Intake where
  classifier : Classifier := .plain
  sequence : Sequence := {}
  first : Option LinkId := none
  last : Option LinkId := none
  deriving Repr

namespace Intake

/-- Link tokens in order after a link. -/
def classifyAll (classifier : Classifier) (s : Sequence) (last : LinkId) :
    List Token → Sequence × LinkId
  | [] => (s, last)
  | token :: rest =>
    let (s, last) := classifier.classify s token last
    classifyAll classifier s last rest

/-- Take a batch in, and give its first link. -/
def parse (intake : Intake) (tokens : List Token) : Intake × Option LinkId :=
  let sentinel := intake.sequence.size
  let begun := intake.sequence.pushAfter intake.last {}
  let (linked, last) := classifyAll intake.classifier begun sentinel tokens
  let (settled, first) := intake.classifier.finalize linked sentinel
  let last := if settled.isReachable last then some last else first.map settled.tail
  ({ intake with sequence := settled, first := intake.first <|> first, last }, first)

/-- The tokens of the chain from the first link on. -/
def tokens (intake : Intake) : List Token :=
  match intake.first with
  | some first => intake.sequence.toTokens first
  | none => []

/-- The tokens taken in as a JSON list, or nothing when no batch had a first link. -/
def listing (intake : Intake) : String :=
  match intake.first with
  | some _ => Json.render (.list (intake.tokens.map Token.view))
  | none => ""

end Intake

end DocTree
