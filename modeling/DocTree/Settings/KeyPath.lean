/-!
# Paths of keys

A setting is named by a path: a key, and then further keys after points or indexes in brackets.
-/

namespace DocTree

/-- A step from a value to a value inside it. -/
inductive KeyStep where
  | key (name : String)
  | index (place : Nat)
  deriving DecidableEq, Repr

/-- Why a text is not a path. -/
inductive KeyPathFault where
  | noName
  | strayCharacter
  | noIndex
  | indexTooLarge
  deriving DecidableEq, Repr

/-- What a fault in a path is called. -/
def KeyPathFault.reason : KeyPathFault → String
  | noName => "IsA"
  | strayCharacter => "Char"
  | noIndex => "Digit"
  | indexTooLarge => "Map on Result"

namespace KeyPath

/-- The characters of names in a path. -/
def isNameChar (c : Char) : Bool :=
  c.isAlphanum || c == ' ' || c == '_' || c == '-'

/-- Blanks around an index. -/
def isBlank (c : Char) : Bool :=
  c == ' ' || c == '\t'

/-- The largest index. -/
def maxIndex : Nat := Nat.pow 2 63 - 1

/-- Read an index after its opening bracket, and the text after its closing one. -/
def readIndex (text : List Char) : Except KeyPathFault (Nat × List Char) :=
  let text := text.dropWhile isBlank
  let digits := text.takeWhile Char.isDigit
  let index := digits.foldl (fun n c => 10 * n + (c.toNat - 48)) 0
  if digits.isEmpty then .error .noIndex
  else if maxIndex < index then .error .indexTooLarge
  else match (text.drop digits.length).dropWhile isBlank with
    | ']' :: rest => .ok (index, rest)
    | _ => .error .strayCharacter

/-- Read further steps, at most a number of them. -/
def readSteps : Nat → List Char → Except KeyPathFault (List KeyStep)
  | 0, _ => .ok []
  | fuel + 1, text =>
    match text with
    | [] => .ok []
    | '.' :: rest =>
      let name := rest.takeWhile isNameChar
      if name.isEmpty then .error .strayCharacter
      else (readSteps fuel (rest.drop name.length)).map (.key (String.ofList name) :: ·)
    | '[' :: rest => do
      let (index, rest) ← readIndex rest
      return .index index :: (← readSteps fuel rest)
    | _ => .error .strayCharacter

/-- The steps of a path. -/
def read (text : String) : Except KeyPathFault (List KeyStep) :=
  let chars := text.toList
  let name := chars.takeWhile isNameChar
  if name.isEmpty then .error .noName
  else
    (readSteps (chars.length + 1) (chars.drop name.length)).map (.key (String.ofList name) :: ·)

end KeyPath

end DocTree
