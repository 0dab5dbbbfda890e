import DocTree.Json.Text
import DocTree.Token

/-!
# Reading tokens from JSON

A token file holds one list. Each token is an object with the fields `data` and `value`, both texts
and both optional, or a list of up to two texts in that order. Other fields of an object are passed
over, but their spelling is checked. The first fault met in reading order is reported.
-/

namespace DocTree.Json

/-! ## Passing over values -/

/-- A list or an object that is open around the present place. -/
inductive Enclosing where
  | list
  | object
  deriving DecidableEq

namespace Enclosing

/-- The character that ends the enclosing value. -/
def close : Enclosing → Char
  | list => ']'
  | object => '\x7d'

/-- The fault when the text ends inside. -/
def atEnd : Enclosing → Fault
  | list => .endInList
  | object => .endInObject

/-- The fault when something else than a comma or the end follows an entry. -/
def afterEntry : Enclosing → Fault
  | list => .noListEnd
  | object => .noObjectEnd

end Enclosing

/-- Pass over a value that is not a list or an object. -/
def skipScalar (c : Char) (rest : List Char) : Except Fault (List Char) :=
  if c = 'n' then readWord ['u', 'l', 'l'] rest
  else if c = 't' then readWord ['r', 'u', 'e'] rest
  else if c = 'f' then readWord ['a', 'l', 's', 'e'] rest
  else if c = '-' then skipNumber rest
  else if c.isDigit then skipNumber (c :: rest)
  else if c = '"' then skipText rest
  else .error .noValue

/-- Pass over a key and its colon. -/
def skipKey (text : List Char) : Except Fault (List Char) :=
  match skipBlanks text with
  | [] => .error .endInObject
  | '"' :: rest =>
    match skipText rest with
    | .error fault => .error fault
    | .ok rest =>
      match skipBlanks rest with
      | [] => .error .endInObject
      | ':' :: rest => .ok rest
      | _ => .error .noColon
  | _ => .error .keyNotText

mutual

/-- Pass over a value inside the enclosing ones, and then over what closes these. -/
def skipValueWithin : Nat → List Enclosing → List Char → Except Fault (List Char)
  | 0, _, text => .ok text
  | fuel + 1, stack, text =>
    match skipBlanks text with
    | [] => .error .endInValue
    | '[' :: rest => skipOpenedWithin fuel .list stack rest
    | '\x7b' :: rest => skipOpenedWithin fuel .object stack rest
    | c :: rest =>
      match skipScalar c rest with
      | .error fault => .error fault
      | .ok rest => skipAfterWithin fuel stack rest

/-- Go on after the opening of a list or an object. -/
def skipOpenedWithin : Nat → Enclosing → List Enclosing → List Char → Except Fault (List Char)
  | 0, _, _, text => .ok text
  | fuel + 1, opened, stack, text =>
    match skipBlanks text with
    | [] => .error opened.atEnd
    | c :: rest =>
      if c = opened.close then skipAfterWithin fuel stack rest
      else skipEntryWithin fuel opened stack (c :: rest)

/-- Pass over an entry of a list or an object. -/
def skipEntryWithin : Nat → Enclosing → List Enclosing → List Char → Except Fault (List Char)
  | 0, _, _, text => .ok text
  | fuel + 1, .list, stack, text => skipValueWithin fuel (.list :: stack) text
  | fuel + 1, .object, stack, text =>
    match skipKey text with
    | .error fault => .error fault
    | .ok rest => skipValueWithin fuel (.object :: stack) rest

/-- Go on after a value: to the next entry of the enclosing value, or out of it. -/
def skipAfterWithin : Nat → List Enclosing → List Char → Except Fault (List Char)
  | 0, _, text => .ok text
  | _ + 1, [], text => .ok text
  | fuel + 1, enclosing :: stack, text =>
    match skipBlanks text with
    | [] => .error enclosing.atEnd
    | c :: rest =>
      if c = ',' then skipEntryWithin fuel enclosing stack rest
      else if c = enclosing.close then skipAfterWithin fuel stack rest
      else .error enclosing.afterEntry

end

/-- Pass over a value. Each character is the reason for at most three steps. -/
def skipValue (text : List Char) : Except Fault (List Char) :=
  skipValueWithin (4 * text.length + 4) [] text

/-! ## Expected values -/

/-- The fault of a value that begins here where something else was expected; a fault in its own
spelling comes first. -/
def mismatch (expected : String) (c : Char) (rest : List Char) : Fault :=
  let report {α : Type} (found : Found) : Except Fault α → Fault
    | .error fault => fault
    | .ok _ => .mismatch found expected
  if c = 'n' then report .null (readWord ['u', 'l', 'l'] rest)
  else if c = 't' then report (.flag true) (readWord ['r', 'u', 'e'] rest)
  else if c = 'f' then report (.flag false) (readWord ['a', 'l', 's', 'e'] rest)
  else if c = '-' || c.isDigit then
    match readNumber (c == '-') (if c = '-' then rest else c :: rest) with
    | .error fault => fault
    | .ok (found, _) => .mismatch found expected
  else if c = '"' then
    match readText rest with
    | .error fault => fault
    | .ok (text, _) => .mismatch (.text (String.ofList text)) expected
  else if c = '[' then .mismatch .list expected
  else if c = '\x7b' then .mismatch .object expected
  else .noValue

/-- Read a value that must be a text. -/
def readTextValue (text : List Char) : Except Fault (String × List Char) :=
  match skipBlanks text with
  | [] => .error .endInValue
  | c :: rest =>
    if c = '"' then (readText rest).map fun (body, rest) => (String.ofList body, rest)
    else .error (mismatch "a string" c rest)

/-! ## Tokens -/

/-- Read a colon between a key and its value. -/
def readColon (text : List Char) : Except Fault (List Char) :=
  match skipBlanks text with
  | [] => .error .endInObject
  | ':' :: rest => .ok rest
  | _ => .error .noColon

/-- Read up to the next entry of a list; gives `none` at the closing bracket, which is left. -/
def nextEntry (first : Bool) (text : List Char) : Except Fault (Option (List Char)) :=
  match skipBlanks text with
  | [] => .error .endInList
  | c :: rest =>
    if c = ']' then .ok none
    else if first then .ok (some (c :: rest))
    else if c = ',' then
      match skipBlanks rest with
      | [] => .error .endInValue
      | ']' :: _ => .error .trailingComma
      | entry => .ok (some entry)
    else .error .noListEnd

/-- Read up to the next key of an object, past its quote; gives `none` at the closing brace, which
is left. -/
def nextKey (first : Bool) (text : List Char) : Except Fault (Option (List Char)) :=
  match skipBlanks text with
  | [] => .error .endInObject
  | c :: rest =>
    if c = '\x7d' then .ok none
    else if first then
      if c = '"' then .ok (some rest) else .error .keyNotText
    else if c = ',' then
      match skipBlanks rest with
      | [] => .error .endInValue
      | '"' :: key => .ok (some key)
      | '\x7d' :: _ => .error .trailingComma
      | _ => .error .keyNotText
    else .error .noObjectEnd

/-- Read the bracket that ends a list. -/
def readListEnd (text : List Char) : Except Fault (List Char) :=
  match skipBlanks text with
  | [] => .error .endInList
  | ']' :: rest => .ok rest
  | ',' :: rest =>
    match skipBlanks rest with
    | ']' :: _ => .error .trailingComma
    | _ => .error .trailingCharacters
  | _ => .error .trailingCharacters

/-- Read an entry that must be a text, if there is one more. -/
def readOptionalText (first : Bool) (text : List Char) : Except Fault (String × List Char) := do
  match ← nextEntry first text with
  | none => return ("", text)
  | some entry => readTextValue entry

/-- Read a token given as a list, after its opening bracket. -/
def readPair (text : List Char) : Except Fault (Token × List Char) := do
  let (data, text) ← readOptionalText true text
  let (value, text) ← readOptionalText false text
  return ({ value, data }, ← readListEnd text)

/-- Read the fields of a token given as an object, as many as there may be, up to the closing
brace. -/
def readFieldsWithin : Nat → Bool → Option String → Option String → List Char →
    Except Fault (Token × List Char)
  | 0, _, _, _, _ => .error .endInObject
  | fuel + 1, first, data, value, text => do
    match ← nextKey first text with
    | none =>
      return ({ value := value.getD "", data := data.getD "" }, (skipBlanks text).drop 1)
    | some key =>
      let (name, rest) ← readText key
      if name = ['d', 'a', 't', 'a'] then
        if data.isSome then throw (.repeatedField "data")
        let (body, rest) ← readTextValue (← readColon rest)
        readFieldsWithin fuel false (some body) value rest
      else if name = ['v', 'a', 'l', 'u', 'e'] then
        if value.isSome then throw (.repeatedField "value")
        let (body, rest) ← readTextValue (← readColon rest)
        readFieldsWithin fuel false data (some body) rest
      else
        let rest ← skipValue (← readColon rest)
        readFieldsWithin fuel false data value rest

/-- Read one token. -/
def readToken (text : List Char) : Except Fault (Token × List Char) :=
  match skipBlanks text with
  | [] => .error .endInValue
  | c :: rest =>
    if c = '[' then readPair rest
    else if c = '\x7b' then readFieldsWithin (rest.length + 1) true none none rest
    else .error (mismatch "struct RawToken" c rest)

/-- Read the tokens of a list, as many as there may be, up to the closing bracket. -/
def readTokensWithin : Nat → Bool → List Char → Except Fault (List Token × List Char)
  | 0, _, _ => .error .endInList
  | fuel + 1, first, text => do
    match ← nextEntry first text with
    | none => return ([], (skipBlanks text).drop 1)
    | some entry =>
      let (token, rest) ← readToken entry
      let (tokens, rest) ← readTokensWithin fuel false rest
      return (token :: tokens, rest)

/-- The tokens of a JSON text. -/
def readTokens (source : String) : Except Fault (List Token) := do
  match skipBlanks source.toList with
  | [] => throw .endInValue
  | c :: rest =>
    if c = '[' then
      let (tokens, rest) ← readTokensWithin (rest.length + 1) true rest
      if (skipBlanks rest).isEmpty then return tokens else throw .trailingCharacters
    else throw (mismatch "a sequence" c rest)

end DocTree.Json
