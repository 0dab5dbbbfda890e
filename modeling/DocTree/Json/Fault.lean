import DocTree.Decimal.Text
import DocTree.Text.Quoted

/-!
# Faults of a JSON text

What can be wrong with a JSON text, in its spelling or because a value of another kind was expected
at some place.
-/

namespace DocTree.Json

/-- A value found where another kind of value was expected. -/
inductive Found where
  | null
  | flag (value : Bool)
  | integer (value : Int)
  | float (value : Float)
  | text (value : String)
  | list
  | object

/-- Numbers in messages: written out in full from `0.00001` to below `10^16`, with a point. -/
def numberForm : Decimal.NumberForm :=
  { inFull := fun exponent => -5 ≤ exponent && exponent ≤ 15, keepsPoint := true }

/-- What a message calls a found value. -/
def Found.describe : Found → String
  | null => "null"
  | flag value => "boolean `" ++ toString value ++ "`"
  | integer value => "integer `" ++ toString value ++ "`"
  | float value => "floating point `" ++ Decimal.print value numberForm ++ "`"
  | text value => "string " ++ Text.quoted value
  | list => "sequence"
  | object => "map"

/-- What can be wrong with a JSON text. -/
inductive Fault where
  | endInValue
  | endInList
  | endInObject
  | endInText
  | noValue
  | badWord
  | noColon
  | noListEnd
  | noObjectEnd
  | keyNotText
  | trailingComma
  | trailingCharacters
  | badNumber
  | numberOutOfRange
  | badEscape
  | loneSurrogate
  | halfSurrogatePair
  | controlCharacter
  | mismatch (found : Found) (expected : String)
  | repeatedField (name : String)

/-- What is wrong, in words. -/
def Fault.reason : Fault → String
  | endInValue => "EOF while parsing a value"
  | endInList => "EOF while parsing a list"
  | endInObject => "EOF while parsing an object"
  | endInText => "EOF while parsing a string"
  | noValue => "expected value"
  | badWord => "expected ident"
  | noColon => "expected `:`"
  | noListEnd => "expected `,` or `]`"
  | noObjectEnd => "expected `,` or `\x7d`"
  | keyNotText => "key must be a string"
  | trailingComma => "trailing comma"
  | trailingCharacters => "trailing characters"
  | badNumber => "invalid number"
  | numberOutOfRange => "number out of range"
  | badEscape => "invalid escape"
  | loneSurrogate => "lone leading surrogate in hex escape"
  | halfSurrogatePair => "unexpected end of hex escape"
  | controlCharacter => "control character (\\u0000-\\u001F) found while parsing a string"
  | mismatch found expected =>
    "invalid type: " ++ found.describe ++ ", expected " ++ expected
  | repeatedField name => "duplicate field `" ++ name ++ "`"

/-- The report of a faulty JSON text. -/
def Fault.message (fault : Fault) : String :=
  "json error: " ++ fault.reason

end DocTree.Json
