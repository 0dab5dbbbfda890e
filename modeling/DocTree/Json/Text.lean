import DocTree.Json.Fault

/-!
# Reading the small parts of a JSON text

Blanks, quoted texts, words and numbers. A reader gets the characters that are left and gives those
that are left after it.
-/

namespace DocTree.Json

/-- The characters that may stand between the parts of a JSON text. -/
def isBlank (c : Char) : Bool :=
  c == ' ' || c == '\n' || c == '\t' || c == '\r'

/-- The characters from the first that is not blank on. -/
def skipBlanks (text : List Char) : List Char :=
  text.dropWhile isBlank

/-! ## Quoted texts -/

/-- The value of a hexadecimal digit. -/
def hexValue? (c : Char) : Option Nat :=
  if c.isDigit then some (c.toNat - 48)
  else if 'a' ≤ c ∧ c ≤ 'f' then some (c.toNat - 87)
  else if 'A' ≤ c ∧ c ≤ 'F' then some (c.toNat - 55)
  else none

/-- The number of four hexadecimal digits. A text that ends within four bytes is cut short; one
with four bytes that are not all digits is a bad escape. -/
def readHex (text : List Char) : Except Fault Nat :=
  match text.take 4 |>.mapM hexValue? with
  | some [a, b, c, d] => .ok (((a * 16 + b) * 16 + c) * 16 + d)
  | _ =>
    if (text.take 4).foldl (fun bytes c => bytes + c.utf8Size) 0 < 4 then .error .endInText
    else .error .badEscape

/-- The letters after a backslash that stand for one character each. -/
def escapedChar? (c : Char) : Option Char :=
  match c with
  | '"' => some '"'
  | '\\' => some '\\'
  | '/' => some '/'
  | 'b' => some '\x08'
  | 'f' => some '\x0c'
  | 'n' => some '\n'
  | 'r' => some '\r'
  | 't' => some '\t'
  | _ => none

/-- The character of a numbered escape after its `u`, and how many characters it takes. Numbers of
surrogates must come in pairs of escapes. -/
def readNumbered (text : List Char) : Except Fault (Char × Nat) := do
  let high ← readHex text
  if 0xDC00 ≤ high ∧ high ≤ 0xDFFF then throw .loneSurrogate
  if high < 0xD800 ∨ 0xDFFF < high then return (Char.ofNat high, 4)
  match text.drop 4 with
  | [] => throw .endInText
  | '\\' :: [] => throw .endInText
  | '\\' :: 'u' :: more =>
    let low ← readHex more
    if low < 0xDC00 ∨ 0xDFFF < low then throw .loneSurrogate
    return (Char.ofNat (0x10000 + (high - 0xD800) * 0x400 + (low - 0xDC00)), 10)
  | _ => throw .halfSurrogatePair

/-- The character of an escape after its backslash, and how many characters it takes. -/
def readEscape : List Char → Except Fault (Char × Nat)
  | [] => .error .endInText
  | 'u' :: rest => (readNumbered rest).map fun (c, count) => (c, count + 1)
  | c :: _ =>
    match escapedChar? c with
    | some escaped => .ok (escaped, 1)
    | none => .error .badEscape

/-- Read a quoted text after its opening quote. -/
def readText (text : List Char) : Except Fault (List Char × List Char) :=
  match text with
  | [] => .error .endInText
  | c :: rest =>
    if c = '"' then .ok ([], rest)
    else if c = '\\' then
      match readEscape rest with
      | .error fault => .error fault
      | .ok (escaped, count) =>
        (readText (rest.drop count)).map fun (body, left) => (escaped :: body, left)
    else if c.toNat < 32 then .error .controlCharacter
    else (readText rest).map fun (body, left) => (c :: body, left)
termination_by text.length

/-- How many characters an escape takes after its backslash when its value does not matter; numbers
of surrogates may then stand alone. -/
def escapeLength : List Char → Except Fault Nat
  | [] => .error .endInText
  | 'u' :: rest => (readHex rest).map fun _ => 5
  | c :: _ => if (escapedChar? c).isSome then .ok 1 else .error .badEscape

/-- Pass over a quoted text after its opening quote. -/
def skipText (text : List Char) : Except Fault (List Char) :=
  match text with
  | [] => .error .endInText
  | c :: rest =>
    if c = '"' then .ok rest
    else if c = '\\' then
      match escapeLength rest with
      | .error fault => .error fault
      | .ok count => skipText (rest.drop count)
    else if c.toNat < 32 then .error .controlCharacter
    else skipText rest
termination_by text.length

/-! ## Words and numbers -/

/-- Read the rest of a word letter by letter. -/
def readWord : List Char → List Char → Except Fault (List Char)
  | [], text => .ok text
  | _ :: _, [] => .error .endInValue
  | letter :: word, c :: rest => if c = letter then readWord word rest else .error .badWord

/-- The digits at the start of a text, and what follows them. -/
def spanDigits (text : List Char) : List Char × List Char :=
  (text.takeWhile Char.isDigit, text.dropWhile Char.isDigit)

/-- Pass over an exponent after its letter. -/
def skipExponent (text : List Char) : Except Fault (List Char) :=
  let unsigned := match text with
    | '+' :: rest | '-' :: rest => rest
    | rest => rest
  let (digits, rest) := spanDigits unsigned
  if digits.isEmpty then .error .badNumber else .ok rest

/-- Pass over what may follow the whole part of a number. -/
def skipFraction : List Char → Except Fault (List Char)
  | '.' :: rest =>
    let (digits, rest) := spanDigits rest
    if digits.isEmpty then .error .badNumber
    else match rest with
      | 'e' :: rest | 'E' :: rest => skipExponent rest
      | rest => .ok rest
  | 'e' :: rest | 'E' :: rest => skipExponent rest
  | rest => .ok rest

/-- Pass over a number without its sign. -/
def skipNumber (text : List Char) : Except Fault (List Char) :=
  match text with
  | '0' :: rest => if rest.head?.any Char.isDigit then .error .badNumber else skipFraction rest
  | c :: _ => if c.isDigit then skipFraction (spanDigits text).2 else .error .badNumber
  | [] => .error .badNumber

/-- The largest whole number that is kept exactly. -/
def maxWhole : Nat := Nat.pow 2 64 - 1

/-- Take up digits while the number stays within what is kept exactly; gives the number, how many
digits were taken, and the digits left over. -/
def takeDigits : Nat → Nat → List Char → Nat × Nat × List Char
  | n, count, [] => (n, count, [])
  | n, count, c :: rest =>
    let grown := n * 10 + (c.toNat - 48)
    if maxWhole < grown then (n, count, c :: rest) else takeDigits grown (count + 1) rest

/-- A number times a power of ten, worked out in floating point: a negative power divides by powers
of at most `10^308`. `count` bounds the number of divisions. -/
def scaleFloat : Nat → Float → Int → Except Fault Float
  | 0, f, _ => .ok f
  | count + 1, f, power =>
    if power.natAbs ≤ 308 then
      let step := Float.ofScientific (Nat.pow 10 power.natAbs) false 0
      if 0 ≤ power then
        if (f * step).isInf then .error .numberOutOfRange else .ok (f * step)
      else .ok (f / step)
    else if f == 0.0 then .ok f
    else if 0 ≤ power then .error .numberOutOfRange
    else scaleFloat count (f / Float.ofScientific (Nat.pow 10 308) false 0) (power + 308)

/-- The float of a significand and a power of ten. A significand has at most twenty digits, so that
more divisions than a few leave zero. -/
def floatOf (negative : Bool) (significand : Nat) (power : Int) : Except Fault Found := do
  let f ← scaleFloat 8 (Float.ofNat significand) (max power (-2000))
  return .float (if negative then -f else f)

/-- Read an exponent after its letter. An exponent too large to count gives zero if the significand
is zero or the exponent is negative. -/
def readExponent (negative : Bool) (significand : Nat) (power : Int) (text : List Char) :
    Except Fault (Found × List Char) := do
  let (down, unsigned) := match text with
    | '+' :: rest => (false, rest)
    | '-' :: rest => (true, rest)
    | rest => (false, rest)
  let (digits, rest) := spanDigits unsigned
  if digits.isEmpty then throw (if unsigned.isEmpty then .endInValue else .badNumber)
  let exponent : Int := digits.foldl (fun n c => n * 10 + (c.toNat - 48)) 0
  if (Nat.pow 2 31 : Int) - 1 < exponent then
    if significand != 0 && !down then throw .numberOutOfRange
    return (.float (if negative then -0.0 else 0.0), rest)
  let found ← floatOf negative significand (if down then power - exponent else power + exponent)
  return (found, rest)

/-- Read what may follow the point of a number. Digits beyond what is kept exactly do not count. -/
def readDecimals (negative : Bool) (significand : Nat) (power : Int) (text : List Char) :
    Except Fault (Found × List Char) := do
  let (digits, rest) := spanDigits text
  if digits.isEmpty then throw (if rest.isEmpty then .endInValue else .badNumber)
  let (significand, count, _) := takeDigits significand 0 digits
  let power := power - count
  match rest with
  | 'e' :: rest | 'E' :: rest => readExponent negative significand power rest
  | rest => return (← floatOf negative significand power, rest)

/-- Read a number without its sign. Whole numbers too large to be kept exactly become floats, and
so does a negative zero. -/
def readNumber (negative : Bool) (text : List Char) : Except Fault (Found × List Char) := do
  match text with
  | [] => throw .endInValue
  | c :: after =>
    if !c.isDigit then throw .badNumber
    if c = '0' ∧ after.head?.any Char.isDigit then throw .badNumber
    let (digits, rest) := spanDigits text
    let (significand, _, skipped) := takeDigits 0 0 digits
    let power : Int := skipped.length
    match rest with
    | '.' :: rest => readDecimals negative significand power rest
    | 'e' :: rest | 'E' :: rest => readExponent negative significand power rest
    | rest =>
      if !skipped.isEmpty then return (← floatOf negative significand power, rest)
      else if !negative then return (.integer significand, rest)
      else if significand = 0 ∨ Nat.pow 2 63 < significand then
        return (.float (-(Float.ofNat significand)), rest)
      else return (.integer (-significand), rest)

end DocTree.Json
