/-!
# YAML scalars

A text is written plainly where a reader would take it back as that text: not when it reads as
nothing, a truth value or a number, and not when its characters mean something else in YAML. Then it
is put in single quotes, or in double quotes when it holds characters that need an escape. A text
with newlines is written as a literal block if its lines survive that, else in double quotes.

Beside the newline there are four more line breaks, of which the line and the paragraph separator
may stand in single quotes and in literal blocks; what follows such a break is indented.
-/

namespace DocTree.Yaml

/-! ## Texts that read as something else -/

/-- Texts that read as nothing. -/
def nullWords : List String := ["~", "null", "Null", "NULL"]

/-- Texts that read as a truth value. -/
def boolWords : List String := ["true", "True", "TRUE", "false", "False", "FALSE"]

/-- Texts without a sign that read as a number without being one in digits. -/
def specialNumbers : List String := [".inf", ".Inf", ".INF"]

/-- Texts that read as not a number. -/
def nanWords : List String := [".nan", ".NaN", ".NAN"]

/-- The value of a digit in a base up to sixteen. -/
def digitIn (base : Nat) (c : Char) : Option Nat :=
  let value :=
    if c.isDigit then some (c.toNat - 48)
    else if 'a' ≤ c ∧ c ≤ 'f' then some (c.toNat - 87)
    else if 'A' ≤ c ∧ c ≤ 'F' then some (c.toNat - 55)
    else none
  value.filter (· < base)

/-- The number written by one or more digits of a base. -/
def natIn (base : Nat) (digits : List Char) : Option Nat :=
  if digits.isEmpty then none
  else digits.foldlM (fun n c => (digitIn base c).map (base * n + ·)) 0

/-- The number after a base mark, or in decimal without one. -/
def markedNat : List Char → Option Nat
  | '0' :: 'x' :: digits => natIn 16 digits
  | '0' :: 'o' :: digits => natIn 8 digits
  | '0' :: 'b' :: digits => natIn 2 digits
  | digits => natIn 10 digits

/-- Whether a text is a whole number of at most 128 bits. -/
def isInteger : List Char → Bool
  | '-' :: rest => (markedNat rest).any (· ≤ Nat.pow 2 127)
  | '+' :: rest => (markedNat rest).any (· < Nat.pow 2 128)
  | rest => (markedNat rest).any (· < Nat.pow 2 128)

/-- A text without one leading sign. -/
def unsigned : List Char → List Char
  | '+' :: rest | '-' :: rest => rest
  | rest => rest

/-- Whether a text is a zero followed by digits, which stays a text. -/
def isZeroLed (text : List Char) : Bool :=
  match unsigned text with
  | '0' :: digit :: rest => (digit :: rest).all Char.isDigit
  | _ => false

/-- Digits as a whole number, how many they are, and the power of ten that they are taken times, as
a number in ordinary notation. -/
structure Scientific where
  digits : Nat
  count : Nat
  power : Int

/-- An exponent: an optional sign and at least one digit. -/
def exponent : List Char → Option Int
  | '-' :: digits => (natIn 10 digits).map fun n => -(n : Int)
  | '+' :: digits => (natIn 10 digits).map Int.ofNat
  | digits => (natIn 10 digits).map Int.ofNat

/-- Read a decimal number without sign: digits with at most one point among or around them, and
perhaps an exponent. -/
def scientific (text : List Char) : Option Scientific := do
  let whole := text.takeWhile Char.isDigit
  let afterWhole := text.dropWhile Char.isDigit
  let (fraction, rest) := match afterWhole with
    | '.' :: more => (more.takeWhile Char.isDigit, more.dropWhile Char.isDigit)
    | more => ([], more)
  let digits ← natIn 10 (whole ++ fraction)
  let power ← match rest with
    | [] => some 0
    | 'e' :: more | 'E' :: more => exponent more
    | _ => none
  some { digits, count := whole.length + fraction.length, power := power - fraction.length }

/-- The least number that is too large for a binary64 number: halfway past the largest one. -/
def binary64Limit : Nat := Nat.pow 2 1024 - Nat.pow 2 970

/-- Whether a number is small enough to be a finite binary64 number. -/
def Scientific.isFinite (n : Scientific) : Bool :=
  if n.digits = 0 then true
  else if n.power > 400 then false
  else if 0 ≤ n.power then n.digits * Nat.pow 10 n.power.toNat < binary64Limit
  else if (n.count : Int) + n.power < 300 then true
  else n.digits < binary64Limit * Nat.pow 10 (-n.power).toNat

/-- Whether a text is a number in ordinary or scientific notation. -/
def isDecimal (text : List Char) : Bool :=
  (scientific (unsigned text)).any Scientific.isFinite

/-- Whether a text without newlines would be read as something other than itself. -/
def isAmbiguous (text : String) : Bool :=
  let chars := text.toList
  text == "" || nullWords.contains text || boolWords.contains text || nanWords.contains text
    || specialNumbers.contains (String.ofList (unsigned chars))
    || isZeroLed chars || isInteger chars || isDecimal chars

/-! ## Characters -/

/-- The characters that end a line. -/
def isBreak (c : Char) : Bool :=
  c == '\n' || c == '\r' || c == '\x85' || c == '\u2028' || c == '\u2029'

/-- The characters that separate words on a line. -/
def isBlank (c : Char) : Bool :=
  c == ' ' || c == '\t'

/-- Whether a character may be written as it is. -/
def isPrintable (c : Char) : Bool :=
  let n := c.toNat
  n == 0x0A || (0x20 ≤ n && n ≤ 0x7E) || (0xA0 ≤ n && n ≤ 0xD7FF)
    || (0xE000 ≤ n && n ≤ 0xFFFD && n != 0xFEFF) || 0x10000 ≤ n

/-- Whether nothing, a blank or a line break comes next. -/
def endsWord : List Char → Bool
  | [] => true
  | c :: _ => isBlank c || isBreak c || c == '\x00'

/-- Characters that mean something at the start of a text. -/
def indicators : List Char :=
  ['#', ',', '[', ']', '\x7b', '\x7d', '&', '*', '!', '|', '>', '\x27', '"', '%', '@', '\x60']

/-- Whether a text begins with something that is not plain. -/
def startsWithIndicator : List Char → Bool
  | [] => false
  | '-' :: '-' :: '-' :: _ | '.' :: '.' :: '.' :: _ => true
  | c :: rest =>
    indicators.contains c || ((c == '?' || c == ':' || c == '-') && endsWord rest)

/-- Whether a text holds a colon that ends a word or a hash sign that begins one, given whether its
first character begins a word. -/
def holdsIndicator : Bool → List Char → Bool
  | _, [] => false
  | afterBlank, c :: rest =>
    (c == ':' && endsWord rest) || (c == '#' && afterBlank)
      || holdsIndicator (endsWord [c]) rest

/-- Whether a character of the first kind stands right before one of the second. -/
def holdsPair (first second : Char → Bool) : List Char → Bool
  | [] => false
  | [_] => false
  | c :: d :: rest => (first c && second d) || holdsPair first second (d :: rest)

/-- Whether the first or the last character is of a kind. -/
def borders (kind : Char → Bool) (text : List Char) : Bool :=
  text.head?.any kind || text.getLast?.any kind

/-- Whether only double quotes keep a text: it holds a character that must be escaped, or a space
right before a line break. -/
def needsEscapes (text : List Char) : Bool :=
  !text.all isPrintable || holdsPair (· == ' ') isBreak text

/-- Whether a text may be written without quotes. -/
def allowsPlain (text : List Char) : Bool :=
  !needsEscapes text && !text.any isBreak && !borders (· == ' ') text
    && !startsWithIndicator text && !holdsIndicator true text

/-- Whether a text may be written in single quotes. -/
def allowsSingle (text : List Char) : Bool :=
  !needsEscapes text && !holdsPair isBreak (· == ' ') text

/-- Whether a text may be written as a literal block. -/
def allowsLiteral (text : List Char) : Bool :=
  !needsEscapes text && !text.getLast?.any (· == ' ')

/-! ## The four ways to write a text -/

/-- How a text is written. -/
inductive Style where
  | plain
  | single
  | double
  | literal
  deriving DecidableEq, Repr

/-- The style of a text. -/
def styleOf (text : String) : Style :=
  let chars := text.toList
  if chars.contains '\n' then
    if allowsLiteral chars then .literal else .double
  else if isAmbiguous text || !allowsPlain chars then
    if allowsSingle chars then .single else .double
  else .plain

/-- Spaces before a line at an indentation. -/
def spaces (indent : Nat) : List Char :=
  List.replicate indent ' '

/-- Write characters so that whatever follows a line break, further breaks apart, is indented.
`atBreak` says whether a break came last. -/
def indentLines (indent : Nat) (write : Char → List Char) : Bool → List Char → List Char
  | _, [] => []
  | atBreak, c :: rest =>
    if isBreak c then c :: indentLines indent write true rest
    else (if atBreak then spaces indent else []) ++ write c ++ indentLines indent write false rest

/-- A text in single quotes, in which a quote is written twice. -/
def single (indent : Nat) (text : List Char) : List Char :=
  let quote := '\x27'
  let body := indentLines indent (fun c => if c == quote then [quote, quote] else [c]) false text
  let close := if text.getLast?.any isBreak then spaces indent else []
  quote :: body ++ close ++ [quote]

/-- A hexadecimal digit in upper case. -/
def hexDigit (digit : Nat) : Char :=
  if digit < 10 then Char.ofNat (48 + digit) else Char.ofNat (55 + digit)

/-- A number as a given count of hexadecimal digits. -/
def hex : Nat → Nat → List Char
  | 0, _ => []
  | count + 1, n => hex count (n / 16) ++ [hexDigit (n % 16)]

/-- The letters of the characters with an escape of their own. -/
def escapeLetters : List (Char × Char) :=
  [('\x00', '0'), ('\x07', 'a'), ('\x08', 'b'), ('\t', 't'), ('\n', 'n'), ('\x0b', 'v'),
   ('\x0c', 'f'), ('\r', 'r'), ('\x1b', 'e'), ('"', '"'), ('\\', '\\'), ('\x85', 'N'),
   ('\u2028', 'L'), ('\u2029', 'P')]

/-- A character in double quotes. -/
def escape (c : Char) : List Char :=
  match escapeLetters.lookup c with
  | some letter => ['\\', letter]
  | none =>
    if isPrintable c then [c]
    else if c.toNat < 0x100 then '\\' :: 'x' :: hex 2 c.toNat
    else if c.toNat < 0x10000 then '\\' :: 'u' :: hex 4 c.toNat
    else '\\' :: 'U' :: hex 8 c.toNat

/-- A text in double quotes. -/
def double (text : List Char) : List Char :=
  '"' :: text.flatMap escape ++ ['"']

/-- What is said after the bar of a literal block: the indentation, where the text itself begins
with a space or a break, and how the breaks at the end count. -/
def literalHints (text : List Char) : List Char :=
  let indentation := if text.head?.any fun c => c == ' ' || isBreak c then ['2'] else []
  let chomping := match text.reverse with
    | [] => ['-']
    | last :: others =>
      if !isBreak last then ['-']
      else match others with
        | [] => ['+']
        | before :: _ => if isBreak before then ['+'] else []
  indentation ++ chomping

/-- A text as a literal block. -/
def literal (indent : Nat) (text : List Char) : List Char :=
  '|' :: literalHints text ++ '\n' :: indentLines indent (fun c => [c]) true text

/-- End a line, unless a break has just ended it. -/
def endLine (text : List Char) : List Char :=
  if text.getLast?.any isBreak then text else text ++ ['\n']

/-- A text in its style, without the end of its line; further lines are indented. -/
def scalar (indent : Nat) (text : String) : List Char :=
  match styleOf text with
  | .plain => text.toList
  | .single => single indent text.toList
  | .double => double text.toList
  | .literal => literal indent text.toList

/-- Whether a key stands on one line before its colon: it is at most 128 bytes long and holds no
line break. -/
def isSimpleKey (key : String) : Bool :=
  key.utf8ByteSize ≤ 128 && !key.toList.any isBreak

end DocTree.Yaml
