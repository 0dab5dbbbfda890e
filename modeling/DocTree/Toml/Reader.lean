import DocTree.Decimal.Text
import DocTree.Toml.Value

/-!
# Reading TOML

A reader gets the characters that are left and gives those that are left after it; it gives nothing
when the text is not well formed, wherever the fault is. Values nest less than eighty deep, and a
key has less than eighty parts.
-/

namespace DocTree.Toml

/-! ## Blanks, comments and line ends -/

/-- Spaces and tabs. -/
def isSpace (c : Char) : Bool :=
  c == ' ' || c == '\t'

/-- The characters of comments and of quoted texts, as far as neither quotes nor backslashes are
concerned: everything but controls, of which the tab is allowed. -/
def isPlain (c : Char) : Bool :=
  c == '\t' || (0x20 ≤ c.toNat && c.toNat != 0x7F)

/-- The text after spaces and tabs. -/
def skipSpaces (text : List Char) : List Char :=
  text.dropWhile isSpace

/-- The text after a line end. -/
def newline? : List Char → Option (List Char)
  | '\n' :: rest => some rest
  | '\r' :: '\n' :: rest => some rest
  | _ => none

/-- The text after what may stand at the end of a line: blanks, a comment, and the line end or the
end of the document. -/
def lineEnd? (text : List Char) : Option (List Char) :=
  let text := skipSpaces text
  let text := match text with
    | '#' :: rest => rest.dropWhile isPlain
    | rest => rest
  if text.isEmpty then some [] else newline? text

/-- The text after blanks, line ends and comments. -/
def skipGaps : Nat → List Char → List Char
  | 0, text => text
  | fuel + 1, text =>
    match text with
    | [] => []
    | '#' :: rest => skipGaps fuel (rest.dropWhile isPlain)
    | c :: rest =>
      if isSpace c then skipGaps fuel rest
      else match newline? (c :: rest) with
        | some rest => skipGaps fuel rest
        | none => c :: rest

/-! ## Quoted texts -/

/-- The number of hexadecimal digits. -/
def hexNumber? (digits : List Char) : Option Nat :=
  digits.foldlM (fun n c =>
    if c.isDigit then some (n * 16 + (c.toNat - 48))
    else if 'a' ≤ c ∧ c ≤ 'f' then some (n * 16 + (c.toNat - 87))
    else if 'A' ≤ c ∧ c ≤ 'F' then some (n * 16 + (c.toNat - 55))
    else none) 0

/-- The character of a code point written with a count of digits, and the text after it. -/
def codePoint? (count : Nat) (text : List Char) : Option (Char × List Char) := do
  if text.length < count then none
  let n ← hexNumber? (text.take count)
  if n.isValidChar then some (Char.ofNat n, text.drop count) else none

/-- The character of an escape, after its backslash, and the text after it. -/
def escape? : List Char → Option (Char × List Char)
  | 'b' :: rest => some ('\x08', rest)
  | 't' :: rest => some ('\t', rest)
  | 'n' :: rest => some ('\n', rest)
  | 'f' :: rest => some ('\x0c', rest)
  | 'r' :: rest => some ('\r', rest)
  | '"' :: rest => some ('"', rest)
  | '\\' :: rest => some ('\\', rest)
  | 'u' :: rest => codePoint? 4 rest
  | 'U' :: rest => codePoint? 8 rest
  | _ => none

/-- Read a text in double quotes on one line, after its opening quote. -/
def basicText : Nat → List Char → Option (List Char × List Char)
  | 0, _ => none
  | fuel + 1, text =>
    match text with
    | [] => none
    | '"' :: rest => some ([], rest)
    | '\\' :: rest => do
      let (c, rest) ← escape? rest
      let (body, rest) ← basicText fuel rest
      some (c :: body, rest)
    | c :: rest => do
      if !isPlain c then none
      let (body, rest) ← basicText fuel rest
      some (c :: body, rest)

/-- Read a text in single quotes on one line, after its opening quote. -/
def literalText (text : List Char) : Option (List Char × List Char) :=
  let quote := '\x27'
  let body := text.takeWhile fun c => c != quote && isPlain c
  match text.drop body.length with
  | c :: rest => if c = quote then some (body, rest) else none
  | [] => none

/-- The text after blanks and line ends. -/
def skipBlankLines : Nat → List Char → List Char
  | 0, text => text
  | fuel + 1, text =>
    match text with
    | [] => []
    | c :: rest =>
      if isSpace c then skipBlankLines fuel rest
      else match newline? (c :: rest) with
        | some rest => skipBlankLines fuel rest
        | none => c :: rest

/-- The text after a backslash at the end of a line: spaces, the line end, and all blanks and line
ends after it. -/
def joinedLine? (fuel : Nat) (text : List Char) : Option (List Char) := do
  let rest ← newline? (skipSpaces text)
  some (skipBlankLines fuel rest)

/-- What a run of quotes in a text over several lines means: how many of them belong to the text,
and whether the text ends after the run. -/
def quoteRun (count : Nat) : Nat × Bool :=
  if count < 3 then (count, false) else (min (count - 3) 2, true)

/-- Read a text over several lines, after its three opening quotes. Escapes count in double quotes
only. -/
def longText (quote : Char) (escapes : Bool) : Nat → List Char → Option (List Char × List Char)
  | 0, _ => none
  | fuel + 1, text =>
    match text with
    | [] => none
    | c :: rest =>
      if c = quote then
        let run := (text.takeWhile (· == quote)).length
        let (kept, ends) := quoteRun run
        let quotes := List.replicate kept quote
        if ends then some (quotes, text.drop (kept + 3))
        else do
          let (body, rest) ← longText quote escapes fuel (text.drop run)
          some (quotes ++ body, rest)
      else if c = '\\' ∧ escapes then
        match joinedLine? rest.length rest with
        | some rest => longText quote escapes fuel rest
        | none => do
          let (escaped, rest) ← escape? rest
          let (body, rest) ← longText quote escapes fuel rest
          some (escaped :: body, rest)
      else match newline? text with
        | some rest => do
          let (body, rest) ← longText quote escapes fuel rest
          some ('\n' :: body, rest)
        | none => do
          if !isPlain c then none
          let (body, rest) ← longText quote escapes fuel rest
          some (c :: body, rest)

/-- Read a quoted text of any kind. A line end right after three quotes does not count. -/
def quotedText (text : List Char) : Option (List Char × List Char) :=
  let long (quote : Char) (rest : List Char) :=
    longText quote (quote == '"') (rest.length + 1) ((newline? rest).getD rest)
  match text with
  | '"' :: '"' :: '"' :: rest => long '"' rest
  | '"' :: rest => basicText (rest.length + 1) rest
  | '\x27' :: '\x27' :: '\x27' :: rest => long '\x27' rest
  | '\x27' :: rest => literalText rest
  | _ => none

/-! ## Keys -/

/-- The characters of keys without quotes. -/
def isKeyChar (c : Char) : Bool :=
  c.isAlphanum || c == '-' || c == '_'

/-- Read one part of a key. -/
def keyPart (text : List Char) : Option (String × List Char) :=
  match text with
  | '"' :: rest =>
    (basicText (rest.length + 1) rest).map fun (key, rest) => (String.ofList key, rest)
  | '\x27' :: rest => (literalText rest).map fun (key, rest) => (String.ofList key, rest)
  | _ =>
    let key := text.takeWhile isKeyChar
    if key.isEmpty then none else some (String.ofList key, text.drop key.length)

/-- Read a key of at most a number of parts, with blanks around each part: the parts before the
last, and the last. -/
def dottedKey : Nat → List Char → Option ((List String × String) × List Char)
  | 0, _ => none
  | count + 1, text => do
    let (key, rest) ← keyPart (skipSpaces text)
    match skipSpaces rest with
    | '.' :: rest =>
      let ((path, last), rest) ← dottedKey count rest
      some ((key :: path, last), rest)
    | rest => some (([], key), rest)

/-- How deep values nest, and how many parts a key has, at most. -/
def maxDepth : Nat := 79

/-! ## Numbers -/

/-- Read digits with single underscores between them. -/
def digitGroup (isDigit : Char → Bool) : List Char → List Char × List Char
  | c :: '_' :: d :: rest =>
    if isDigit c then
      if isDigit d then
        let (digits, rest) := digitGroup isDigit (d :: rest)
        (c :: digits, rest)
      else ([c], '_' :: d :: rest)
    else ([], c :: '_' :: d :: rest)
  | c :: rest =>
    if isDigit c then
      let (digits, rest) := digitGroup isDigit rest
      (c :: digits, rest)
    else ([], c :: rest)
  | [] => ([], [])

/-- An integer of 64 bits. -/
def wholeNumber? (negative : Bool) (size : Nat) : Option Value :=
  if size < Nat.pow 2 63 ∨ (negative ∧ size = Nat.pow 2 63) then
    some (.integer (if negative then -size else size))
  else none

/-- The digits of the given kinds of base, with the base. -/
def marked? (text : List Char) : Option (Nat × (Char → Bool) × List Char) :=
  match text with
  | '0' :: 'x' :: rest =>
    some (16, fun c => c.isDigit || ('a' ≤ c && c ≤ 'f') || ('A' ≤ c && c ≤ 'F'), rest)
  | '0' :: 'o' :: rest => some (8, fun c => '0' ≤ c && c ≤ '7', rest)
  | '0' :: 'b' :: rest => some (2, fun c => c == '0' || c == '1', rest)
  | _ => none

/-- Read an exponent after its letter. -/
def exponent? (text : List Char) : Option (Int × List Char) :=
  let (negative, unsigned) := match text with
    | '-' :: rest => (true, rest)
    | '+' :: rest => (false, rest)
    | rest => (false, rest)
  let (digits, rest) := digitGroup Char.isDigit unsigned
  if digits.isEmpty then none
  else
    let size : Int := number 10 digits
    some (if negative then -size else size, rest)

/-- The float of digits and a power of ten. It must not be too large, but may be too small below
zero. -/
def floatValue? (negative : Bool) (digits : List Char) (power : Int) : Option Value :=
  let value := Decimal.toFloat negative (number 10 digits) power
  if value.isInf && !negative then none else some (.float value)

/-- Read a number after its sign. A number in decimal has no zero in front of other digits. -/
def numberAfterSign? (negative : Bool) (text : List Char) : Option (Value × List Char) := do
  let (whole, rest) := digitGroup Char.isDigit text
  if whole.isEmpty || (whole.head? == some '0' && whole.length != 1) then none
  match rest with
  | '.' :: rest =>
    let (fraction, rest) := digitGroup Char.isDigit rest
    if fraction.isEmpty then none
    let digits := whole ++ fraction
    match rest with
    | 'e' :: rest | 'E' :: rest =>
      let (power, rest) ← exponent? rest
      some (← floatValue? negative digits (power - fraction.length), rest)
    | rest => some (← floatValue? negative digits (-fraction.length), rest)
  | 'e' :: rest | 'E' :: rest =>
    let (power, rest) ← exponent? rest
    some (← floatValue? negative whole power, rest)
  | rest => some (← wholeNumber? negative (number 10 whole), rest)

/-- Read a number that begins with a sign or a digit. -/
def number? (text : List Char) : Option (Value × List Char) :=
  match marked? text with
  | some (base, isDigit, rest) => do
    let (digits, rest) := digitGroup isDigit rest
    if digits.isEmpty then none
    some (← wholeNumber? false (number base digits), rest)
  | none =>
    let (sign, unsigned) := match text with
      | '-' :: rest => (some true, rest)
      | '+' :: rest => (some false, rest)
      | rest => (none, rest)
    let negative := sign.getD false
    match unsigned with
    | 'i' :: 'n' :: 'f' :: rest =>
      some (.float (if negative then -(1.0 / 0.0) else 1.0 / 0.0), rest)
    | 'n' :: 'a' :: 'n' :: rest => some (.float (0.0 / 0.0), rest)
    | unsigned => numberAfterSign? negative unsigned

/-! ## Values -/

/-- Read a given word. -/
def word? (word text : List Char) : Option (List Char) :=
  if word.isPrefixOf text then some (text.drop word.length) else none

/-- Read a value that is not a list or a table. -/
def scalar? (text : List Char) : Option (Value × List Char) :=
  match text with
  | '"' :: _ | '\x27' :: _ =>
    (quotedText text).map fun (body, rest) => (.text (String.ofList body), rest)
  | 't' :: _ => (word? ['t', 'r', 'u', 'e'] text).map fun rest => (.flag true, rest)
  | 'f' :: _ => (word? ['f', 'a', 'l', 's', 'e'] text).map fun rest => (.flag false, rest)
  | _ =>
    if Moment.startsDate text || Moment.startsTime text then
      (Moment.read? text).map fun (moment, rest) => (.moment moment, rest)
    else number? text

mutual

/-- Read a value that nests at most a number of levels. -/
def value? : Nat → List Char → Option (Value × List Char)
  | depth, '[' :: rest =>
    match depth with
    | 0 => none
    | depth + 1 => do
      let (items, rest) ← items? depth (rest.length + 1) rest
      some (.list items, rest)
  | depth, '\x7b' :: rest =>
    match depth with
    | 0 => none
    | depth + 1 => do
      match skipSpaces rest with
      | '\x7d' :: rest => some (.table [], rest)
      | _ =>
        let (pairs, rest) ← pairs? depth (rest.length + 1) rest
        some (← Value.ofPairs pairs, rest)
  | _, text => scalar? text
termination_by depth => (depth, 0)

/-- Read the items of a list, as many as there may be, and its closing bracket. -/
def items? (depth : Nat) : Nat → List Char → Option (List Value × List Char)
  | 0, _ => none
  | fuel + 1, text =>
    match skipGaps text.length text with
    | ']' :: rest => some ([], rest)
    | text => do
      let (item, rest) ← value? depth text
      match skipGaps rest.length rest with
      | ',' :: rest =>
        let (items, rest) ← items? depth fuel rest
        some (item :: items, rest)
      | ']' :: rest => some ([item], rest)
      | _ => none
termination_by fuel => (depth, fuel + 1)

/-- Read the entries of a table in braces, as many as there may be, and its closing brace. -/
def pairs? (depth : Nat) :
    Nat → List Char → Option (List (List String × String × Value) × List Char)
  | 0, _ => none
  | fuel + 1, text => do
    let ((path, key), rest) ← dottedKey maxDepth text
    let rest ← char? '=' rest
    let (value, rest) ← value? depth (skipSpaces rest)
    match skipSpaces rest with
    | ',' :: rest =>
      let (pairs, rest) ← pairs? depth fuel rest
      some ((path, key, value) :: pairs, rest)
    | '\x7d' :: rest => some ([(path, key, value)], rest)
    | _ => none
termination_by fuel => (depth, fuel + 1)

end

/-! ## Documents -/

/-- Read a line that holds a statement. -/
def statement? (text : List Char) : Option (Statement × List Char) :=
  match text with
  | '[' :: '[' :: rest => do
    let ((path, key), rest) ← dottedKey maxDepth rest
    let rest ← char? ']' rest
    some (.listHeader path key, ← lineEnd? (← char? ']' rest))
  | '[' :: rest => do
    let ((path, key), rest) ← dottedKey maxDepth rest
    some (.header path key, ← lineEnd? (← char? ']' rest))
  | _ => do
    let ((path, key), rest) ← dottedKey maxDepth text
    let rest ← char? '=' rest
    let (value, rest) ← value? maxDepth (skipSpaces rest)
    some (.pair path key value, ← lineEnd? rest)

/-- Read lines, as many as there may be. -/
def statements? : Nat → List Char → Option (List Statement)
  | 0, _ => none
  | fuel + 1, text =>
    match skipSpaces text with
    | [] => some []
    | c :: rest =>
      if c = '#' ∨ c = '\n' ∨ c = '\r' then do
        statements? fuel (← lineEnd? (c :: rest))
      else do
        let (statement, rest) ← statement? (c :: rest)
        some (statement :: (← statements? fuel rest))

/-- The value of a TOML document. A byte order mark at its start does not count. -/
def read (source : String) : Option Value := do
  let text := match source.toList with
    | '\uFEFF' :: rest => rest
    | text => text
  document (← statements? (text.length + 2) text)

end DocTree.Toml
