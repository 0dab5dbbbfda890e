/-!
# Dates and times

A moment is a date, a time of day, or both, and with a date it may tell its distance from universal
time. The parts are read from the start of a text; `Moment.text` writes a moment in its normal form,
with the letter T between date and time and no zeros at the end of a fraction.
-/

namespace DocTree.Toml

/-- The number of digits in a base. -/
def number (base : Nat) (digits : List Char) : Nat :=
  digits.foldl (fun n c =>
    base * n + (if c.isDigit then c.toNat - 48 else c.toLower.toNat - 87)) 0

/-- Read exactly a count of digits, as a number within bounds. -/
def digits? (count least greatest : Nat) (text : List Char) : Option (Nat × List Char) :=
  let digits := text.take count
  let n := number 10 digits
  if digits.length = count ∧ digits.all Char.isDigit ∧ least ≤ n ∧ n ≤ greatest then
    some (n, text.drop count)
  else none

/-- Read one given character. -/
def char? (c : Char) : List Char → Option (List Char)
  | d :: rest => if d = c then some rest else none
  | [] => none

/-- A number with at least a count of digits. -/
def padded (count n : Nat) : String :=
  let digits := toString n
  String.ofList (List.replicate (count - digits.length) '0') ++ digits

/-! ## Dates -/

/-- A day of a year, with months and days counted from one. -/
structure Date where
  year : Nat
  month : Nat
  day : Nat
  deriving DecidableEq, Repr

namespace Date

/-- How many days a month has. -/
def daysIn (year month : Nat) : Nat :=
  if month = 2 then
    if year % 4 = 0 ∧ (year % 100 ≠ 0 ∨ year % 400 = 0) then 29 else 28
  else if month = 4 ∨ month = 6 ∨ month = 9 ∨ month = 11 then 30
  else 31

/-- Read a date. -/
def read? (text : List Char) : Option (Date × List Char) := do
  let (year, rest) ← digits? 4 0 9999 text
  let (month, rest) ← digits? 2 1 12 (← char? '-' rest)
  let (day, rest) ← digits? 2 1 31 (← char? '-' rest)
  if daysIn year month < day then none else some ({ year, month, day }, rest)

/-- A date as text. -/
def text (date : Date) : String :=
  padded 4 date.year ++ "-" ++ padded 2 date.month ++ "-" ++ padded 2 date.day

end Date

/-! ## Times of day -/

/-- A time of day, with the digits of a fraction of the second, which may be a leap second. -/
structure Time where
  hour : Nat
  minute : Nat
  second : Nat
  fraction : List Char
  deriving DecidableEq, Repr

namespace Time

/-- The fraction of a second: at most nine digits, without the zeros at the end. -/
def shortFraction (digits : List Char) : List Char :=
  ((digits.take 9).reverse.dropWhile (· == '0')).reverse

/-- Read the fraction of a second after its point, if both are there. -/
def readFraction (text : List Char) : List Char × List Char :=
  match text with
  | '.' :: rest =>
    let digits := rest.takeWhile Char.isDigit
    if digits.isEmpty then ([], text) else (shortFraction digits, rest.drop digits.length)
  | _ => ([], text)

/-- Read a time of day whose hour has a greatest value. -/
def read? (greatestHour : Nat) (text : List Char) : Option (Time × List Char) := do
  let (hour, rest) ← digits? 2 0 greatestHour text
  let (minute, rest) ← digits? 2 0 59 (← char? ':' rest)
  let (second, rest) ← digits? 2 0 60 (← char? ':' rest)
  let (fraction, rest) := readFraction rest
  some ({ hour, minute, second, fraction }, rest)

/-- A time of day as text. -/
def text (time : Time) : String :=
  padded 2 time.hour ++ ":" ++ padded 2 time.minute ++ ":" ++ padded 2 time.second
    ++ (if time.fraction.isEmpty then "" else String.ofList ('.' :: time.fraction))

end Time

/-! ## Distances from universal time -/

/-- How far a time is from universal time. -/
inductive Distance where
  | universal
  /-- A number of minutes ahead of it. -/
  | ahead (minutes : Int)
  deriving DecidableEq, Repr

namespace Distance

/-- Read hours and minutes after a sign, if they are allowed. -/
def readSigned? (allowed : Nat → Nat → Bool) (negative : Bool) (text : List Char) :
    Option (Distance × List Char) := do
  let (hours, rest) ← digits? 2 0 99 text
  let (minutes, rest) ← digits? 2 0 99 (← char? ':' rest)
  let size : Int := hours * 60 + minutes
  if allowed hours minutes then some (.ahead (if negative then -size else size), rest) else none

/-- Read a distance, if one is given; hours and minutes must be allowed. -/
def read? (allowed : Nat → Nat → Bool) : List Char → Option (Option Distance × List Char)
  | 'Z' :: rest | 'z' :: rest => some (some .universal, rest)
  | '+' :: rest =>
    (readSigned? allowed false rest).map fun (distance, rest) => (some distance, rest)
  | '-' :: rest =>
    (readSigned? allowed true rest).map fun (distance, rest) => (some distance, rest)
  | rest => some (none, rest)

/-- A distance as text. -/
def text : Distance → String
  | universal => "Z"
  | ahead minutes =>
    (if minutes < 0 then "-" else "+") ++ padded 2 (minutes.natAbs / 60) ++ ":"
      ++ padded 2 (minutes.natAbs % 60)

end Distance

/-! ## Moments -/

/-- A date, a time of day, or both, with the distance from universal time. -/
structure Moment where
  date : Option Date := none
  time : Option Time := none
  distance : Option Distance := none
  deriving DecidableEq, Repr

namespace Moment

/-- A moment in its normal form. -/
def text (moment : Moment) : String :=
  moment.date.elim "" Date.text
    ++ (if moment.date.isSome && moment.time.isSome then "T" else "")
    ++ moment.time.elim "" Time.text
    ++ moment.distance.elim "" Distance.text

/-- Whether a character may stand between a date and a time of day. -/
def isTimeMark (c : Char) : Bool :=
  c == 'T' || c == 't' || c == ' '

/-- Read the time of day after a date, if a mark for it is there. -/
def readTimeAfterMark? (text : List Char) : Option (Option Time × List Char) :=
  match text with
  | [] => some (none, [])
  | c :: rest =>
    if isTimeMark c then (Time.read? 24 rest).map fun (time, rest) => (some time, rest)
    else some (none, text)

/-- The moment that a whole text is, in a wide sense: the hour may be 24, a date alone may have a
distance, and the distance may be anything up to a day. -/
def ofText? (text : String) : Option Moment := do
  let chars := text.toList
  if chars[2]? = some ':' then
    let (time, rest) ← Time.read? 24 chars
    if rest.isEmpty then some { time := some time } else none
  else
    let (date, rest) ← Date.read? chars
    let (time, rest) ← readTimeAfterMark? rest
    let (distance, rest) ← Distance.read? (fun hours minutes => hours * 60 + minutes ≤ 1440) rest
    if rest.isEmpty then some { date := some date, time, distance } else none

/-- Whether a date begins here: four digits and a hyphen. -/
def startsDate (text : List Char) : Bool :=
  (text.take 4).length == 4 && (text.take 4).all Char.isDigit && text[4]? == some '-'

/-- Whether a time of day begins here: two digits of an hour and a colon. -/
def startsTime (text : List Char) : Bool :=
  (digits? 2 0 23 text).any fun (_, rest) => rest.head? == some ':'

/-- Read a moment as it may stand in a document: the hour is at most 23, there is a distance only
after a time of day, and its hours and minutes are those of a clock. -/
def read? (text : List Char) : Option (Moment × List Char) :=
  if startsTime text then
    (Time.read? 23 text).map fun (time, rest) => ({ time := some time }, rest)
  else do
    let (date, rest) ← Date.read? text
    match rest with
    | c :: more =>
      if isTimeMark c && startsTime more then
        let (time, rest) ← Time.read? 23 more
        let (distance, rest) ← Distance.read? (fun hours minutes => hours ≤ 23 && minutes ≤ 59) rest
        some ({ date := some date, time := some time, distance }, rest)
      else some ({ date := some date }, rest)
    | [] => some ({ date := some date }, [])

end Moment

end DocTree.Toml
