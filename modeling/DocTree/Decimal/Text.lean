import DocTree.Decimal.Shortest

/-!
# Decimal numbers as text

A number is written out in full while the exponent of its first digit is in a range, and with an
exponent beyond it. `NumberForm` holds that range and whether whole numbers keep a point.
-/

namespace DocTree.Decimal

/-- How numbers are written: which exponents of the first digit have their numbers written out in
full, and whether a whole number written in full ends in `.0`. -/
structure NumberForm where
  inFull : Int → Bool
  keepsPoint : Bool

/-- The exponent of the first digit. -/
def Numeral.leading (d : Numeral) : Int :=
  d.power + (toString d.digits).length - 1

/-- A decimal written out in full. -/
def Numeral.printInFull (d : Numeral) (keepsPoint : Bool) : String :=
  let digits := (toString d.digits).toList
  if 0 ≤ d.power then
    String.ofList (digits ++ List.replicate d.power.toNat '0')
      ++ (if keepsPoint then ".0" else "")
  else
    let places := (-d.power).toNat
    let padded := List.replicate (places + 1 - digits.length) '0' ++ digits
    let whole := padded.take (padded.length - places)
    String.ofList (whole ++ '.' :: padded.drop (padded.length - places))

/-- A decimal written with an exponent, which always has a sign. -/
def Numeral.printScientific (d : Numeral) : String :=
  let fraction := match (toString d.digits).toList with
    | [] => ""
    | [digit] => String.ofList [digit]
    | digit :: rest => String.ofList (digit :: '.' :: rest)
  let exponent := d.leading
  fraction ++ "e" ++ (if 0 ≤ exponent then "+" else "-") ++ toString exponent.natAbs

/-- A decimal in a form. -/
def Numeral.print (d : Numeral) (form : NumberForm) : String :=
  if form.inFull d.leading then d.printInFull form.keepsPoint else d.printScientific

/-- A binary64 number in a form. -/
def Binary64.print (value : Binary64) (form : NumberForm) : String :=
  match value with
  | .nan => "NaN"
  | .infinite negative => if negative then "-inf" else "inf"
  | .finite negative significand power narrow =>
    let sign := if negative then "-" else ""
    if significand = 0 then sign ++ (if form.keepsPoint then "0.0" else "0")
    else sign ++ (shortest significand power narrow).print form

/-- The text of a number in a form. -/
def print (value : Float) (form : NumberForm) : String :=
  (Binary64.ofBits value.toBits).print form

/-- The nearest binary64 number of a decimal with a sign. A decimal far out of range is settled
before it is worked out. -/
def toFloat (negative : Bool) (digits : Nat) (power : Int) : Float :=
  let count : Int := (toString digits).length
  let size : Float :=
    if digits = 0 ∨ count + power < -400 then 0.0
    else if 400 < count + power then 1.0 / 0.0
    else if 0 ≤ power then Float.ofScientific (digits * Nat.pow 10 power.toNat) false 0
    else Float.ofScientific digits true (-power).toNat
  if negative then -size else size

end DocTree.Decimal
