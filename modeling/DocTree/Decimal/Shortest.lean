/-!
# The shortest decimal of a binary number

A binary64 number stands for all reals that round to it. Its shortest decimal is the one with the
fewest digits among these reals, and of several such decimals the one nearest to the number. On the
grid of the decimals with a given number of digits, only the two neighbours of the number can be
that decimal, so it is enough to try these on finer and finer grids.
-/

namespace DocTree.Decimal

/-- A decimal numeral: digits times a power of ten. -/
structure Numeral where
  digits : Nat
  power : Int
  deriving DecidableEq, Repr, Inhabited

/-- A binary64 number by its parts. -/
inductive Binary64 where
  | nan
  | infinite (negative : Bool)
  /-- The number of a significand times a power of two; `narrow` says that the gap to the number
  below is half of the gap to the number above. -/
  | finite (negative : Bool) (significand : Nat) (power : Int) (narrow : Bool)
  deriving DecidableEq, Repr

/-- The parts of a binary64 number given by its bits. -/
def Binary64.ofBits (bits : UInt64) : Binary64 :=
  let negative := bits >>> 63 == 1
  let exponent := ((bits >>> 52) &&& 0x7FF).toNat
  let fraction := (bits &&& 0xFFFFFFFFFFFFF).toNat
  if exponent = 0x7FF then
    if fraction = 0 then .infinite negative else .nan
  else if exponent = 0 then .finite negative fraction (-1074) false
  else
    .finite negative (Nat.pow 2 52 + fraction) ((exponent : Int) - 1075)
      (fraction == 0 && decide (1 < exponent))

/-- A positive fraction. -/
structure Fraction where
  num : Nat
  den : Nat

namespace Fraction

/-- A number times a power of a base. -/
def scaled (n base : Nat) (power : Int) : Fraction :=
  if 0 ≤ power then { num := n * base.pow power.toNat, den := 1 }
  else { num := n, den := base.pow (-power).toNat }

/-- Whether one fraction is below another. -/
def lt (a b : Fraction) : Bool :=
  a.num * b.den < b.num * a.den

/-- The least power of ten, from a start on, that is above a fraction. -/
def scaleFrom (a : Fraction) : Nat → Int → Int
  | 0, start => start
  | count + 1, start => if a.lt (scaled 1 10 start) then start else a.scaleFrom count (start + 1)

/-- The least power of ten that is above a fraction with the range of binary64 numbers. -/
def scale (a : Fraction) : Int :=
  a.scaleFrom 700 (-330)

end Fraction

/-- The reals that round to a binary64 number, in quarters of its last place: from `low` to `high`,
ends included or not. -/
structure Interval where
  low : Fraction
  high : Fraction
  closed : Bool

/-- The interval of a significand times a power of two. -/
def Interval.around (significand : Nat) (power : Int) (narrow : Bool) : Interval :=
  { low := .scaled (4 * significand - (if narrow then 1 else 2)) 2 (power - 2)
    high := .scaled (4 * significand + 2) 2 (power - 2)
    closed := significand % 2 == 0 }

/-- Whether a fraction lies in an interval. -/
def Interval.contains (interval : Interval) (a : Fraction) : Bool :=
  if interval.closed then !a.lt interval.low && !interval.high.lt a
  else interval.low.lt a && a.lt interval.high

/-- Of the two neighbours of a fraction on the grid of a power of ten, the nearer one that lies in
the interval. -/
def neighbour? (value : Fraction) (interval : Interval) (power : Int) : Option Numeral :=
  let grid := Fraction.scaled 1 10 power
  let below := (value.num * grid.den) / (value.den * grid.num)
  let hit (digits : Nat) : Bool := digits != 0 && interval.contains (.scaled digits 10 power)
  let middle := Fraction.scaled (2 * below + 1) 10 power
  let double : Fraction := { num := 2 * value.num, den := value.den }
  let nearBelow := double.lt middle || (!middle.lt double && below % 2 == 0)
  if hit below && (nearBelow || !hit (below + 1)) then some { digits := below, power }
  else if hit (below + 1) then some { digits := below + 1, power }
  else none

/-- Search grids of one digit more each time. -/
def searchGrids (value : Fraction) (interval : Interval) (scale : Int) : Nat → Nat → Option Numeral
  | 0, _ => none
  | count + 1, digits =>
    neighbour? value interval (scale - digits)
      <|> searchGrids value interval scale count (digits + 1)

/-- Move the zeros at the end of the digits into the power; `count` bounds how many. -/
def Numeral.strip : Nat → Numeral → Numeral
  | 0, d => d
  | count + 1, d =>
    if d.digits % 10 = 0 then Numeral.strip count { digits := d.digits / 10, power := d.power + 1 }
    else d

/-- The shortest decimal of a significand times a power of two, which is not zero. Seventeen digits
always suffice; were they not to, the number itself would be written out. -/
def shortest (significand : Nat) (power : Int) (narrow : Bool) : Numeral :=
  let value := Fraction.scaled significand 2 power
  let found := searchGrids value (.around significand power narrow) value.scale 17 1
  match found with
  | some decimal => decimal.strip 20
  | none =>
    if 0 ≤ power then { digits := significand * Nat.pow 2 power.toNat, power := 0 }
    else { digits := significand * Nat.pow 5 (-power).toNat, power }

end DocTree.Decimal
