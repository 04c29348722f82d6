/-!
# Binary floating point in decimal

A finite binary number is written with the fewest decimal digits that read back as the same
number; of the candidates with that many digits the nearest is taken, and a tie goes up. Numbers
from 10⁻⁴ up to 10¹⁶ are written positionally with at least one decimal place, the others with an
exponent.
-/

namespace EventBus.Text

structure BinaryFormat where
  exponentBits : Nat
  fractionBits : Nat

def BinaryFormat.double : BinaryFormat := ⟨11, 52⟩

def BinaryFormat.single : BinaryFormat := ⟨8, 23⟩

/-- A number of a binary format. A finite one is `mantissa * 2 ^ exponent`; it is `tight` when its
lower neighbour is half as far away as its upper one. -/
inductive Binary where
  | nan
  | infinite (negative : Bool)
  | finite (negative : Bool) (mantissa : Nat) (exponent : Int) (tight : Bool)
deriving DecidableEq, Repr

def BinaryFormat.decode (f : BinaryFormat) (bits : Nat) : Binary :=
  let fraction := bits % (1 <<< f.fractionBits)
  let field := (bits >>> f.fractionBits) % (1 <<< f.exponentBits)
  let negative := bits.testBit (f.fractionBits + f.exponentBits)
  let least : Int := 2 - (1 <<< (f.exponentBits - 1) : Nat) - f.fractionBits
  if field = (1 <<< f.exponentBits) - 1 then
    if fraction = 0 then .infinite negative else .nan
  else if field = 0 then .finite negative fraction least false
  else .finite negative ((1 <<< f.fractionBits) + fraction) (least + (field - 1))
    (fraction == 0 && field != 1)

structure Ratio where
  num : Nat
  den : Nat

namespace Ratio

def scale (n b : Nat) (e : Int) : Ratio :=
  if 0 ≤ e then ⟨n * b.pow e.toNat, 1⟩ else ⟨n, b.pow (-e).toNat⟩

def lt (x y : Ratio) : Bool := x.num * y.den < y.num * x.den

def le (x y : Ratio) : Bool := x.num * y.den ≤ y.num * x.den

def leading (x : Ratio) : Int :=
  if x.den ≤ x.num then (Nat.toDigits 10 (x.num / x.den)).length - 1
  else
    let places := (Nat.toDigits 10 (x.den / x.num)).length - 1
    if x.den ≤ x.num * Nat.pow 10 places then -(places : Int) else -(places : Int) - 1

end Ratio

structure Rounding where
  low : Ratio
  value : Ratio
  high : Ratio
  closed : Bool

namespace Rounding

def ofBinary (mantissa : Nat) (exponent : Int) (tight : Bool) : Rounding where
  low := Ratio.scale (4 * mantissa - if tight then 1 else 2) 2 (exponent - 2)
  value := Ratio.scale (4 * mantissa) 2 (exponent - 2)
  high := Ratio.scale (4 * mantissa + 2) 2 (exponent - 2)
  closed := mantissa % 2 == 0

def contains (r : Rounding) (x : Ratio) : Bool :=
  if r.closed then r.low.le x && x.le r.high else r.low.lt x && x.lt r.high

def nearest? (r : Rounding) (place : Int) : Option Nat :=
  let unit := Ratio.scale 1 10 place
  let den := r.value.den * unit.num
  let scaled := r.value.num * unit.den
  let below := scaled / den
  let up := den ≤ 2 * (scaled % den)
  let near := if up then below + 1 else below
  let far := if up then below else below + 1
  let fits (n : Nat) := r.contains (Ratio.scale n 10 place)
  if fits near then some near else if fits far then some far else none

/-- The first of `count` ever finer decimal grids that has a point rounding to the value. -/
def search (r : Rounding) (place : Int) : Nat → Nat × Int
  | 0 => ((r.nearest? place).getD 0, place)
  | count + 1 =>
    match r.nearest? place with
    | some n => (n, place)
    | none => search r (place - 1) count

def shortest (r : Rounding) : Nat × Int := r.search r.value.leading 17

end Rounding

def significant (n : Nat) (place : Int) : List Char × Int :=
  let ds := Nat.toDigits 10 n
  let kept := (ds.reverse.dropWhile (· == '0')).reverse
  (kept, place + ds.length - 1)

def positional (ds : List Char) (exponent : Int) : List Char :=
  if exponent < 0 then
    ['0', '.'] ++ List.replicate ((-exponent).toNat - 1) '0' ++ ds
  else
    let whole := exponent.toNat + 1
    let before := ds.take whole
    let after := ds.drop whole
    before ++ List.replicate (whole - before.length) '0' ++ ['.'] ++
      (if after.isEmpty then ['0'] else after)

def scientific (ds : List Char) (exponent : Int) : List Char :=
  let rest := ds.drop 1
  ds.take 1 ++ (if rest.isEmpty then [] else '.' :: rest) ++ 'e' :: (toString exponent).toList

namespace Binary

def text : Binary → String
  | .nan => "NaN"
  | .infinite negative => if negative then "-inf" else "inf"
  | .finite negative mantissa exponent tight =>
    let magnitude :=
      if mantissa = 0 then ['0', '.', '0']
      else
        let (n, place) := (Rounding.ofBinary mantissa exponent tight).shortest
        let (ds, e) := significant n place
        if -4 ≤ e ∧ e < 16 then positional ds e else scientific ds e
    String.ofList (if negative then '-' :: magnitude else magnitude)

end Binary

def doubleText (x : Float) : String := (BinaryFormat.double.decode x.toBits.toNat).text

def singleText (x : Float32) : String := (BinaryFormat.single.decode x.toBits.toNat).text

end EventBus.Text
