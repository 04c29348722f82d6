import EventBus.Source.SyntaxError

/-!
# Numbers

A number is its digits, in one of four bases, and maybe a fraction, an exponent and a suffix. One
without fraction, exponent and suffix may stand for the position of a field.
-/

namespace EventBus.Source

def isNumber (literal : String) : Bool := literal.toList.head?.elim false Char.isDigit

def isFloat (literal : String) : Bool :=
  let rest := literal.toList.dropWhile fun c => c.isDigit || c == '_'
  isNumber literal &&
    match rest with
    | '.' :: _ => true
    | e :: cs =>
      (e == 'e' || e == 'E') &&
        (cs.dropWhile (· == '_')).head?.elim false fun c => c.isDigit || c == '+' || c == '-'
    | [] => false

def splitBase : List Char → Nat × List Char
  | '0' :: 'x' :: cs => (16, cs)
  | '0' :: 'o' :: cs => (8, cs)
  | '0' :: 'b' :: cs => (2, cs)
  | cs => (10, cs)

def digitValue? (base : Nat) (c : Char) : Option Nat :=
  let v := if c.isDigit then c.toNat - '0'.toNat
    else if 'a' ≤ c ∧ c ≤ 'f' then c.toNat - 'a'.toNat + 10
    else if 'A' ≤ c ∧ c ≤ 'F' then c.toNat - 'A'.toNat + 10
    else base
  if v < base then some v else none

def digitsValue (base n : Nat) : List Char → Nat × List Char
  | [] => (n, [])
  | c :: cs =>
    if c = '_' then digitsValue base n cs
    else
      match digitValue? base c with
      | some d => digitsValue base (n * base + d) cs
      | none => (n, c :: cs)

/-- The position that a number stands for. A position has 32 bits and no sign. -/
def positionOf (negative : Bool) (number : String) : Except SyntaxError Nat :=
  if isFloat number then .error .floatPosition
  else
    let (base, cs) := splitBase number.toList
    let (n, suffix) := digitsValue base 0 cs
    if !suffix.isEmpty then .error .suffixedPosition
    else if negative then .error .negativePosition
    else if n < 1 <<< 32 then .ok n
    else .error .largePosition

/-- The positions in a number with a point: each part is one, save an empty one at the end. -/
def positionsOf (negative : Bool) (number : String) : Except SyntaxError (List Nat) :=
  ((number.splitOn ".").filter (· != "")).mapM (positionOf negative)

end EventBus.Source
