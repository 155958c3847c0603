import StackMachine.Number

/-!
Decimal text of numbers. Reading takes any decimal, with or without an
exponent, to the nearest number. Writing gives the decimal with the fewest
digits that reads back as the number, positionally and never with an exponent;
of two such decimals it takes the nearer one, and the upper one when both are
equally near.
-/

namespace StackMachine

/-- The decimal `digits / 10 ^ places`. -/
structure Decimal where
  digits : Nat
  places : Nat
deriving DecidableEq, Repr

namespace Decimal

def layout (d : Decimal) : List Char :=
  let shown := Nat.toDigits 10 d.digits
  if d.places = 0 then
    shown
  else
    let padded := List.replicate (d.places + 1 - shown.length) '0' ++ shown
    let whole := padded.length - d.places
    padded.take whole ++ '.' :: padded.drop whole

end Decimal

namespace Number

/-- The number nearest to `digits * 10 ^ exponent`. Exponents far out of range
are settled by their size alone. -/
def ofDecimal (negative : Bool) (digits : Nat) (exponent : Int) : Number :=
  if digits = 0 then
    zero negative
  else if 400 < exponent then
    .infinite negative
  else if exponent < -(digits.log2 + 1100) then
    zero negative
  else if 0 ≤ exponent then
    ofRatio negative (unitsPerOne * (10 ^ exponent.toNat * digits)) 1
  else
    ofRatio negative (unitsPerOne * digits) (10 ^ (-exponent).toNat)

def splitSign : List Char → Bool × List Char
  | '-' :: rest => (true, rest)
  | '+' :: rest => (false, rest)
  | cs => (false, cs)

/-- A power of ten written as `e5`, `E+5` or `e-5`; no text at all is the power zero. -/
def readExponent : List Char → Option Int
  | [] => some 0
  | mark :: rest =>
      let (negative, shown) := splitSign rest
      if (mark = 'e' ∨ mark = 'E') ∧ shown ≠ [] ∧ shown.all Char.isDigit then
        some (signed negative (Nat.ofDigitChars 10 shown 0))
      else
        none

def splitFraction : List Char → List Char × List Char
  | '.' :: rest => (rest.takeWhile Char.isDigit, rest.dropWhile Char.isDigit)
  | cs => ([], cs)

def readDecimal (negative : Bool) (cs : List Char) : Option Number :=
  let whole := cs.takeWhile Char.isDigit
  let (fraction, afterFraction) := splitFraction (cs.dropWhile Char.isDigit)
  if whole = [] ∧ fraction = [] then
    none
  else
    (readExponent afterFraction).map fun exponent =>
      ofDecimal negative (Nat.ofDigitChars 10 (whole ++ fraction) 0)
        (exponent - fraction.length)

def read (cs : List Char) : Option Number :=
  let (negative, body) := splitSign cs
  let name := body.map Char.toLower
  if name = ['i', 'n', 'f'] ∨ name = ['i', 'n', 'f', 'i', 'n', 'i', 't', 'y'] then
    some (.infinite negative)
  else if name = ['n', 'a', 'n'] then
    some .nan
  else
    readDecimal negative body

/-- A number written as an operand: after the sign comes a digit or the point,
so that names are left to labels. -/
def literal? (cs : List Char) : Option Number :=
  match (splitSign cs).2 with
  | c :: _ => if c.isDigit ∨ c = '.' then read cs else none
  | [] => none

def exactDecimal (units : Nat) : Decimal :=
  let exponent := units.log2 - 52
  let places := fineness - exponent
  ⟨5 ^ places * (2 ^ (exponent - fineness) * (units / 2 ^ exponent)), places⟩

/-- The decimal of `count` steps of `10 ^ skipped`, measured in the last place of `d`. -/
def coarsen (d : Decimal) (skipped count : Nat) : Decimal :=
  ⟨10 ^ (skipped - d.places) * count, d.places - skipped⟩

def readsBack (units : Nat) (d : Decimal) : Bool :=
  match ofDecimal false d.digits (-d.places) with
  | .finite _ found _ => found == units
  | _ => false

def shortestFrom (units : Nat) (exact : Decimal) : Nat → Decimal
  | 0 => exact
  | skipped + 1 =>
      let step := 10 ^ (skipped + 1)
      let below := coarsen exact (skipped + 1) (exact.digits / step)
      let above := coarsen exact (skipped + 1) (exact.digits / step + 1)
      match readsBack units below, readsBack units above with
      | true, true => if 2 * (exact.digits % step) < step then below else above
      | true, false => below
      | false, true => above
      | false, false => shortestFrom units exact skipped

/-- The decimal with the fewest digits that reads back. The first step tried
exceeds the number, since `10 ^ (30103 * n / 100000 + 1)` exceeds `2 ^ n`. -/
def shortest (units : Nat) : Decimal :=
  if units = 0 then
    ⟨0, 0⟩
  else
    let exact := exactDecimal units
    shortestFrom units exact (30103 * (exact.digits.log2 + 1) / 100000 + 1)

def characters : Number → List Char
  | .nan => ['N', 'a', 'N']
  | .infinite false => ['i', 'n', 'f']
  | .infinite true => ['-', 'i', 'n', 'f']
  | .finite false units _ => (shortest units).layout
  | .finite true units _ => '-' :: (shortest units).layout

def text (x : Number) : String :=
  String.ofList x.characters

def parse? (s : String) : Option Number :=
  read s.toList

end Number

end StackMachine
