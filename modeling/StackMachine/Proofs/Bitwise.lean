import Mathlib.Data.Int.Bitwise
import StackMachine.Arithmetic

/-!
The bitwise operators on numbers. They drop the fractions of their operands,
work on words of 64 bits and turn the resulting word into a number again, which
may round. It does not round for operands whose whole parts have 54 bits in two's
complement: such a word is a word of 54 bits with its sign repeated, the operators
work on the sign as on every other place, and all integers of 54 bits are numbers.
So the laws of single bits hold of numbers, up to the fractions that are dropped.
-/

namespace StackMachine

/-- The integers that 54 bits hold in two's complement. -/
def Narrow (n : Int) : Prop :=
  -2 ^ 53 ≤ n ∧ n < 2 ^ 53

instance (n : Int) : Decidable (Narrow n) :=
  inferInstanceAs (Decidable (_ ∧ _))

namespace Number

/-- A number without its fraction, so rounded toward zero. What is no number at all
counts as zero. -/
def wholePart (x : Number) : Int :=
  (x.position?.getD 0).tdiv unitsPerOne

theorem signed_tdiv (negative : Bool) (units : Nat) :
    (signed negative units).tdiv unitsPerOne = signed negative (units / unitsPerOne) := by
  cases negative with
  | false => exact (Int.ofNat_tdiv units unitsPerOne).symm
  | true =>
    simp only [signed, if_true]
    rw [Int.neg_tdiv, Int.ofNat_tdiv]

theorem unitsLimit_div : unitsLimit / unitsPerOne = 2 ^ reach := by
  rw [unitsLimit, Nat.pow_add]
  exact Nat.mul_div_cancel_left _ unitsPerOne_pos

theorem two_pow_le_two_pow_reach : 2 ^ 63 ≤ 2 ^ reach := by
  refine Nat.pow_le_pow_right (by decide) ?_
  unfold reach
  decide

theorem truncate_eq (x : Number) :
    x.truncate = max (-2 ^ 63) (min x.wholePart (2 ^ 63 - 1)) := by
  cases x with
  | nan =>
    have zero : nan.wholePart = 0 := Int.zero_tdiv _
    rw [zero]
    decide
  | infinite negative =>
    -- the position of an infinite number lies beyond both ends of the range
    have far := two_pow_le_two_pow_reach
    simp only [truncate, wholePart, position?, Option.getD_some, signed_tdiv, unitsLimit_div]
    generalize 2 ^ reach = limit at far
    cases negative <;> simp only [signed, if_true, Bool.false_eq_true, if_false] <;> omega
  | finite negative units fits =>
    simp only [truncate, wholePart, position?, Option.getD_some, signed_tdiv]

theorem truncate_of_narrow {x : Number} (narrow : Narrow x.wholePart) :
    x.truncate = x.wholePart := by
  obtain ⟨low, high⟩ := narrow
  rw [truncate_eq]
  omega

theorem word_of_narrow {x : Number} (narrow : Narrow x.wholePart) :
    x.word = BitVec.ofInt 64 x.wholePart := by
  rw [word, truncate_of_narrow narrow]

theorem position?_ofInt {n : Int} (narrow : Narrow n) :
    (ofInt n).position? = some (n * unitsPerOne) := by
  have small : n.natAbs ≤ 2 ^ 53 := by
    obtain ⟨low, high⟩ := narrow
    omega
  have exact := ofRatio_exact (decide (n < 0)) Nat.one_pos (representable_unitsPerOne_mul small)
  rw [Nat.one_mul] at exact
  rw [ofInt, exact, position?, Option.some.injEq, Int.mul_comm]
  by_cases negative : n < 0
  · have size : (n.natAbs : Int) = -n := by omega
    simp only [signed, negative, decide_true, if_true, Int.natCast_mul, size, Int.mul_neg,
      Int.neg_neg]
  · have size : (n.natAbs : Int) = n := by omega
    simp only [signed, negative, decide_false, Bool.false_eq_true, if_false, Int.natCast_mul, size]

theorem wholePart_ofInt {n : Int} (narrow : Narrow n) : (ofInt n).wholePart = n := by
  have pos := unitsPerOne_pos
  rw [wholePart, position?_ofInt narrow, Option.getD_some, Int.mul_tdiv_cancel n (by omega)]

end Number

inductive Bitwise where
  | and
  | or
  | xor
deriving DecidableEq, Repr

namespace Bitwise

def operator : Bitwise → Operator
  | .and => .and
  | .or => .or
  | .xor => .xor

def onBits : Bitwise → Bool → Bool → Bool
  | .and => Bool.and
  | .or => Bool.or
  | .xor => Bool.xor

def onWords {width : Nat} : Bitwise → BitVec width → BitVec width → BitVec width
  | .and => (· &&& ·)
  | .or => (· ||| ·)
  | .xor => (· ^^^ ·)

/-- The operation on integers, each written as a word of 64 bits in two's complement. -/
def onIntegers (op : Bitwise) (m n : Int) : Int :=
  (op.onWords (BitVec.ofInt 64 m) (BitVec.ofInt 64 n)).toInt

theorem compute_operator (op : Bitwise) (x y : Number) :
    op.operator.compute x y = .ofWord (op.onWords x.word y.word) := by
  cases op <;> rfl

section Words

variable {width : Nat} (op : Bitwise) (u v : BitVec width)

theorem getLsbD_onWords (place : Nat) :
    (op.onWords u v).getLsbD place = op.onBits (u.getLsbD place) (v.getLsbD place) := by
  cases op with
  | and => exact BitVec.getLsbD_and
  | or => exact BitVec.getLsbD_or
  | xor => exact BitVec.getLsbD_xor

theorem signExtend_onWords (wider : Nat) :
    (op.onWords u v).signExtend wider = op.onWords (u.signExtend wider) (v.signExtend wider) := by
  cases op with
  | and => exact BitVec.signExtend_and
  | or => exact BitVec.signExtend_or
  | xor => exact BitVec.signExtend_xor

theorem onWords_comm : op.onWords u v = op.onWords v u := by
  cases op with
  | and => exact BitVec.and_comm u v
  | or => exact BitVec.or_comm u v
  | xor => exact BitVec.xor_comm u v

theorem onWords_assoc (w : BitVec width) :
    op.onWords (op.onWords u v) w = op.onWords u (op.onWords v w) := by
  cases op with
  | and => exact BitVec.and_assoc u v w
  | or => exact BitVec.or_assoc u v w
  | xor => exact BitVec.xor_assoc u v w

theorem onWords_absorb {other : Bitwise}
    (absorbs : ∀ a b, op.onBits a (other.onBits a b) = a) :
    op.onWords u (other.onWords u v) = u := by
  apply BitVec.eq_of_getLsbD_eq
  intro place _
  rw [getLsbD_onWords, getLsbD_onWords, absorbs]

end Words

theorem getLsbD_ofInt {width place : Nat} (inside : place < width) (n : Int) :
    (BitVec.ofInt width n).getLsbD place = n.testBit place := by
  cases n with
  | ofNat n =>
    rw [Int.ofNat_eq_natCast, BitVec.ofInt_natCast, BitVec.getLsbD_ofNat, decide_eq_true inside,
      Bool.true_and]
    rfl
  | negSucc n =>
    rw [BitVec.ofInt_negSucc_eq_not_ofNat, BitVec.getLsbD_not, BitVec.getLsbD_ofNat,
      decide_eq_true inside, Bool.true_and, Bool.true_and]
    rfl

theorem ofInt_onIntegers (op : Bitwise) (m n : Int) :
    BitVec.ofInt 64 (op.onIntegers m n) =
      op.onWords (BitVec.ofInt 64 m) (BitVec.ofInt 64 n) :=
  BitVec.ofInt_toInt

theorem testBit_onIntegers (op : Bitwise) (m n : Int) {place : Nat} (inside : place < 64) :
    (op.onIntegers m n).testBit place = op.onBits (m.testBit place) (n.testBit place) := by
  rw [← getLsbD_ofInt inside, ofInt_onIntegers, getLsbD_onWords, getLsbD_ofInt inside,
    getLsbD_ofInt inside]

theorem toInt_ofInt_of_narrow {n : Int} (narrow : Narrow n) : (BitVec.ofInt 64 n).toInt = n := by
  obtain ⟨low, high⟩ := narrow
  exact BitVec.toInt_ofInt_eq_self (by decide) (by omega) (by omega)

theorem signExtend_of_narrow {n : Int} (narrow : Narrow n) :
    (BitVec.ofInt 54 n).signExtend 64 = BitVec.ofInt 64 n := by
  apply BitVec.eq_of_toInt_eq
  rw [toInt_ofInt_of_narrow narrow, BitVec.toInt_signExtend_of_le (by decide)]
  exact BitVec.toInt_ofInt_eq_self (by decide) narrow.1 narrow.2

theorem narrow_onIntegers (op : Bitwise) {m n : Int} (narrow : Narrow m) (narrow' : Narrow n) :
    Narrow (op.onIntegers m n) := by
  -- both words are short ones with their signs repeated, and then so is the result
  rw [onIntegers, ← signExtend_of_narrow narrow, ← signExtend_of_narrow narrow',
    ← signExtend_onWords, BitVec.toInt_signExtend_of_le (by decide)]
  exact ⟨BitVec.le_toInt _, BitVec.toInt_lt⟩

theorem onIntegers_comm (op : Bitwise) (m n : Int) : op.onIntegers m n = op.onIntegers n m := by
  rw [onIntegers, onWords_comm, onIntegers]

theorem onIntegers_assoc (op : Bitwise) (m n k : Int) :
    op.onIntegers (op.onIntegers m n) k = op.onIntegers m (op.onIntegers n k) := by
  rw [onIntegers, ofInt_onIntegers, onWords_assoc, ← ofInt_onIntegers]
  rfl

theorem onIntegers_absorb {op other : Bitwise}
    (absorbs : ∀ a b, op.onBits a (other.onBits a b) = a) {m : Int} (narrow : Narrow m) (n : Int) :
    op.onIntegers m (other.onIntegers m n) = m := by
  rw [onIntegers, ofInt_onIntegers, onWords_absorb op _ _ absorbs, toInt_ofInt_of_narrow narrow]

theorem xor_onIntegers_twice {m : Int} (narrow : Narrow m) (n : Int) :
    xor.onIntegers (xor.onIntegers m n) n = m := by
  rw [onIntegers, ofInt_onIntegers, onWords_assoc]
  simp only [onWords, BitVec.xor_self, BitVec.xor_zero]
  exact toInt_ofInt_of_narrow narrow

section Numbers

variable (op : Bitwise) {x y : Number} (left : Narrow x.wholePart) (right : Narrow y.wholePart)
include left right

theorem compute_of_narrow :
    op.operator.compute x y = .ofInt (op.onIntegers x.wholePart y.wholePart) := by
  rw [compute_operator, Number.word_of_narrow left, Number.word_of_narrow right]
  rfl

theorem wholePart_compute :
    (op.operator.compute x y).wholePart = op.onIntegers x.wholePart y.wholePart := by
  rw [compute_of_narrow op left right, Number.wholePart_ofInt]
  exact narrow_onIntegers op left right

theorem narrow_compute : Narrow (op.operator.compute x y).wholePart := by
  rw [wholePart_compute op left right]
  exact narrow_onIntegers op left right

theorem apply_of_narrow :
    op.operator.apply (.number x) (.number y) =
      .ok (.number (.ofInt (op.onIntegers x.wholePart y.wholePart))) := by
  rw [Operator.apply_number, compute_of_narrow op left right]

theorem apply_apply_left (other : Bitwise) {z : Number} (third : Narrow z.wholePart) :
    (do other.operator.apply (← op.operator.apply (.number x) (.number y)) (.number z)) =
      .ok (.number (.ofInt
        (other.onIntegers (op.onIntegers x.wholePart y.wholePart) z.wholePart))) := by
  rw [← wholePart_compute op left right]
  exact apply_of_narrow other (narrow_compute op left right) third

theorem apply_apply_right (other : Bitwise) {z : Number} (third : Narrow z.wholePart) :
    (do other.operator.apply (.number z) (← op.operator.apply (.number x) (.number y))) =
      .ok (.number (.ofInt
        (other.onIntegers z.wholePart (op.onIntegers x.wholePart y.wholePart)))) := by
  rw [← wholePart_compute op left right]
  exact apply_of_narrow other third (narrow_compute op left right)

theorem apply_absorb (other : Bitwise) (absorbs : ∀ a b, op.onBits a (other.onBits a b) = a) :
    (do op.operator.apply (.number x) (← other.operator.apply (.number x) (.number y))) =
      .ok (.number (.ofInt x.wholePart)) := by
  rw [apply_apply_right other left right op left, onIntegers_absorb absorbs left]

theorem apply_xor_twice :
    (do xor.operator.apply (← xor.operator.apply (.number x) (.number y)) (.number y)) =
      .ok (.number (.ofInt x.wholePart)) := by
  rw [apply_apply_left xor left right xor right, xor_onIntegers_twice left]

end Numbers

end Bitwise

/-- On numbers whose whole parts have 54 bits, a bitwise operator gives what it gives
on the 64 bits of the two whole parts. The result has 54 bits again and is a number
as it stands. So each operator is commutative and associative there; conjunction and
disjunction absorb each other, and a second exclusive disjunction undoes the first,
but for the fraction that is gone. -/
theorem bitwise_operators_lose_nothing {x y : Number} (left : Narrow x.wholePart)
    (right : Narrow y.wholePart) :
    (∀ op : Bitwise,
      let n := op.onIntegers x.wholePart y.wholePart
      op.operator.apply (.number x) (.number y) = .ok (.number (.ofInt n))
        ∧ (∀ place < 64, n.testBit place =
          op.onBits (x.wholePart.testBit place) (y.wholePart.testBit place))
        ∧ Narrow n ∧ (Number.ofInt n).position? = some (n * unitsPerOne)
        ∧ op.operator.apply (.number y) (.number x) = op.operator.apply (.number x) (.number y)
        ∧ ∀ z : Number, Narrow z.wholePart →
          (do op.operator.apply (← op.operator.apply (.number x) (.number y)) (.number z)) =
            (do op.operator.apply (.number x) (← op.operator.apply (.number y) (.number z))))
      ∧ (do Operator.and.apply (.number x) (← Operator.or.apply (.number x) (.number y))) =
        .ok (.number (.ofInt x.wholePart))
      ∧ (do Operator.or.apply (.number x) (← Operator.and.apply (.number x) (.number y))) =
        .ok (.number (.ofInt x.wholePart))
      ∧ (do Operator.xor.apply (← Operator.xor.apply (.number x) (.number y)) (.number y)) =
        .ok (.number (.ofInt x.wholePart))
      ∧ (Number.ofInt x.wholePart).position? = some (x.wholePart * unitsPerOne) := by
  refine ⟨fun op => ?_, Bitwise.and.apply_absorb left right .or (by decide),
    Bitwise.or.apply_absorb left right .and (by decide), Bitwise.apply_xor_twice left right,
    Number.position?_ofInt left⟩
  have narrow := op.narrow_onIntegers left right
  refine ⟨op.apply_of_narrow left right, fun place inside => op.testBit_onIntegers _ _ inside,
    narrow, Number.position?_ofInt narrow, ?_, fun z third => ?_⟩
  · rw [op.apply_of_narrow right left, op.apply_of_narrow left right, op.onIntegers_comm]
  · rw [op.apply_apply_left left right op third, op.apply_apply_right right third op left,
      op.onIntegers_assoc]

theorem bitwise_operators_lose_nothing_of_lowest :
    let x := Number.ofDecimal true 15 (-1)
    let y := Number.ofDecimal true (2 ^ 53) 0
    let z := Number.ofDecimal false 69 (-1)
    x.wholePart = -1 ∧ y.wholePart = -2 ^ 53 ∧ z.wholePart = 6
      ∧ Operator.and.apply (.number x) (.number y) = .ok (.number (.ofInt (-2 ^ 53)))
      ∧ Operator.or.apply (.number x) (.number y) = .ok (.number (.ofInt (-1)))
      ∧ Operator.xor.apply (.number x) (.number y) = .ok (.number (.ofInt (2 ^ 53 - 1)))
      ∧ (do Operator.xor.apply (← Operator.xor.apply (.number x) (.number y)) (.number y)) =
        .ok (.number (.ofInt (-1)))
      ∧ (do Operator.xor.apply (← Operator.xor.apply (.number x) (.number y)) (.number z)) =
        (do Operator.xor.apply (.number x) (← Operator.xor.apply (.number y) (.number z))) := by
  intro x y z
  have first : x.wholePart = -1 := by decide +kernel
  have second : y.wholePart = -2 ^ 53 := by decide +kernel
  have third : z.wholePart = 6 := by decide +kernel
  have conjunction : Bitwise.and.onIntegers (-1) (-2 ^ 53) = -2 ^ 53 := by decide
  have disjunction : Bitwise.or.onIntegers (-1) (-2 ^ 53) = -1 := by decide
  have exclusion : Bitwise.xor.onIntegers (-1) (-2 ^ 53) = 2 ^ 53 - 1 := by decide
  have narrow : Narrow (-1) ∧ Narrow (-2 ^ 53) ∧ Narrow 6 := by decide
  rw [← first, ← second, ← third] at narrow
  obtain ⟨left, right, last⟩ := narrow
  obtain ⟨each, -, -, twice, -⟩ := bitwise_operators_lose_nothing left right
  have both := (each .and).1
  have either := (each .or).1
  obtain ⟨odd, -, -, -, -, associative⟩ := each .xor
  rw [first, second] at both either odd
  rw [conjunction] at both
  rw [disjunction] at either
  rw [exclusion] at odd
  rw [first] at twice
  exact ⟨first, second, third, both, either, odd, twice, associative z last⟩

-- at `2 ^ 53`, just out of range, the lowest bit is rounded away
example : Operator.or.compute (.ofInt (2 ^ 53)) (.ofInt 1) = .ofInt (2 ^ 53) := by
  decide +kernel

end StackMachine
