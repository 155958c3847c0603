/-!
Binary numbers of 64 bits. A finite number is a sign and a whole count of
units, one unit being `2 ^ -1074`, so that every finite number is an exact
integer multiple of one fixed quantity and arithmetic is integer arithmetic
followed by one rounding. Rounding goes to the nearest count that has at most
53 significant bits, halfway cases to the even neighbour, and a result of
`2 ^ 1024` or more becomes infinite.
-/

namespace StackMachine

-- `2 ^ n` is the power of `Nat` and of `Int`, also where algebra offers another one
attribute [default_instance high + 1, instance (high)] instPowNat

/-- The finest exponent: one unit is `2 ^ -1074`. -/
@[irreducible] def fineness : Nat := 1074

/-- The first exponent that is out of range: finite numbers stay below `2 ^ 1024`. -/
@[irreducible] def reach : Nat := 1024

theorem lt_reach : 53 < reach := by
  unfold reach
  decide

def unitsPerOne : Nat := 2 ^ fineness

def unitsLimit : Nat := 2 ^ (fineness + reach)

/-- The spacing of representable counts in the binade that holds `units`. -/
def spacing (units : Nat) : Nat := 2 ^ (units.log2 - 52)

/-- At most 53 significant bits, and in range. -/
def Representable (units : Nat) : Prop :=
  units % spacing units = 0 ∧ units < unitsLimit

instance (units : Nat) : Decidable (Representable units) :=
  inferInstanceAs (Decidable (_ ∧ _))

theorem spacing_pos (units : Nat) : 0 < spacing units :=
  Nat.two_pow_pos _

theorem spacing_eq_one {units : Nat} (h : units < 2 ^ 53) : spacing units = 1 := by
  have hlog : units.log2 - 52 = 0 := by
    by_cases h0 : units = 0
    · simp [h0]
    · have := (Nat.log2_lt h0).2 h
      omega
  simp [spacing, hlog]

theorem unitsPerOne_pos : 0 < unitsPerOne :=
  Nat.two_pow_pos _

theorem unitsPerOne_mul_lt {n : Nat} (h : n ≤ 2 ^ 53) : unitsPerOne * n < unitsLimit := by
  have hle : unitsPerOne * n ≤ unitsPerOne * 2 ^ 53 := Nat.mul_le_mul_left _ h
  have hlt : unitsPerOne * 2 ^ 53 < unitsLimit := by
    rw [unitsPerOne, unitsLimit, ← Nat.pow_add]
    exact Nat.pow_lt_pow_right Nat.one_lt_two (Nat.add_lt_add_left lt_reach _)
  exact Nat.lt_of_le_of_lt hle hlt

theorem representable_of_lt {units : Nat} (h : units < 2 ^ 53) : Representable units := by
  refine ⟨by rw [spacing_eq_one h, Nat.mod_one], ?_⟩
  exact Nat.lt_of_le_of_lt (Nat.le_mul_of_pos_left _ unitsPerOne_pos)
    (unitsPerOne_mul_lt (Nat.le_of_lt h))

inductive Number where
  | nan
  | infinite (negative : Bool)
  | finite (negative : Bool) (units : Nat) (fits : Representable units)
deriving DecidableEq

/-- The whole number nearest to `num / den`, the even one of two equally near. -/
def roundQuotient (num den : Nat) : Nat :=
  let below := num / den
  let twice := 2 * (num % den)
  if twice < den ∨ (twice = den ∧ below % 2 = 0) then below else below + 1

theorem roundQuotient_eq_or (num den : Nat) :
    roundQuotient num den = num / den ∨ roundQuotient num den = num / den + 1 := by
  simp only [roundQuotient]
  split
  · exact .inl rfl
  · exact .inr rfl

theorem roundQuotient_exact {num den : Nat} (hden : 0 < den) (h : num % den = 0) :
    roundQuotient num den = num / den := by
  simp [roundQuotient, h, hden]

/-- The representable count nearest to `num / den`, before the range is looked at. -/
def roundUnits (num den : Nat) : Nat :=
  let step := spacing (num / den)
  step * roundQuotient num (den * step)

theorem div_spacing_lt (units : Nat) : units / spacing units < 2 ^ 53 := by
  by_cases h : units < 2 ^ 53
  · exact Nat.lt_of_le_of_lt (Nat.div_le_self _ _) h
  · have h0 : units ≠ 0 := by
      rintro rfl
      exact h (by decide)
    have hlog : 53 ≤ units.log2 := (Nat.le_log2 h0).2 (Nat.le_of_not_lt h)
    rw [Nat.div_lt_iff_lt_mul (spacing_pos units), spacing, ← Nat.pow_add]
    have : 53 + (units.log2 - 52) = units.log2 + 1 := by omega
    rw [this]
    exact Nat.lt_log2_self

theorem mod_spacing_of_le {step count : Nat} (h : count ≤ 2 ^ 53) :
    2 ^ step * count % spacing (2 ^ step * count) = 0 := by
  apply Nat.mod_eq_zero_of_dvd
  by_cases h0 : count = 0
  · simp [h0]
  have hne : 2 ^ step * count ≠ 0 :=
    Nat.mul_ne_zero (Nat.pos_iff_ne_zero.1 (Nat.two_pow_pos _)) h0
  rcases Nat.lt_or_eq_of_le h with hlt | heq
  · have hlog : (2 ^ step * count).log2 < step + 53 := by
      rw [Nat.log2_lt hne, Nat.pow_add]
      exact Nat.mul_lt_mul_of_pos_left hlt (Nat.two_pow_pos _)
    exact Nat.dvd_trans (Nat.pow_dvd_pow 2 (by omega)) (Nat.dvd_mul_right _ _)
  · rw [heq, ← Nat.pow_add, spacing, Nat.log2_two_pow]
    exact Nat.pow_dvd_pow 2 (by omega)

theorem roundUnits_mod_spacing (num den : Nat) :
    roundUnits num den % spacing (roundUnits num den) = 0 := by
  have hle : roundQuotient num (den * spacing (num / den)) ≤ 2 ^ 53 := by
    have hlt := div_spacing_lt (num / den)
    rw [Nat.div_div_eq_div_mul] at hlt
    rcases roundQuotient_eq_or num (den * spacing (num / den)) with h | h <;> omega
  exact mod_spacing_of_le hle

theorem roundUnits_exact {units den : Nat} (hden : 0 < den)
    (h : units % spacing units = 0) : roundUnits (den * units) den = units := by
  have hdiv : den * units / den = units := Nat.mul_div_cancel_left _ hden
  simp only [roundUnits, hdiv]
  have hpos : 0 < den * spacing units := Nat.mul_pos hden (spacing_pos _)
  obtain ⟨count, hcount⟩ := Nat.dvd_of_mod_eq_zero h
  have hmul : den * units = den * spacing units * count := by
    rw [Nat.mul_assoc, ← hcount]
  rw [roundQuotient_exact hpos (by rw [hmul, Nat.mul_mod_right]), hmul,
    Nat.mul_div_cancel_left _ hpos, ← hcount]

namespace Number

def zero (negative : Bool) : Number :=
  .finite negative 0 (representable_of_lt (by decide))

/-- The number nearest to `num / den` units. -/
def ofRatio (negative : Bool) (num den : Nat) : Number :=
  if h : roundUnits num den < unitsLimit then
    .finite negative (roundUnits num den) ⟨roundUnits_mod_spacing num den, h⟩
  else
    .infinite negative

theorem ofRatio_exact {units den : Nat} (negative : Bool) (hden : 0 < den)
    (fits : Representable units) :
    ofRatio negative (den * units) den = .finite negative units fits := by
  have h := roundUnits_exact hden fits.1
  simp only [ofRatio, h, dif_pos fits.2]

def ofNat (n : Nat) : Number :=
  ofRatio false (unitsPerOne * n) 1

def ofInt (n : Int) : Number :=
  ofRatio (decide (n < 0)) (unitsPerOne * n.natAbs) 1

def neg : Number → Number
  | .nan => .nan
  | .infinite negative => .infinite (!negative)
  | .finite negative units fits => .finite (!negative) units fits

def signed (negative : Bool) (units : Nat) : Int :=
  if negative then -units else units

def ofSigned (zeroSign : Bool) (units : Int) : Number :=
  if units = 0 then zero zeroSign else ofRatio (decide (units < 0)) units.natAbs 1

/-- A zero sum is negative only when both operands are. -/
def add : Number → Number → Number
  | .nan, _ => .nan
  | _, .nan => .nan
  | .infinite s, .infinite t => if s = t then .infinite s else .nan
  | .infinite s, .finite _ _ _ => .infinite s
  | .finite _ _ _, .infinite t => .infinite t
  | .finite s a _, .finite t b _ => ofSigned (s && t) (signed s a + signed t b)

def sub (x y : Number) : Number :=
  add x (neg y)

def mul : Number → Number → Number
  | .nan, _ => .nan
  | _, .nan => .nan
  | .infinite s, .infinite t => .infinite (s ^^ t)
  | .infinite s, .finite t b _ => if b = 0 then .nan else .infinite (s ^^ t)
  | .finite s a _, .infinite t => if a = 0 then .nan else .infinite (s ^^ t)
  | .finite s a _, .finite t b _ => ofRatio (s ^^ t) (a * b) unitsPerOne

/-- Division by zero gives an infinite number, or none at all for zero by zero. -/
def div : Number → Number → Number
  | .nan, _ => .nan
  | _, .nan => .nan
  | .infinite _, .infinite _ => .nan
  | .infinite s, .finite t _ _ => .infinite (s ^^ t)
  | .finite s _ _, .infinite t => zero (s ^^ t)
  | .finite s a _, .finite t b _ =>
      if b = 0 then
        if a = 0 then .nan else .infinite (s ^^ t)
      else
        ofRatio (s ^^ t) (unitsPerOne * a) b

/-- The position on the number line, in units; both zeros share one position. -/
def position? : Number → Option Int
  | .nan => none
  | .infinite negative => some (signed negative unitsLimit)
  | .finite negative units _ => some (signed negative units)

def compareBy (relation : Int → Int → Bool) (x y : Number) : Bool :=
  match x.position?, y.position? with
  | some a, some b => relation a b
  | _, _ => false

def equals : Number → Number → Bool :=
  compareBy fun a b => decide (a = b)

def less : Number → Number → Bool :=
  compareBy fun a b => decide (a < b)

def lessEqual : Number → Number → Bool :=
  compareBy fun a b => decide (a ≤ b)

def wholeLimit : Nat := 2 ^ 53

def whole? : Number → Option Nat
  | .finite negative units _ =>
      if (negative = false ∨ units = 0) ∧ units % unitsPerOne = 0
          ∧ units / unitsPerOne < wholeLimit then
        some (units / unitsPerOne)
      else
        none
  | _ => none

theorem whole?_lt {x : Number} {n : Nat} (h : x.whole? = some n) : n < wholeLimit := by
  unfold whole? at h
  split at h
  · split at h
    · cases h
      rename_i hc
      exact hc.2.2
    · cases h
  · cases h

theorem representable_unitsPerOne_mul {n : Nat} (h : n ≤ 2 ^ 53) :
    Representable (unitsPerOne * n) :=
  ⟨mod_spacing_of_le h, unitsPerOne_mul_lt h⟩

theorem ofNat_eq {n : Nat} (h : n ≤ 2 ^ 53) :
    ofNat n = .finite false (unitsPerOne * n) (representable_unitsPerOne_mul h) := by
  have := ofRatio_exact false Nat.one_pos (representable_unitsPerOne_mul h)
  rwa [Nat.one_mul] at this

theorem whole?_ofNat {n : Nat} (h : n < wholeLimit) : (ofNat n).whole? = some n := by
  rw [ofNat_eq (Nat.le_of_lt h)]
  simp only [whole?, Nat.mul_mod_right, Nat.mul_div_cancel_left _ unitsPerOne_pos]
  simp [h]

/-- Truncation toward zero into the 64-bit two's complement range; what lies
beyond goes to the nearest end, and no number at all to zero. -/
def truncate : Number → Int
  | .nan => 0
  | .infinite negative => if negative then -2 ^ 63 else 2 ^ 63 - 1
  | .finite negative units _ =>
      let whole := signed negative (units / unitsPerOne)
      max (-2 ^ 63) (min whole (2 ^ 63 - 1))

def word (x : Number) : BitVec 64 :=
  BitVec.ofInt 64 x.truncate

def ofWord (w : BitVec 64) : Number :=
  ofInt w.toInt

def bitAnd (x y : Number) : Number :=
  ofWord (x.word &&& y.word)

def bitOr (x y : Number) : Number :=
  ofWord (x.word ||| y.word)

def bitXor (x y : Number) : Number :=
  ofWord (x.word ^^^ y.word)

end Number

end StackMachine
