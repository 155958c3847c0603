import StackMachine.Number.Decimal

/-!
Written numbers read back. The text of a number, whatever its kind, is read as
the same number; in particular the search for the shortest decimal never ends
with one that stands for another number.
-/

namespace StackMachine

namespace Decimal

def padded (d : Decimal) : List Char :=
  List.replicate (d.places + 1 - (Nat.toDigits 10 d.digits).length) '0'
    ++ Nat.toDigits 10 d.digits

theorem isDigit_of_mem_toDigits {n : Nat} {c : Char} (h : c ∈ Nat.toDigits 10 n) :
    c.isDigit = true :=
  Nat.isDigit_of_mem_toDigits (by decide) (by decide) h

theorem isDigit_of_mem_padded {d : Decimal} {c : Char} (h : c ∈ d.padded) :
    c.isDigit = true := by
  rcases List.mem_append.1 h with h | h
  · rw [List.eq_of_mem_replicate h]
    rfl
  · exact isDigit_of_mem_toDigits h

theorem ofDigitChars_padded (d : Decimal) : Nat.ofDigitChars 10 d.padded 0 = d.digits := by
  rw [padded, Nat.ofDigitChars_append, Nat.ofDigitChars_replicate_zero, Nat.mul_zero,
    Nat.ofDigitChars_ten_toDigits]

theorem places_lt_length_padded (d : Decimal) : d.places < d.padded.length := by
  rw [padded, List.length_append, List.length_replicate]
  omega

theorem layout_of_zero {d : Decimal} (h : d.places = 0) :
    d.layout = Nat.toDigits 10 d.digits := by
  simp only [layout, h, if_true]

theorem layout_of_pos {d : Decimal} (h : d.places ≠ 0) :
    d.layout = d.padded.take (d.padded.length - d.places)
      ++ '.' :: d.padded.drop (d.padded.length - d.places) := by
  simp only [layout, h, if_false, padded]

theorem head_layout (d : Decimal) : ∃ c rest, d.layout = c :: rest ∧ c.isDigit = true := by
  by_cases h : d.places = 0
  · rw [layout_of_zero h]
    obtain ⟨c, rest, hcons⟩ := List.exists_cons_of_ne_nil (@Nat.toDigits_ne_nil d.digits 10)
    exact ⟨c, rest, hcons, isDigit_of_mem_toDigits (hcons ▸ List.mem_cons_self)⟩
  · have hlt := places_lt_length_padded d
    have hne : d.padded ≠ [] := List.ne_nil_of_length_pos (by omega)
    obtain ⟨c, rest, hcons⟩ := List.exists_cons_of_ne_nil hne
    obtain ⟨k, hk⟩ : ∃ k, d.padded.length - d.places = k + 1 :=
      ⟨d.padded.length - d.places - 1, by omega⟩
    rw [layout_of_pos h, hk, hcons, List.take_succ_cons, List.cons_append]
    exact ⟨c, _, rfl, isDigit_of_mem_padded (hcons ▸ List.mem_cons_self)⟩

end Decimal

namespace Number

theorem takeWhile_isDigit {cs : List Char} (h : ∀ c ∈ cs, c.isDigit = true) :
    cs.takeWhile Char.isDigit = cs := by
  have happend := @List.takeWhile_append_of_pos Char Char.isDigit cs [] h
  rwa [List.append_nil, List.takeWhile_nil, List.append_nil] at happend

theorem dropWhile_isDigit {cs : List Char} (h : ∀ c ∈ cs, c.isDigit = true) :
    cs.dropWhile Char.isDigit = [] := by
  have happend := @List.dropWhile_append_of_pos Char Char.isDigit cs [] h
  rwa [List.append_nil, List.dropWhile_nil] at happend

theorem readDecimal_digits {whole : List Char} (negative : Bool) (hne : whole ≠ [])
    (hwhole : ∀ c ∈ whole, c.isDigit = true) :
    readDecimal negative whole =
      some (ofDecimal negative (Nat.ofDigitChars 10 whole 0) 0) := by
  simp only [readDecimal, takeWhile_isDigit hwhole, dropWhile_isDigit hwhole, splitFraction,
    hne, false_and, if_false, readExponent, Option.map_some, List.append_nil, List.length_nil]
  rfl

theorem readDecimal_point {whole fraction : List Char} (negative : Bool) (hne : fraction ≠ [])
    (hwhole : ∀ c ∈ whole, c.isDigit = true) (hfraction : ∀ c ∈ fraction, c.isDigit = true) :
    readDecimal negative (whole ++ '.' :: fraction) =
      some (ofDecimal negative (Nat.ofDigitChars 10 (whole ++ fraction) 0)
        (-fraction.length)) := by
  have htake : (whole ++ '.' :: fraction).takeWhile Char.isDigit = whole := by
    rw [List.takeWhile_append_of_pos hwhole, List.takeWhile_cons_of_neg (by decide),
      List.append_nil]
  have hdrop : (whole ++ '.' :: fraction).dropWhile Char.isDigit = '.' :: fraction := by
    rw [List.dropWhile_append_of_pos hwhole, List.dropWhile_cons_of_neg (by decide)]
  simp only [readDecimal, htake, hdrop, splitFraction, takeWhile_isDigit hfraction,
    dropWhile_isDigit hfraction, hne, and_false, if_false, readExponent, Option.map_some,
    Int.zero_sub]

theorem readDecimal_layout (negative : Bool) (d : Decimal) :
    readDecimal negative d.layout = some (ofDecimal negative d.digits (-d.places)) := by
  by_cases h : d.places = 0
  · rw [Decimal.layout_of_zero h, readDecimal_digits negative Nat.toDigits_ne_nil
      fun c => Decimal.isDigit_of_mem_toDigits, Nat.ofDigitChars_ten_toDigits, h]
    rfl
  · have hlt := Decimal.places_lt_length_padded d
    have hlength : (d.padded.drop (d.padded.length - d.places)).length = d.places := by
      rw [List.length_drop]
      omega
    rw [Decimal.layout_of_pos h, readDecimal_point negative
      (List.ne_nil_of_length_pos (by omega))
      (fun c hc => Decimal.isDigit_of_mem_padded (List.mem_of_mem_take hc))
      (fun c hc => Decimal.isDigit_of_mem_padded (List.mem_of_mem_drop hc)),
      List.take_append_drop, Decimal.ofDigitChars_padded, hlength]

theorem splitSign_layout (d : Decimal) : splitSign d.layout = (false, d.layout) := by
  obtain ⟨c, rest, hcons, hdigit⟩ := d.head_layout
  rw [hcons]
  unfold splitSign
  split
  · rename_i heq
    rw [(List.cons.inj heq).1] at hdigit
    exact absurd hdigit (by decide)
  · rename_i heq
    rw [(List.cons.inj heq).1] at hdigit
    exact absurd hdigit (by decide)
  · rfl

def withSign (negative : Bool) : Number → Number
  | .nan => .nan
  | .infinite _ => .infinite negative
  | .finite _ units fits => .finite negative units fits

theorem withSign_ofRatio (negative : Bool) (num den : Nat) :
    withSign negative (ofRatio false num den) = ofRatio negative num den := by
  simp only [ofRatio]
  split <;> rfl

theorem withSign_ofDecimal (negative : Bool) (digits : Nat) (exponent : Int) :
    withSign negative (ofDecimal false digits exponent) = ofDecimal negative digits exponent := by
  simp only [ofDecimal]
  split
  · rfl
  split
  · rfl
  split
  · rfl
  split <;> exact withSign_ofRatio negative _ _

theorem ofDecimal_of_readsBack {units : Nat} (negative : Bool) (fits : Representable units)
    {d : Decimal} (h : readsBack units d = true) :
    ofDecimal negative d.digits (-d.places) = .finite negative units fits := by
  rw [← withSign_ofDecimal]
  simp only [readsBack] at h
  split at h
  · rename_i found _ hfound
    rw [hfound]
    simp only [withSign, Number.finite.injEq, true_and]
    exact beq_iff_eq.1 h
  · cases h

theorem fineness_le : fineness ≤ 1100 := by
  unfold fineness
  decide

theorem unitsPerOne_mul_exactDecimal {units : Nat} (fits : Representable units) :
    unitsPerOne * (exactDecimal units).digits = 10 ^ (exactDecimal units).places * units := by
  have hunits : 2 ^ (units.log2 - 52) * (units / 2 ^ (units.log2 - 52)) = units :=
    Nat.mul_div_cancel' (Nat.dvd_of_mod_eq_zero fits.1)
  have hpow : 2 ^ fineness * 2 ^ (units.log2 - 52 - fineness) =
      2 ^ (fineness - (units.log2 - 52)) * 2 ^ (units.log2 - 52) := by
    rw [← Nat.pow_add, ← Nat.pow_add]
    congr 1
    omega
  simp only [exactDecimal, unitsPerOne]
  generalize units.log2 - 52 = exponent at hunits hpow ⊢
  calc 2 ^ fineness *
        (5 ^ (fineness - exponent) * (2 ^ (exponent - fineness) * (units / 2 ^ exponent)))
      = 5 ^ (fineness - exponent) *
        (2 ^ fineness * 2 ^ (exponent - fineness) * (units / 2 ^ exponent)) := by
        rw [Nat.mul_left_comm, Nat.mul_assoc (2 ^ fineness)]
    _ = 5 ^ (fineness - exponent) * 2 ^ (fineness - exponent) * units := by
        rw [hpow, Nat.mul_assoc (2 ^ (fineness - exponent)), hunits, Nat.mul_assoc]
    _ = 10 ^ (fineness - exponent) * units := by
        rw [← Nat.mul_pow]

theorem ofDecimal_exactDecimal {units : Nat} (hne : units ≠ 0) (fits : Representable units) :
    ofDecimal false (exactDecimal units).digits (-(exactDecimal units).places) =
      .finite false units fits := by
  have hmul := unitsPerOne_mul_exactDecimal fits
  have hplaces : (exactDecimal units).places ≤ fineness := Nat.sub_le _ _
  generalize exactDecimal units = d at hmul hplaces ⊢
  have hdigits : d.digits ≠ 0 := by
    intro hzero
    rw [hzero, Nat.mul_zero] at hmul
    exact Nat.mul_ne_zero (Nat.ne_of_gt (Nat.pow_pos (by decide))) hne hmul.symm
  have hsmall := fineness_le
  unfold ofDecimal
  rw [if_neg hdigits, if_neg (by omega), if_neg (by omega)]
  split
  · have hzero : d.places = 0 := by omega
    rw [hzero] at hmul
    simp only [hzero, Int.natCast_zero, Int.neg_zero, Int.toNat_zero]
    rw [Nat.mul_left_comm, hmul, ← Nat.mul_assoc]
    exact ofRatio_exact false Nat.one_pos fits
  · rw [hmul, Int.neg_neg, Int.toNat_natCast]
    exact ofRatio_exact false (Nat.pow_pos (by decide)) fits

theorem readsBack_exactDecimal {units : Nat} (hne : units ≠ 0) (fits : Representable units) :
    readsBack units (exactDecimal units) = true := by
  simp only [readsBack, ofDecimal_exactDecimal hne fits, beq_self_eq_true]

theorem readsBack_shortestFrom {units : Nat} {exact : Decimal}
    (h : readsBack units exact = true) (skipped : Nat) :
    readsBack units (shortestFrom units exact skipped) = true := by
  induction skipped with
  | zero => exact h
  | succ skipped ih =>
      simp only [shortestFrom]
      split
      · split <;> assumption
      · assumption
      · assumption
      · exact ih

theorem ofDecimal_shortest {units : Nat} (negative : Bool) (fits : Representable units) :
    ofDecimal negative (shortest units).digits (-(shortest units).places) =
      .finite negative units fits := by
  by_cases hne : units = 0
  · subst hne
    rfl
  · simp only [shortest, if_neg hne]
    exact ofDecimal_of_readsBack negative fits
      (readsBack_shortestFrom (readsBack_exactDecimal hne fits) _)

theorem toLower_of_isDigit {c : Char} (h : c.isDigit = true) : c.toLower = c := by
  simp only [Char.isDigit, Bool.and_eq_true, decide_eq_true_eq] at h
  have hlow : ¬ 'A'.val ≤ c.val := fun hle =>
    absurd (UInt32.le_trans hle h.2) (by decide)
  exact dif_neg fun range => hlow range.1

theorem read_of_digit {cs body : List Char} {negative : Bool}
    (hsign : splitSign cs = (negative, body))
    (hbody : ∃ c rest, body = c :: rest ∧ c.isDigit = true) :
    read cs = readDecimal negative body := by
  obtain ⟨c, rest, hcons, hdigit⟩ := hbody
  have hname : ∀ d : Char, d.isDigit = false → c.toLower ≠ d := by
    intro d hd heq
    rw [toLower_of_isDigit hdigit] at heq
    rw [heq, hd] at hdigit
    cases hdigit
  simp only [read, hsign, hcons, List.map_cons, List.cons.injEq]
  rw [if_neg, if_neg]
  · intro h
    exact hname 'n' (by decide) h.1
  · intro h
    exact hname 'i' (by decide) (h.elim And.left And.left)

theorem read_characters (x : Number) : read x.characters = some x := by
  cases x with
  | nan => rfl
  | infinite negative => cases negative <;> rfl
  | finite negative units fits =>
      have hhead := (shortest units).head_layout
      cases negative with
      | false =>
          rw [characters, read_of_digit (splitSign_layout _) hhead, readDecimal_layout,
            ofDecimal_shortest false fits]
      | true =>
          have hsign : splitSign ('-' :: (shortest units).layout) =
            (true, (shortest units).layout) := rfl
          rw [characters, read_of_digit hsign hhead, readDecimal_layout,
            ofDecimal_shortest true fits]

theorem parse?_text (x : Number) : parse? x.text = some x := by
  rw [parse?, text, String.toList_ofList, read_characters]

theorem characters_injective {x y : Number} (h : x.characters = y.characters) : x = y := by
  have hread := congrArg read h
  rw [read_characters, read_characters] at hread
  exact Option.some.inj hread

end Number

end StackMachine
