import Tableflow.Json.Value
import Tableflow.Proofs.Json.Literals

/-!
# Numbers as they are written

Integers and finite doubles are written as well-formed literals (`chars_integerLiteral`,
`exists_literal_real`). For a double this rests on its shortest numeral having digits other than
zero, without which zeros could be filled in behind a leading zero (`shortest_digits_pos`).
-/

namespace Tableflow

/-! ## Digits of natural numbers -/

namespace Decimal

theorem digits_toDigits (n : Nat) : Json.Digits (Nat.toDigits 10 n) :=
  ⟨Nat.toDigits_ne_nil, fun _ hc => Nat.isDigit_of_mem_toDigits (by decide) (by decide) hc⟩

theorem head?_toDigits {n : Nat} (h : 0 < n) : (Nat.toDigits 10 n).head? ≠ some '0' := by
  induction n using Nat.strongRecOn with
  | ind n ih =>
    rw [Nat.toDigits_eq_if (by decide)]
    split
    · next hlt =>
      have hdigit : ∀ d : Nat, d < 10 → 0 < d → d.digitChar ≠ '0' := by decide
      simpa using hdigit n hlt h
    · next hge =>
      obtain ⟨c, rest, hcons⟩ := List.exists_cons_of_ne_nil (Nat.toDigits_ne_nil (n := n / 10))
      have hhead := ih (n / 10) (by omega) (by omega)
      rw [hcons] at hhead ⊢
      exact hhead

/-- The digits of a natural number have no leading zero unless it is zero. -/
theorem whole_toDigits (n : Nat) : Json.Whole (Nat.toDigits 10 n) := by
  rcases Nat.eq_zero_or_pos n with rfl | h
  · exact .inl rfl
  · exact .inr ⟨digits_toDigits n, head?_toDigits h⟩

theorem natOfDigits_append_singleton (digits : List Char) (c : Char) :
    natOfDigits (digits ++ [c]) = 10 * natOfDigits digits + (c.toNat - '0'.toNat) := by
  simp [natOfDigits]

theorem natOfDigits_toDigits (n : Nat) : natOfDigits (Nat.toDigits 10 n) = n := by
  have hdigit : ∀ d : Nat, d < 10 → d.digitChar.toNat - '0'.toNat = d := by decide
  induction n using Nat.strongRecOn with
  | ind n ih =>
    rw [Nat.toDigits_eq_if (by decide)]
    split
    · next hlt =>
      rw [← List.nil_append [n.digitChar], natOfDigits_append_singleton, hdigit n hlt]
      simp [natOfDigits]
    · next hge =>
      rw [natOfDigits_append_singleton, ih (n / 10) (by omega), hdigit _ (by omega)]
      omega

/-! ## Shortest numerals -/

theorem trim_digits_pos {x : Numeral} (h : 0 < x.digits) : 0 < x.trim.digits := by
  fun_induction Numeral.trim x with
  | case1 x hmod ih => exact ih (by simp only; omega)
  | case2 x hmod => exact h

/-- A point of the grid in the interval of a positive number is not zero. -/
theorem gridPoint_pos {i : Interval} {tie : Tie} {num den digits : Nat} (hlow : 0 < i.low)
    (hnum : 0 < num) (h : i.gridPoint tie num den = some digits) : 0 < digits := by
  have hpos : 0 < i.low * num := Nat.mul_pos hlow hnum
  have hbelow : (if i.closed then i.low * num ≤ i.value * num / den * den
      else i.low * num < i.value * num / den * den) → 0 < i.value * num / den := by
    intro hdown
    refine Nat.pos_of_ne_zero fun hzero => ?_
    rw [hzero, Nat.zero_mul] at hdown
    split at hdown <;> omega
  unfold Interval.gridPoint at h
  simp only at h
  split at h
  · next hdown _ =>
    obtain rfl := Option.some.inj h
    split
    · exact Nat.succ_pos _
    · exact hbelow (of_decide_eq_true hdown)
  · next hdown _ =>
    obtain rfl := Option.some.inj h
    exact hbelow (of_decide_eq_true hdown)
  · obtain rfl := Option.some.inj h
    exact Nat.succ_pos _
  · cases h

theorem mantissa_pos {x : Double} (h : ¬x.isZero) : 0 < x.binary.mantissa := by
  have hmagnitude : x.magnitude ≠ 0 := by simpa [Double.isZero] using h
  have hsplit := Nat.div_add_mod x.magnitude Double.normalMantissa
  simp only [Double.binary]
  by_cases hfield : x.magnitude / Double.normalMantissa = 0
  · rw [if_pos hfield]
    rw [hfield, Nat.mul_zero, Nat.zero_add] at hsplit
    exact Nat.pos_of_ne_zero fun hzero => hmagnitude (hsplit.symm.trans hzero)
  · rw [if_neg hfield]
    exact Nat.add_pos_left (by decide) _

/-- The shortest numeral of a positive number has digits other than zero, or it is whole. -/
theorem shortest_digits_pos (tie : Tie) {b : Double.Binary} (h : 0 < b.mantissa) :
    0 < (shortest tie b).digits ∨ (shortest tie b).exponent = 0 := by
  have hlow : 0 < (Interval.of b).low := by
    simp only [Interval.of]
    split <;> omega
  unfold shortest
  simp only
  cases hgrid : (List.range 17).findSome? _ with
  | none => exact .inr rfl
  | some x =>
    obtain ⟨i, -, hi⟩ := List.exists_of_findSome?_eq_some hgrid
    obtain ⟨digits, hpoint, rfl⟩ := Option.map_eq_some_iff.1 hi
    have hnum : ∀ a b : Nat, 0 < Nat.pow 2 a * Nat.pow 10 b := fun a b =>
      Nat.mul_pos (Nat.pow_pos (by decide)) (Nat.pow_pos (by decide))
    exact .inl (trim_digits_pos (gridPoint_pos hlow (hnum _ _) hpoint))

/-! ## Digits with a point -/

/-- Digits with a point are the ones before it and the ones behind it, and both are some. -/
theorem exists_withPoint {digits : List Char} (h : Json.Whole digits) {places : Nat}
    (hplaces : 0 < places) : ∃ whole fraction, Json.Whole whole ∧ Json.Digits fraction ∧
      withPoint digits places = whole ++ '.' :: fraction := by
  rw [withPoint, if_neg (by omega)]
  obtain ⟨hne, hdigits⟩ := h.digits
  by_cases hlength : digits.length ≤ places
  · -- the digits are filled up to one zero before the point
    obtain ⟨fill, rfl⟩ := Nat.exists_eq_add_of_le hlength
    have hfill : digits.length + fill + 1 - digits.length = fill + 1 := by omega
    have hcut : ('0' :: (List.replicate fill '0' ++ digits)).length -
        (digits.length + fill) = 1 := by
      simp only [List.length_cons, List.length_append, List.length_replicate]
      omega
    refine ⟨['0'], List.replicate fill '0' ++ digits, .inl rfl, ⟨by simp [hne], ?_⟩, ?_⟩
    · intro c hc
      rcases List.mem_append.1 hc with hc | hc
      · rw [List.eq_of_mem_replicate hc]
        rfl
      · exact hdigits c hc
    · rw [hfill, List.replicate_succ, List.cons_append]
      simp only [hcut, List.take_succ_cons, List.take_zero, List.drop_succ_cons, List.drop_zero]
  · have hfill : places + 1 - digits.length = 0 := by omega
    have hcut : 0 < digits.length - places := by omega
    have hhead : digits.head? ≠ some '0' := by
      rcases h with rfl | ⟨-, hhead⟩
      · simp only [List.length_singleton] at hlength
        omega
      · exact hhead
    refine ⟨digits.take (digits.length - places), digits.drop (digits.length - places),
      .inr ⟨⟨?_, fun c hc => hdigits c (List.mem_of_mem_take hc)⟩, ?_⟩,
      ⟨?_, fun c hc => hdigits c (List.mem_of_mem_drop hc)⟩, ?_⟩
    · exact List.ne_nil_of_length_pos (by rw [List.length_take]; omega)
    · rwa [List.head?_take, if_neg (by omega)]
    · exact List.ne_nil_of_length_pos (by rw [List.length_drop]; omega)
    · rw [hfill, List.replicate_zero, List.nil_append]

end Decimal

namespace Json

/-! ## Integers -/

/-- The literal of an integer. -/
def integerLiteral (n : Int) : Literal := ⟨decide (n < 0), Nat.toDigits 10 n.natAbs, [], none⟩

theorem wellFormed_integerLiteral (n : Int) : (integerLiteral n).WellFormed where
  whole := Decimal.whole_toDigits _
  fraction := by simp [integerLiteral]
  exponent := by simp [integerLiteral]

theorem chars_integerLiteral (n : Int) : (integerLiteral n).chars = writeInteger n := by
  by_cases h : n < 0 <;>
    simp [Literal.chars, Literal.fractionChars, Literal.exponentChars, integerLiteral,
      writeInteger, h]

/-! ## Doubles -/

theorem Literal.fractionChars_of_ne_nil {n : Literal} (h : n.fraction ≠ []) :
    n.fractionChars = '.' :: n.fraction := by
  obtain ⟨c, rest, hcons⟩ := List.exists_cons_of_ne_nil h
  rw [Literal.fractionChars, hcons]

/-- Digits with a point, and perhaps with an exponent, are a literal. -/
theorem exists_literal_withPoint {digits : List Char} (h : Whole digits) {places : Nat}
    (hplaces : 0 < places) (exponent : Option (Bool × List Char))
    (hexponent : ∀ negative digits, exponent = some (negative, digits) → Digits digits) :
    ∃ n : Literal, n.WellFormed ∧ n.negative = false ∧ n.chars =
      Decimal.withPoint digits places ++ (Literal.exponentChars ⟨false, [], [], exponent⟩) := by
  obtain ⟨whole, fraction, hwhole, hfraction, heq⟩ := Decimal.exists_withPoint h hplaces
  refine ⟨⟨false, whole, fraction, exponent⟩, ⟨hwhole, hfraction.2, hexponent⟩, rfl, ?_⟩
  rw [Literal.chars, Literal.fractionChars_of_ne_nil hfraction.1, heq, List.append_assoc]
  rfl

theorem whole_append_zeros {digits : List Char} (h : Whole digits) {count : Nat}
    (hzero : digits.head? ≠ some '0' ∨ count = 0) : Whole (digits ++ List.replicate count '0') := by
  rcases hzero with hhead | rfl
  · refine .inr ⟨⟨by simp [h.digits.1], fun c hc => ?_⟩, ?_⟩
    · rcases List.mem_append.1 hc with hc | hc
      · exact h.digits.2 c hc
      · rw [List.eq_of_mem_replicate hc]
        rfl
    · obtain ⟨c, rest, rfl⟩ := List.exists_cons_of_ne_nil h.digits.1
      exact hhead
  · simpa using h

/-- A numeral is written as a literal, unless zeros are filled in behind a zero. -/
theorem exists_literal_layout {x : Decimal.Numeral} (h : 0 < x.digits ∨ x.exponent = 0) :
    ∃ n : Literal, n.WellFormed ∧ n.negative = false ∧ n.chars = numberStyle.layout x := by
  have hwhole := Decimal.whole_toDigits x.digits
  unfold Decimal.Style.layout
  simp only
  split
  · split
    · have hzeros : Whole (Nat.toDigits 10 x.digits ++ List.replicate x.exponent.toNat '0') :=
        whole_append_zeros hwhole (h.imp Decimal.head?_toDigits fun h => by rw [h]; rfl)
      exact ⟨⟨false, _, ['0'], none⟩, ⟨hzeros, by simp, by simp⟩, rfl, rfl⟩
    · obtain ⟨n, hn, hnegative, hchars⟩ :=
        exists_literal_withPoint hwhole (by omega : 0 < (-x.exponent).toNat) none (by simp)
      exact ⟨n, hn, hnegative, by simpa [Literal.exponentChars] using hchars⟩
  · generalize hlead : ((Nat.toDigits 10 x.digits).length : Int) + x.exponent - 1 = lead
    have hexponent : ∀ negative digits,
        some (decide (lead < 0), Nat.toDigits 10 lead.natAbs) = some (negative, digits) →
          Digits digits := by
      rintro _ _ ⟨⟩
      exact Decimal.digits_toDigits _
    have hchars : ∀ n : Literal,
        n.exponent = some (decide (lead < 0), Nat.toDigits 10 lead.natAbs) →
          n.exponentChars =
            'e' :: (if lead < 0 then '-' else '+') :: Nat.toDigits 10 lead.natAbs := by
      intro n hn
      rw [Literal.exponentChars, hn]
      by_cases hneg : lead < 0 <;> simp [hneg]
    split
    · exact ⟨⟨false, _, [], some (decide (lead < 0), Nat.toDigits 10 lead.natAbs)⟩,
        ⟨hwhole, by simp, hexponent⟩, rfl, by rw [Literal.chars, hchars _ rfl]; rfl⟩
    · have hpos := Nat.length_toDigits_pos (b := 10) (n := x.digits)
      obtain ⟨n, hn, hnegative, heq⟩ :=
        exists_literal_withPoint hwhole (by omega : 0 < (Nat.toDigits 10 x.digits).length - 1)
          (some (decide (lead < 0), Nat.toDigits 10 lead.natAbs)) hexponent
      exact ⟨n, hn, hnegative, by rw [heq, hchars _ rfl]⟩

/-- A finite double is written as a literal. -/
theorem exists_literal_real {x : Double} (h : x.isFinite) :
    ∃ n : Literal, n.WellFormed ∧ n.chars = writeReal x := by
  have hmagnitude : ∃ n : Literal, n.WellFormed ∧ n.negative = false ∧
      n.chars = if x.isZero then numberStyle.layout ⟨0, 0⟩
        else numberStyle.layout (Decimal.shortest numberStyle.tie x.binary) := by
    split
    · exact exists_literal_layout (.inr rfl)
    · next hzero =>
      exact exists_literal_layout (Decimal.shortest_digits_pos _ (Decimal.mantissa_pos hzero))
  obtain ⟨n, hn, hnegative, hchars⟩ := hmagnitude
  rw [writeReal, if_pos h, Decimal.Style.write]
  simp only [← hchars]
  by_cases hsign : x.isNegative
  · rw [if_pos hsign]
    exact ⟨{ n with negative := true }, ⟨hn.whole, hn.fraction, hn.exponent⟩, by
      simp [Literal.chars, hnegative, Literal.fractionChars, Literal.exponentChars]⟩
  · rw [if_neg hsign]
    exact ⟨n, hn, rfl⟩

end Json

end Tableflow
