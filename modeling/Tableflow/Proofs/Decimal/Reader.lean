import Mathlib.Tactic.SplitIfs
import Tableflow.Decimal.Reader

/-!
# Texts that are read as not-a-number

The nearest double of a fraction is a number or an infinity, so that a text is read as not-a-number
just if it names it: three letters in any case behind an optional sign (`Decimal.SpellsNaN`). The
main statement is `Decimal.exists_read_isNaN_iff`.
-/

namespace Tableflow

/-! ## Numbers and infinities -/

namespace Double

variable {negative : Bool}

/-- A sign does not change a magnitude. -/
theorem magnitude_ofMagnitude {w : UInt64} (h : w.toNat < 0x8000000000000000) :
    (ofMagnitude negative w).magnitude = w.toNat := by
  cases negative with
  | false => exact Nat.mod_eq_of_lt h
  | true =>
    have hbits : (ofMagnitude true w).bits.toNat = w.toNat ||| 2 ^ 63 := UInt64.toNat_or ..
    have hmagnitude : (ofMagnitude true w).magnitude = (w.toNat ||| 2 ^ 63) % 2 ^ 63 :=
      congrArg (· % 2 ^ 63) hbits
    rw [hmagnitude, Nat.or_mod_two_pow, Nat.mod_self, Nat.or_zero, Nat.mod_eq_of_lt h]

theorem isNaN_ofMagnitude {w : UInt64} (h : w.toNat ≤ infinityBits.toNat) :
    (ofMagnitude negative w).isNaN = false := by
  have hlt : infinityBits.toNat < 0x8000000000000000 := by decide
  rw [isNaN, magnitude_ofMagnitude (Nat.lt_of_le_of_lt h hlt), decide_eq_false_iff_not]
  exact Nat.not_lt.2 h

theorem nearestBits_le (num den : Nat) : (nearestBits num den).toNat ≤ infinityBits.toNat := by
  have hcapped (word : Nat) : (if word < infinityBits.toNat then UInt64.ofNat word
      else infinityBits).toNat ≤ infinityBits.toNat := by
    split
    · next hlt =>
      rw [UInt64.toNat_ofNat']
      exact Nat.le_trans (Nat.mod_le ..) (Nat.le_of_lt hlt)
    · exact Nat.le_refl _
  unfold nearestBits
  split
  · decide
  · exact hcapped _

theorem isNaN_nearest (num den : Nat) : (nearest negative num den).isNaN = false :=
  isNaN_ofMagnitude (nearestBits_le num den)

theorem isNaN_infinity : (infinity negative).isNaN = false :=
  isNaN_ofMagnitude (Nat.le_refl _)

theorem isNaN_nan : (nan negative).isNaN = true := by
  cases negative <;> decide

end Double

namespace Decimal

theorem Numeral.isNaN_toDouble (negative : Bool) (x : Numeral) :
    (x.toDouble negative).isNaN = false := by
  unfold toDouble
  split_ifs
  · exact Double.isNaN_ofMagnitude (by decide)
  · exact Double.isNaN_infinity
  · exact Double.isNaN_ofMagnitude (by decide)
  · exact Double.isNaN_nearest ..
  · exact Double.isNaN_nearest ..

/-! ## Names -/

/-- A text that spells not-a-number: `nan` in any case, with or without a sign. -/
def SpellsNaN (text : String) : Prop :=
  ∃ sign ∈ [[], ['+'], ['-']], ∃ letters, text.toList = sign ++ letters ∧
    letters.map Char.toLower = ['n', 'a', 'n']

theorem exists_sign (text : List Char) :
    ∃ sign ∈ [[], ['+'], ['-']], text = sign ++ (splitSign text).2 := by
  unfold splitSign
  split
  · exact ⟨['+'], by simp, rfl⟩
  · exact ⟨['-'], by simp, rfl⟩
  · exact ⟨[], by simp, rfl⟩

/-- A letter is no sign. -/
theorem splitSign_append {sign letters : List Char} (hsign : sign ∈ [[], ['+'], ['-']])
    (hletters : letters.map Char.toLower = ['n', 'a', 'n']) :
    (splitSign (sign ++ letters)).2 = letters := by
  obtain ⟨c, rest, rfl, hc, -⟩ := List.map_eq_cons_iff.1 hletters
  have hplus : c ≠ '+' := by
    rintro rfl
    exact absurd hc (by decide)
  have hminus : c ≠ '-' := by
    rintro rfl
    exact absurd hc (by decide)
  simp only [List.mem_cons, List.not_mem_nil, or_false] at hsign
  rcases hsign with rfl | rfl | rfl
  · rw [List.nil_append]
    unfold splitSign
    split
    · next heq => exact absurd (List.cons.inj heq).1 hplus
    · next heq => exact absurd (List.cons.inj heq).1 hminus
    · rfl
  · rfl
  · rfl

theorem spellsNaN_iff {text : String} :
    SpellsNaN text ↔ (splitSign text.toList).2.map Char.toLower = ['n', 'a', 'n'] := by
  constructor
  · rintro ⟨sign, hsign, letters, htext, hletters⟩
    rwa [htext, splitSign_append hsign hletters]
  · intro hletters
    obtain ⟨sign, hsign, htext⟩ := exists_sign text.toList
    exact ⟨sign, hsign, _, htext, hletters⟩

instance : DecidablePred SpellsNaN := fun _ => decidable_of_iff _ spellsNaN_iff.symm

/-! ## Reading -/

theorem read_eq_ok_iff {text : String} {x : Double} :
    read text = .ok x ↔
      readMagnitude (splitSign text.toList).1 (splitSign text.toList).2 = some x := by
  rw [read]
  split
  · next hempty =>
    have hnone : readMagnitude false [] = none := by decide
    rw [String.isEmpty_iff.1 hempty]
    exact iff_of_false (fun h => nomatch h) fun h => nomatch hnone.symm.trans h
  · simp only
    cases readMagnitude (splitSign text.toList).1 (splitSign text.toList).2 <;> simp

theorem exists_readMagnitude_isNaN_iff {negative : Bool} {letters : List Char} :
    (∃ x, readMagnitude negative letters = some x ∧ x.isNaN = true) ↔
      letters.map Char.toLower = ['n', 'a', 'n'] := by
  have hname : String.ofList (letters.map Char.toLower) = "nan" ↔
      letters.map Char.toLower = ['n', 'a', 'n'] := String.ofList_inj
  rw [← hname]
  simp only [readMagnitude]
  split
  · next hinfinity =>
    refine iff_of_false ?_ fun hnan => absurd (hnan ▸ hinfinity) (by decide)
    rintro ⟨x, hx, hx'⟩
    rw [← Option.some.inj hx, Double.isNaN_infinity] at hx'
    cases hx'
  · split
    · next hnan => exact iff_of_true ⟨_, rfl, Double.isNaN_nan⟩ hnan
    · next hnan =>
      refine iff_of_false ?_ hnan
      rintro ⟨x, hx, hx'⟩
      obtain ⟨numeral, -, rfl⟩ := Option.map_eq_some_iff.1 hx
      rw [Numeral.isNaN_toDouble] at hx'
      cases hx'

/-- A text is read as not-a-number just if it spells it. -/
theorem exists_read_isNaN_iff {text : String} :
    (∃ x, read text = .ok x ∧ x.isNaN = true) ↔ SpellsNaN text := by
  simp only [read_eq_ok_iff, exists_readMagnitude_isNaN_iff, spellsNaN_iff]

end Decimal

end Tableflow
