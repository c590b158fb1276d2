import Mathlib.Tactic.SplitIfs
import Tableflow.Json.Tree
import Tableflow.Json.Value

/-!
# Reading strings back

Every character is written as itself or as an escape that spells its code point
(`readUnits_writeChar`), and code points of characters are no surrogates (`joinUnits_map_toNat`), so
a string is read back whatever it holds (`readString_writeString`).
-/

namespace Tableflow.Json

theorem hexUnit_digits {n : Nat} (h : n < 0x20) :
    hexUnit '0' '0' (Nat.digitChar (n / 16)) (Nat.digitChar (n % 16)) = some n := by
  have hall : ∀ n < 0x20,
      hexUnit '0' '0' (Nat.digitChar (n / 16)) (Nat.digitChar (n % 16)) = some n := by
    decide +kernel
  exact hall n h

/-- A character in a string is read back as its code point. -/
theorem readUnits_writeChar (c : Char) (rest : List Char) :
    readUnits (writeChar c ++ rest) =
      (readUnits rest).bind fun read => some (c.toNat :: read.1, read.2) := by
  unfold writeChar
  split_ifs with hquoted h8 h9 h10 h12 h13 hcontrol
  · obtain rfl | rfl : c = '"' ∨ c = '\\' := by simpa using hquoted
    · rfl
    · rfl
  · simp [readUnits, escapedChar, h8]
  · simp [readUnits, escapedChar, h9]
  · simp [readUnits, escapedChar, h10]
  · simp [readUnits, escapedChar, h12]
  · simp [readUnits, escapedChar, h13]
  · simp [readUnits, hexUnit_digits hcontrol]
  · obtain ⟨hquote, hescape⟩ : c ≠ '"' ∧ c ≠ '\\' := by simpa using hquoted
    rw [List.singleton_append, readUnits]
    · simp [hescape, hcontrol]
    · exact hquote
    · exact fun _ _ _ _ _ h => absurd h hescape
    · exact fun _ _ h => absurd h hescape

theorem readUnits_flatMap_writeChar (chars rest : List Char) :
    readUnits (chars.flatMap writeChar ++ '"' :: rest) = some (chars.map Char.toNat, rest) := by
  induction chars with
  | nil => rfl
  | cons c more ih =>
    rw [List.flatMap_cons, List.append_assoc, readUnits_writeChar, ih]
    rfl

theorem joinUnits_map_toNat (chars : List Char) :
    joinUnits (chars.map Char.toNat) = some chars := by
  induction chars with
  | nil => rfl
  | cons c rest ih =>
    have hvalid : c.toNat < 0xd800 || 0xe000 ≤ c.toNat := by
      have := c.valid
      simp only [Bool.or_eq_true, decide_eq_true_eq]
      rcases this with h | h
      · exact .inl h
      · exact .inr (Nat.succ_le_of_lt h.1)
    rw [List.map_cons, joinUnits.eq_def]
    simp only [hvalid, if_true, ih, Option.map_some, Char.ofNat_toNat]

/-- A string is read back behind its opening quote. -/
theorem readString_writeString (s : String) (rest : List Char) :
    readString (s.toList.flatMap writeChar ++ '"' :: rest) = some (some s, rest) := by
  simp [readString, readUnits_flatMap_writeChar, joinUnits_map_toNat]

end Tableflow.Json
