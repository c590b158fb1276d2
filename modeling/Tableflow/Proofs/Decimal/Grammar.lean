import Mathlib.Data.List.TakeWhile
import Tableflow.Decimal.Word
import Tableflow.Proofs.Decimal.Reader
import Tableflow.Proofs.Json.Literals

/-!
# The grammars of decimal texts

Which texts are read as words and as doubles, told by their grammars and not by how they are read. A
word is spelled by digits with a plus sign allowed before them (`SpellsWord`), a double by a numeral
or a name with a sign allowed before it (`Spells`). The main statements are `readWord_eq_ok_iff` and
`read_eq_ok_iff_spells`.
-/

namespace Tableflow.Decimal

open Json (Digits NoDigit takeWhile_isDigit dropWhile_isDigit)

/-! ## Signs -/

/-- The signs that a text may start with, with whether they are negative. -/
def signs : List (List Char × Bool) := [([], false), (['+'], false), (['-'], true)]

/-- A text that does not go on with a sign. -/
def Unsigned (text : List Char) : Prop := ∀ c ∈ text.head?, c ≠ '+' ∧ c ≠ '-'

theorem splitSign_eq {sign rest : List Char} {negative : Bool} (hsign : (sign, negative) ∈ signs)
    (hrest : Unsigned rest) : splitSign (sign ++ rest) = (negative, rest) := by
  simp only [signs, List.mem_cons, Prod.mk.injEq, List.not_mem_nil, or_false] at hsign
  rcases hsign with ⟨rfl, rfl⟩ | ⟨rfl, rfl⟩ | ⟨rfl, rfl⟩
  · rw [List.nil_append]
    unfold splitSign
    split
    · exact absurd rfl (hrest _ rfl).1
    · exact absurd rfl (hrest _ rfl).2
    · rfl
  · rfl
  · rfl

theorem exists_splitSign (text : List Char) : ∃ sign,
    (sign, (splitSign text).1) ∈ signs ∧ sign ++ (splitSign text).2 = text := by
  unfold splitSign
  split
  · exact ⟨['+'], by simp [signs], rfl⟩
  · exact ⟨['-'], by simp [signs], rfl⟩
  · exact ⟨[], by simp [signs], rfl⟩

/-! ## Words -/

/-- A text that spells a word: digits of a number within 64 bits, with a plus sign allowed before
them. -/
def SpellsWord (text : String) (w : UInt64) : Prop :=
  ∃ digits, (text.toList = digits ∨ text.toList = '+' :: digits) ∧ Digits digits ∧
    natOfDigits digits = w.toNat

/-- The number that digits spell behind those of `n`. -/
def digitsFrom (n : Nat) (digits : List Char) : Nat :=
  digits.foldl (fun n c => 10 * n + (c.toNat - '0'.toNat)) n

theorem le_digitsFrom (n : Nat) (digits : List Char) : n ≤ digitsFrom n digits := by
  induction digits generalizing n with
  | nil => exact Nat.le_refl n
  | cons c digits ih =>
    have hnext := ih (10 * n + (c.toNat - '0'.toNat))
    change _ ≤ digitsFrom (10 * n + (c.toNat - '0'.toNat)) digits
    omega

/-- Digits never make a number smaller, so that a number within range has been in range all
along. -/
theorem readWordDigits_eq_ok_iff {n m : Nat} {digits : List Char} (hn : n < 0x10000000000000000) :
    readWordDigits n digits = .ok m ↔
      (∀ c ∈ digits, c.isDigit) ∧ digitsFrom n digits = m ∧ m < 0x10000000000000000 := by
  induction digits generalizing n with
  | nil =>
    simp only [readWordDigits, Except.ok.injEq, digitsFrom, List.foldl_nil]
    grind
  | cons c digits ih =>
    have hle := le_digitsFrom (10 * n + (c.toNat - '0'.toNat)) digits
    have hcons : digitsFrom n (c :: digits) = digitsFrom (10 * n + (c.toNat - '0'.toNat)) digits :=
      rfl
    rw [readWordDigits, hcons, List.forall_mem_cons]
    dsimp only
    split
    · next hc =>
      split
      · next hnext => rw [ih hnext]; grind
      · next hnext =>
        refine iff_of_false (fun h => nomatch h) ?_
        rintro ⟨-, rfl, hm⟩
        omega
    · next hc => exact iff_of_false (fun h => nomatch h) fun h => hc h.1.1

theorem map_readWordDigits_eq_ok_iff {digits : List Char} {w : UInt64} :
    (readWordDigits 0 digits).map UInt64.ofNat = .ok w ↔
      (∀ c ∈ digits, c.isDigit) ∧ natOfDigits digits = w.toNat := by
  constructor
  · intro h
    cases hread : readWordDigits 0 digits with
    | error refusal => rw [hread] at h; cases h
    | ok m =>
      obtain ⟨hdigits, hm, hlt⟩ := (readWordDigits_eq_ok_iff (by decide)).1 hread
      rw [hread] at h
      cases h
      exact ⟨hdigits, hm.trans (UInt64.toNat_ofNat_of_lt' hlt).symm⟩
  · rintro ⟨hdigits, hw⟩
    have hread : readWordDigits 0 digits = .ok w.toNat :=
      (readWordDigits_eq_ok_iff (by decide)).2 ⟨hdigits, hw, w.toNat_lt⟩
    rw [hread]
    exact congrArg Except.ok (UInt64.ofNat_toNat)

theorem not_digits_plus (rest : List Char) : ¬ Digits ('+' :: rest) :=
  fun h => absurd (h.2 '+' List.mem_cons_self) (by decide)

/-- The words are read from the texts that spell them. -/
theorem readWord_eq_ok_iff {text : String} {w : UInt64} :
    readWord text = .ok w ↔ SpellsWord text w := by
  have hread (digits : List Char) :
      (if digits.isEmpty then .error .empty else (readWordDigits 0 digits).map UInt64.ofNat :
        Except WordRefusal UInt64) = .ok w ↔ Digits digits ∧ natOfDigits digits = w.toNat := by
    cases digits with
    | nil => simp [Digits]
    | cons c digits =>
      rw [List.isEmpty_cons, if_neg Bool.false_ne_true, map_readWordDigits_eq_ok_iff]
      simp [Digits]
  rw [readWord, SpellsWord]
  split
  · next rest htext =>
    rw [hread, htext]
    constructor
    · rintro ⟨hdigits, hw⟩
      split at hdigits
      · exact absurd hdigits (not_digits_plus [])
      · next hne => exact ⟨rest, .inr rfl, hdigits, by rwa [if_neg hne] at hw⟩
    · rintro ⟨digits, rfl | hplus, hdigits, hw⟩
      · exact absurd hdigits (not_digits_plus rest)
      · obtain rfl := (List.cons.inj hplus).2
        rw [if_neg (by simpa using hdigits.1)]
        exact ⟨hdigits, hw⟩
  · next hplus =>
    rw [hread]
    constructor
    · exact fun h => ⟨_, .inl rfl, h⟩
    · rintro ⟨digits, rfl | htext, h⟩
      · exact h
      · exact absurd htext (hplus digits)

/-! ## Numbers -/

/-- An exponent: nothing, or an `e` of either case with digits and a sign allowed before them. -/
inductive SpellsExponent : List Char → Int → Prop
  | none : SpellsExponent [] 0
  | mark {mark : Char} {sign digits : List Char} {negative : Bool} :
    mark = 'e' ∨ mark = 'E' → (sign, negative) ∈ signs → Digits digits →
    SpellsExponent (mark :: (sign ++ digits))
      (if negative then -(natOfDigits digits : Int) else natOfDigits digits)

/-- A numeral: digits with a point allowed among them, before them or behind them, and an
exponent. -/
inductive SpellsNumeral : List Char → Numeral → Prop
  | whole {digits tail : List Char} {exponent : Int} :
    Digits digits → SpellsExponent tail exponent →
    SpellsNumeral (digits ++ tail) ⟨natOfDigits digits, exponent⟩
  | point {whole fraction tail : List Char} {exponent : Int} :
    Digits (whole ++ fraction) → SpellsExponent tail exponent →
    SpellsNumeral (whole ++ '.' :: (fraction ++ tail))
      ⟨natOfDigits (whole ++ fraction), exponent - fraction.length⟩

/-- A number without a sign: one of three names in any case, or a numeral. -/
inductive SpellsMagnitude (negative : Bool) : List Char → Double → Prop
  | infinity {letters : List Char} :
    letters.map Char.toLower ∈ ["inf".toList, "infinity".toList] →
    SpellsMagnitude negative letters (Double.infinity negative)
  | nan {letters : List Char} : letters.map Char.toLower = "nan".toList →
    SpellsMagnitude negative letters (Double.nan negative)
  | numeral {text : List Char} {n : Numeral} : SpellsNumeral text n →
    SpellsMagnitude negative text (n.toDouble negative)

/-- A text that spells a double: a number with a sign allowed before it. -/
def Spells (text : String) (x : Double) : Prop :=
  ∃ sign negative rest, text.toList = sign ++ rest ∧ (sign, negative) ∈ signs ∧
    SpellsMagnitude negative rest x

variable {negative : Bool} {text tail : List Char} {exponent : Int} {n : Numeral} {x : Double}

theorem SpellsExponent.noDigit (h : SpellsExponent tail exponent) : NoDigit tail := by
  cases h with
  | none => exact fun c hc => nomatch hc
  | mark hmark =>
    rintro c ⟨⟩
    rcases hmark with rfl | rfl <;> rfl

theorem SpellsExponent.noPoint {rest : List Char} (h : SpellsExponent tail exponent) :
    tail ≠ '.' :: rest := by
  rintro rfl
  cases h with
  | mark hmark => exact absurd hmark (by decide)

theorem unsigned_of_digits {digits : List Char} (h : Digits digits) : Unsigned digits := by
  intro c hc
  have hdigit := h.2 c (List.mem_of_mem_head? hc)
  constructor
  · rintro rfl
    exact absurd hdigit (by decide)
  · rintro rfl
    exact absurd hdigit (by decide)

theorem readExponent_eq_some_iff :
    readExponent tail = some exponent ↔ SpellsExponent tail exponent := by
  constructor
  · intro h
    cases tail with
    | nil =>
      cases h
      exact .none
    | cons mark rest =>
      obtain ⟨sign, hsign, hrest⟩ := exists_splitSign rest
      simp only [readExponent] at h
      split at h
      · next hread =>
        simp only [Bool.and_eq_true, Bool.or_eq_true, decide_eq_true_eq, Bool.not_eq_true',
          List.all_eq_true] at hread
        obtain ⟨⟨hmark, hne⟩, hall⟩ := hread
        have hspells := SpellsExponent.mark hmark hsign ⟨by simpa using hne, hall⟩
        rw [hrest, Option.some.inj h] at hspells
        exact hspells
      · cases h
  · rintro (_ | ⟨hmark, hsign, hdigits⟩)
    · rfl
    · have hne := hdigits.1
      have hall := hdigits.2
      simpa [readExponent, splitSign_eq hsign (unsigned_of_digits hdigits), hmark, hne] using hall

theorem forall_mem_takeWhile (text : List Char) :
    ∀ c ∈ text.takeWhile Char.isDigit, c.isDigit :=
  fun _ hc => List.mem_takeWhile_imp hc

theorem readNumeral_eq_some_iff :
    readNumeral text = some n ↔ SpellsNumeral text n := by
  constructor
  · intro h
    have htext := List.takeWhile_append_dropWhile (p := Char.isDigit) (l := text)
    have hwhole := forall_mem_takeWhile text
    simp only [readNumeral] at h
    split at h
    · next after hrest =>
      dsimp only at h
      split at h
      · cases h
      · next hne =>
        obtain ⟨exponent, hexponent, rfl⟩ := Option.map_eq_some_iff.1 h
        have hdigits : Digits (text.takeWhile Char.isDigit ++ after.takeWhile Char.isDigit) :=
          ⟨by simpa using hne, List.forall_mem_append.2 ⟨hwhole, forall_mem_takeWhile after⟩⟩
        have hspells := SpellsNumeral.point hdigits (readExponent_eq_some_iff.1 hexponent)
        rwa [List.takeWhile_append_dropWhile, ← hrest, htext] at hspells
    · dsimp only at h
      split at h
      · cases h
      · next hne =>
        obtain ⟨exponent, hexponent, rfl⟩ := Option.map_eq_some_iff.1 h
        have hspells := SpellsNumeral.whole ⟨by simpa using hne, hwhole⟩
          (readExponent_eq_some_iff.1 hexponent)
        simpa [htext] using hspells
  · intro h
    cases h with
    | @whole digits tail exponent hdigits htail =>
      have htake := takeWhile_isDigit hdigits.2 htail.noDigit
      have hdrop := dropWhile_isDigit hdigits.2 htail.noDigit
      simp only [readNumeral, htake, hdrop]
      split
      · exact absurd rfl htail.noPoint
      · simp [hdigits.1, readExponent_eq_some_iff.2 htail]
    | @point whole fraction tail exponent hdigits htail =>
      obtain ⟨hwhole, hfraction⟩ := List.forall_mem_append.1 hdigits.2
      have hpoint : NoDigit ('.' :: (fraction ++ tail)) := by
        rintro c ⟨⟩
        rfl
      have hne : ¬ (whole = [] ∧ fraction = []) := by simpa using hdigits.1
      simp [readNumeral, takeWhile_isDigit hwhole hpoint, dropWhile_isDigit hwhole hpoint,
        takeWhile_isDigit hfraction htail.noDigit, dropWhile_isDigit hfraction htail.noDigit, hne,
        readExponent_eq_some_iff.2 htail]

theorem SpellsNumeral.head (h : SpellsNumeral text n) :
    ∃ c rest, text = c :: rest ∧ (c.isDigit ∨ c = '.') := by
  cases h with
  | @whole digits tail exponent hdigits htail =>
    obtain ⟨c, digits, rfl⟩ := List.exists_cons_of_ne_nil hdigits.1
    exact ⟨c, _, rfl, .inl (hdigits.2 c List.mem_cons_self)⟩
  | @point whole fraction tail exponent hdigits htail =>
    cases whole with
    | nil => exact ⟨'.', _, rfl, .inr rfl⟩
    | cons c whole => exact ⟨c, _, rfl, .inl (hdigits.2 c List.mem_cons_self)⟩

theorem toLower_of_isDigit {c : Char} (h : c.isDigit) : c.toLower = c := by
  refine dif_neg ?_
  rintro ⟨hupper, -⟩
  simp only [Char.isDigit, Bool.and_eq_true, decide_eq_true_eq] at h
  exact absurd (UInt32.le_trans hupper h.2) (by decide)

/-- No name starts like a numeral. -/
theorem SpellsNumeral.ne_name (h : SpellsNumeral text n) :
    text.map Char.toLower ∉ ["inf".toList, "infinity".toList, "nan".toList] := by
  obtain ⟨c, rest, rfl, hc⟩ := h.head
  have hletter : c.toLower ≠ 'i' ∧ c.toLower ≠ 'n' := by
    rcases hc with hdigit | rfl
    · rw [toLower_of_isDigit hdigit]
      constructor
      · rintro rfl
        cases hdigit
      · rintro rfl
        cases hdigit
    · decide
  simp [hletter]

theorem readMagnitude_eq_some_iff :
    readMagnitude negative text = some x ↔ SpellsMagnitude negative text x := by
  have hname (name : String) : String.ofList (text.map Char.toLower) = name ↔
      text.map Char.toLower = name.toList := by
    rw [← String.toList_inj, String.toList_ofList]
  simp only [readMagnitude, hname, Bool.or_eq_true, decide_eq_true_eq]
  constructor
  · intro h
    split at h
    · next hinfinity =>
      cases h
      exact .infinity (by simpa using hinfinity)
    · split at h
      · next hnan =>
        cases h
        exact .nan hnan
      · obtain ⟨n, hn, rfl⟩ := Option.map_eq_some_iff.1 h
        exact .numeral (readNumeral_eq_some_iff.1 hn)
  · rintro (hinfinity | hnan | hn)
    · rw [if_pos (by simpa using hinfinity)]
    · rw [hnan]
      rfl
    · have hne := hn.ne_name
      simp only [List.mem_cons, List.not_mem_nil, or_false, not_or] at hne
      rw [if_neg (not_or.2 ⟨hne.1, hne.2.1⟩), if_neg hne.2.2, readNumeral_eq_some_iff.2 hn]
      rfl

/-- Neither a name nor a numeral starts with a sign. -/
theorem SpellsMagnitude.unsigned (h : SpellsMagnitude negative text x) : Unsigned text := by
  intro c hc
  have hsign : ¬ (c = '+' ∨ c = '-') := by
    intro hsign
    obtain ⟨rest, rfl⟩ := List.head?_eq_some_iff.1 hc
    rcases h with hname | hname | hn
    · rcases hsign with rfl | rfl <;> simp at hname
    · rcases hsign with rfl | rfl <;> simp at hname
    · obtain ⟨c, rest, h, hc⟩ := hn.head
      cases h
      rcases hsign with rfl | rfl <;> exact absurd hc (by decide)
  exact not_or.1 hsign

/-- The doubles are read from the texts that spell them. -/
theorem read_eq_ok_iff_spells {text : String} :
    read text = .ok x ↔ Spells text x := by
  rw [read_eq_ok_iff, readMagnitude_eq_some_iff]
  constructor
  · intro h
    obtain ⟨sign, hsign, htext⟩ := exists_splitSign text.toList
    exact ⟨sign, _, _, htext.symm, hsign, h⟩
  · rintro ⟨sign, negative, rest, htext, hsign, h⟩
    rw [htext, splitSign_eq hsign h.unsigned]
    exact h

end Tableflow.Decimal
