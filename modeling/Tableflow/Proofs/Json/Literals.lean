import Tableflow.Json.Tree

/-!
# Reading number literals back

A literal is written as its parts one after another (`Literal.chars`). If the parts are in order
(`Literal.WellFormed`), the literal is read back from any text that goes on with something else than
a number (`readLiteral_chars`).
-/

namespace Tableflow.Json

/-! ## Digits -/

/-- A run of at least one digit. -/
def Digits (digits : List Char) : Prop := digits ≠ [] ∧ ∀ c ∈ digits, c.isDigit

/-- A text that does not go on with a digit. -/
def NoDigit (text : List Char) : Prop := ∀ c ∈ text.head?, c.isDigit = false

theorem takeWhile_isDigit {digits rest : List Char} (hdigits : ∀ c ∈ digits, c.isDigit)
    (hrest : NoDigit rest) : (digits ++ rest).takeWhile Char.isDigit = digits := by
  rw [List.takeWhile_append_of_pos hdigits]
  cases rest with
  | nil => simp
  | cons c rest => rw [List.takeWhile_cons_of_neg (by simp [hrest c rfl]), List.append_nil]

theorem dropWhile_isDigit {digits rest : List Char} (hdigits : ∀ c ∈ digits, c.isDigit)
    (hrest : NoDigit rest) : (digits ++ rest).dropWhile Char.isDigit = rest := by
  rw [List.dropWhile_append_of_pos hdigits]
  cases rest with
  | nil => rfl
  | cons c rest => rw [List.dropWhile_cons_of_neg (by simp [hrest c rfl])]

theorem readDigits_append {digits rest : List Char} (hdigits : Digits digits)
    (hrest : NoDigit rest) : readDigits (digits ++ rest) = some (digits, rest) := by
  rw [readDigits, takeWhile_isDigit hdigits.2 hrest, dropWhile_isDigit hdigits.2 hrest,
    if_neg (by simpa using hdigits.1)]

/-- Digits without a leading zero, or a zero. -/
def Whole (digits : List Char) : Prop :=
  digits = ['0'] ∨ Digits digits ∧ digits.head? ≠ some '0'

theorem Whole.digits {digits : List Char} (h : Whole digits) : Digits digits := by
  rcases h with rfl | ⟨h, -⟩
  · exact ⟨by simp, by simp⟩
  · exact h

theorem readWhole_append {digits rest : List Char} (hdigits : Whole digits)
    (hrest : NoDigit rest) : readWhole (digits ++ rest) = some (digits, rest) := by
  rcases hdigits with rfl | ⟨⟨hne, hdigits⟩, hzero⟩
  · cases rest with
    | nil => rfl
    | cons c rest => simp [readWhole, hrest c rfl]
  · obtain ⟨c, more, rfl⟩ := List.exists_cons_of_ne_nil hne
    obtain ⟨hc, hmore⟩ := List.forall_mem_cons.1 hdigits
    have hzero : c ≠ '0' := by simpa using hzero
    simp [readWhole, hzero, hc, takeWhile_isDigit hmore hrest, dropWhile_isDigit hmore hrest]

/-! ## Literals -/

namespace Literal

/-- The point and the digits after it. -/
def fractionChars (n : Literal) : List Char :=
  match n.fraction with
  | [] => []
  | digits => '.' :: digits

/-- The exponent with its sign. -/
def exponentChars (n : Literal) : List Char :=
  match n.exponent with
  | none => []
  | some (negative, digits) => 'e' :: (if negative then '-' else '+') :: digits

/-- The literal as it is written. -/
def chars (n : Literal) : List Char :=
  (if n.negative then ['-'] else []) ++ (n.whole ++ (n.fractionChars ++ n.exponentChars))

/-- Every part of the literal is one. -/
structure WellFormed (n : Literal) : Prop where
  whole : Whole n.whole
  fraction : ∀ c ∈ n.fraction, c.isDigit
  exponent : ∀ negative digits, n.exponent = some (negative, digits) → Digits digits

end Literal

/-- A text that does not go on with a part of a number. -/
def Ended (text : List Char) : Prop :=
  ∀ c ∈ text.head?, c.isDigit = false ∧ c ≠ '.' ∧ c ≠ 'e' ∧ c ≠ 'E'

theorem Ended.noDigit {text : List Char} (h : Ended text) : NoDigit text := fun c hc => (h c hc).1

variable {n : Literal} {rest : List Char}

theorem readExponent_append (h : n.WellFormed) (hrest : Ended rest) :
    readExponent (n.exponentChars ++ rest) = some (n.exponent, rest) := by
  cases hexponent : n.exponent with
  | none =>
    rw [Literal.exponentChars, hexponent]
    cases rest with
    | nil => rfl
    | cons c rest =>
      obtain ⟨-, -, he, hE⟩ := hrest c rfl
      rw [List.nil_append, readExponent, if_neg (by simp [he, hE])]
  | some exponent =>
    obtain ⟨negative, digits⟩ := exponent
    rw [Literal.exponentChars, hexponent]
    have hdigits := readDigits_append (h.exponent _ _ hexponent) hrest.noDigit
    cases negative <;> simp [readExponent, Decimal.splitSign, hdigits]

/-- What follows the digits is no further digit and no point. -/
theorem head?_exponentChars_append (hrest : Ended rest) :
    ∀ c ∈ (n.exponentChars ++ rest).head?, c.isDigit = false ∧ c ≠ '.' := by
  rw [Literal.exponentChars]
  cases n.exponent with
  | none => exact fun c hc => ⟨(hrest c hc).1, (hrest c hc).2.1⟩
  | some exponent =>
    rintro c hc
    obtain rfl := Option.some.inj hc
    decide

theorem readFraction_append (h : n.WellFormed) (hrest : Ended rest) :
    readFraction (n.fractionChars ++ (n.exponentChars ++ rest)) =
      some (n.fraction, n.exponentChars ++ rest) := by
  have hhead := head?_exponentChars_append (n := n) hrest
  cases hfraction : n.fraction with
  | nil =>
    rw [Literal.fractionChars, hfraction, List.nil_append]
    cases hnext : n.exponentChars ++ rest with
    | nil => rfl
    | cons c more =>
      rw [hnext] at hhead
      rw [readFraction]
      rintro _ hpoint
      exact (hhead c rfl).2 (List.cons.inj hpoint).1
  | cons c digits =>
    rw [Literal.fractionChars, hfraction]
    have hdigits : Digits (c :: digits) := ⟨by simp, hfraction ▸ h.fraction⟩
    exact readDigits_append hdigits fun c hc => (hhead c hc).1

theorem noDigit_fractionChars_append (hrest : Ended rest) :
    NoDigit (n.fractionChars ++ (n.exponentChars ++ rest)) := by
  rw [Literal.fractionChars]
  cases n.fraction with
  | nil => exact fun c hc => (head?_exponentChars_append hrest c hc).1
  | cons d digits =>
    rintro c hc
    obtain rfl := Option.some.inj hc
    rfl

theorem Digits.append_ne_minus {digits : List Char} (h : Digits digits) (tail other : List Char) :
    digits ++ tail ≠ '-' :: other := by
  obtain ⟨c, more, rfl⟩ := List.exists_cons_of_ne_nil h.1
  intro heq
  obtain rfl := (List.cons.inj heq).1
  simpa using h.2 '-' List.mem_cons_self

/-- A literal is read back from a text that goes on with something else. -/
theorem readLiteral_chars (h : n.WellFormed) (hrest : Ended rest) :
    readLiteral (n.chars ++ rest) = some (n, rest) := by
  have hwhole := readWhole_append h.whole (noDigit_fractionChars_append (n := n) hrest)
  have hfraction := readFraction_append h hrest
  have hexponent := readExponent_append h hrest
  rw [Literal.chars, List.append_assoc, List.append_assoc, List.append_assoc]
  obtain ⟨negative, whole, fraction, exponent⟩ := n
  cases negative with
  | true => simp [readLiteral, hwhole, hfraction, hexponent]
  | false =>
    rw [if_neg Bool.false_ne_true, List.nil_append, readLiteral]
    · simp [hwhole, hfraction, hexponent]
    · exact fun _ => h.whole.digits.append_ne_minus _ _

end Tableflow.Json
