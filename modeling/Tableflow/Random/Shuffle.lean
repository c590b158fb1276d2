/-!
# Shuffling

Fisher and Yates' shuffle from the end, over any source of 32-bit words. A number below a bound is
drawn by multiplying a word with the bound and keeping the high half; words whose low half lies
beyond the last whole multiple are refused, so that every number is equally likely. A bound beyond
32 bits is drawn with words of 64 bits, each made of two of the source.

The rule refuses as many words as it takes (`Drawn`), and a source that yields none to accept would
keep it going forever. Here a draw is cut off after `patience` refusals, which changes nothing
unless more words than that are refused in a row (`draw_eq_of_drawn`). Whatever words the source
yields, a drawn number is below its bound (`drawBelow_lt`) and the shuffled items are a permutation
of the given ones (`shuffle_perm`).
-/

namespace Tableflow.Random

variable {σ : Type u} {α : Type v} {width : Nat}

/-! ## Draws -/

/-- The number below `bound` that a word stands for, the high half of their product. -/
def scale (bound : Nat) (word : BitVec width) : Nat := (word.toNat * bound) >>> width

/-- Whether a word is accepted when a number below `bound` is drawn, told by the low half of their
product. -/
def accepts (bound : Nat) (word : BitVec width) : Bool :=
  let low := BitVec.ofNat width (word.toNat * bound)
  low.toNat ≤ bound <<< (width - 1 - bound.log2) - 1

theorem scale_lt {bound : Nat} (h : 0 < bound) (word : BitVec width) :
    scale bound word < bound := by
  rw [scale, Nat.shiftRight_eq_div_pow]
  exact Nat.div_lt_of_lt_mul (Nat.mul_lt_mul_of_pos_right word.isLt h)

/-- What is drawn below a bound from a state on, and the number of the words refused before. -/
inductive Drawn (next : σ → BitVec width × σ) (bound : Nat) : Nat → σ → Nat × σ → Prop
  | accepted {s : σ} (h : accepts bound (next s).1) :
    Drawn next bound 0 s (scale bound (next s).1, (next s).2)
  | refused {refusals : Nat} {s : σ} {drawn : Nat × σ} (h : ¬ accepts bound (next s).1)
    (later : Drawn next bound refusals (next s).2 drawn) : Drawn next bound (refusals + 1) s drawn

/-- Draws a number below a bound, but takes the next word as it is after `patience` refusals. -/
def draw (next : σ → BitVec width × σ) (bound : Nat) : (patience : Nat) → σ → Nat × σ
  | 0, s =>
    let (word, s) := next s
    (scale bound word, s)
  | patience + 1, s =>
    let (word, rest) := next s
    if accepts bound word then (scale bound word, rest) else draw next bound patience rest

/-- A draw is not cut off if no more words are refused than it has patience for. -/
theorem draw_eq_of_drawn {next : σ → BitVec width × σ} {bound refusals patience : Nat} {s : σ}
    {drawn : Nat × σ} (h : Drawn next bound refusals s drawn) (hpatience : refusals ≤ patience) :
    draw next bound patience s = drawn := by
  induction h generalizing patience with
  | accepted haccepts =>
    cases patience with
    | zero => rfl
    | succ patience => exact if_pos haccepts
  | refused hrefused _ ih =>
    obtain ⟨patience, rfl⟩ := Nat.exists_eq_succ_of_ne_zero (Nat.ne_zero_of_lt hpatience)
    exact (if_neg hrefused).trans (ih (Nat.le_of_succ_le_succ hpatience))

theorem draw_lt (next : σ → BitVec width × σ) {bound : Nat} (h : 0 < bound) (patience : Nat)
    (s : σ) : (draw next bound patience s).1 < bound := by
  induction patience generalizing s with
  | zero => exact scale_lt h _
  | succ patience ih =>
    simp only [draw]
    split
    · exact scale_lt h _
    · exact ih _

/-! ## Words of a source -/

/-- The next word of 32 bits. -/
def narrow (next : σ → UInt32 × σ) (s : σ) : BitVec 32 × σ :=
  let (word, s) := next s
  (word.toBitVec, s)

/-- The next word of 64 bits, of which the low half comes first. -/
def wide (next : σ → UInt32 × σ) (s : σ) : BitVec 64 × σ :=
  let (low, s) := next s
  let (high, s) := next s
  (high.toBitVec ++ low.toBitVec, s)

/-- Draws a number below a bound with words that the bound fits in. -/
def drawBelow (next : σ → UInt32 × σ) (bound patience : Nat) (s : σ) : Nat × σ :=
  if bound ≤ 0xffffffff then draw (narrow next) bound patience s
  else draw (wide next) bound patience s

theorem drawBelow_lt (next : σ → UInt32 × σ) {bound : Nat} (h : 0 < bound) (patience : Nat)
    (s : σ) : (drawBelow next bound patience s).1 < bound := by
  unfold drawBelow
  split
  · exact draw_lt _ h patience s
  · exact draw_lt _ h patience s

/-- After how many refusals in a row a draw is cut off. A word is refused with a chance of at most
one half, so it does not come to that in practice. -/
def patience : Nat := 1024

/-! ## The shuffle -/

/-- Exchanges the items from place `i` down to place one, each with one at or before it. -/
def shuffleFrom (next : σ → UInt32 × σ) : (i : Nat) → Array α → σ → Array α
  | 0, items, _ => items
  | i + 1, items, s =>
    let (j, s) := drawBelow next (i + 2) patience s
    shuffleFrom next i (items.swapIfInBounds (i + 1) j) s

/-- The items in a random order. -/
def shuffle (next : σ → UInt32 × σ) (s : σ) (items : Array α) : Array α :=
  shuffleFrom next (items.size - 1) items s

theorem swapIfInBounds_perm (items : Array α) (i j : Nat) :
    (items.swapIfInBounds i j).Perm items := by
  unfold Array.swapIfInBounds
  split
  · split
    · exact Array.swap_perm ..
    · exact .rfl
  · exact .rfl

theorem shuffleFrom_perm (next : σ → UInt32 × σ) (i : Nat) (items : Array α) (s : σ) :
    (shuffleFrom next i items s).Perm items := by
  induction i generalizing items s with
  | zero => exact .rfl
  | succ i ih => exact (ih ..).trans (swapIfInBounds_perm ..)

theorem shuffle_perm (next : σ → UInt32 × σ) (s : σ) (items : Array α) :
    (shuffle next s items).Perm items :=
  shuffleFrom_perm ..

end Tableflow.Random
