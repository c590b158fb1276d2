/-!
# Doubles

A double-precision number held as its 64-bit word. Equality is equality of words, so the two
zeros differ and so do not-a-numbers of different sign; the hardware's arithmetic is reached
through `Double.toFloat` and is used only as a fixed function of its operands.

The file gives the classes of words (`isNaN`, `isFinite`, `isZero`), the total order of the
standard (`key`, `totalLE`), in which negative not-a-numbers come first and positive ones last,
and the five operations that the statistics need. `key_injective` says that the order tells any
two words apart, and `totalLE_antisymm` that it is one of words and not of numbers.
-/

namespace Tableflow

/-- A double-precision number, as the word that stores it. -/
structure Double where
  bits : UInt64
  deriving DecidableEq, Inhabited

namespace Double

/-! ## Classes of words -/

/-- The word of positive infinity: every larger magnitude is not a number. -/
def infinityBits : UInt64 := 0x7ff0000000000000

/-- The word without its sign bit. -/
def magnitude (x : Double) : Nat := x.bits.toNat % 0x8000000000000000

/-- Whether the sign bit is set. -/
def isNegative (x : Double) : Bool := 0x8000000000000000 ≤ x.bits.toNat

def isNaN (x : Double) : Bool := infinityBits.toNat < x.magnitude

def isFinite (x : Double) : Bool := x.magnitude < infinityBits.toNat

/-- Whether the number is a zero, of either sign. -/
def isZero (x : Double) : Bool := x.magnitude = 0

/-- The number of magnitude `w` with the given sign. -/
def ofMagnitude (negative : Bool) (w : UInt64) : Double :=
  ⟨if negative then w ||| 0x8000000000000000 else w⟩

def zero : Double := ⟨0⟩

def negZero : Double := ⟨0x8000000000000000⟩

def one : Double := ⟨0x3ff0000000000000⟩

def two : Double := ⟨0x4000000000000000⟩

def hundred : Double := ⟨0x4059000000000000⟩

def infinity (negative : Bool) : Double := ofMagnitude negative infinityBits

/-- The quiet not-a-number of the given sign. -/
def nan (negative : Bool) : Double := ofMagnitude negative 0x7ff8000000000000

/-- Whether the number lies strictly between zero and one. Words of positive numbers are ordered
like the numbers, and every negative number and every not-a-number has a larger word. -/
def isProperFraction (x : Double) : Bool := 0 < x.bits && x.bits < one.bits

/-! ## The total order -/

/-- The place of a word in the total order: magnitudes count upward from the positive zero and
downward from the negative one. -/
def key (x : Double) : Int :=
  if x.isNegative then -1 - (x.magnitude : Int) else x.magnitude

theorem key_injective {x y : Double} (h : x.key = y.key) : x = y := by
  obtain ⟨a⟩ := x
  obtain ⟨b⟩ := y
  have ha := a.toNat_lt
  have hb := b.toNat_lt
  have : a.toNat = b.toNat := by
    simp only [key, isNegative, magnitude, decide_eq_true_eq] at h
    split at h <;> split at h <;> omega
  exact congrArg _ (UInt64.toNat.inj this)

/-- Whether `x` stands at or before `y` in the total order. -/
def totalLE (x y : Double) : Bool := x.key ≤ y.key

theorem totalLE_total (x y : Double) : (x.totalLE y || y.totalLE x) = true := by
  simp only [totalLE, Bool.or_eq_true, decide_eq_true_eq]
  omega

theorem totalLE_trans {x y z : Double} (hxy : x.totalLE y = true) (hyz : y.totalLE z = true) :
    x.totalLE z = true := by
  simp only [totalLE, decide_eq_true_eq] at *
  omega

theorem totalLE_antisymm {x y : Double} (hxy : x.totalLE y = true) (hyx : y.totalLE x = true) :
    x = y := by
  simp only [totalLE, decide_eq_true_eq] at *
  exact key_injective (by omega)

/-! ## Arithmetic -/

def toFloat (x : Double) : Float := Float.ofBits x.bits

def ofFloat (x : Float) : Double := ⟨x.toBits⟩

instance : Add Double := ⟨fun x y => ofFloat (x.toFloat + y.toFloat)⟩

instance : Sub Double := ⟨fun x y => ofFloat (x.toFloat - y.toFloat)⟩

instance : Mul Double := ⟨fun x y => ofFloat (x.toFloat * y.toFloat)⟩

instance : Div Double := ⟨fun x y => ofFloat (x.toFloat / y.toFloat)⟩

def sqrt (x : Double) : Double := ofFloat x.toFloat.sqrt

/-- The sum of a list, added from the left onto a negative zero, which is the one number that
adding leaves every other number alone. -/
def sum (xs : List Double) : Double := xs.foldl (· + ·) negZero

end Double

end Tableflow
