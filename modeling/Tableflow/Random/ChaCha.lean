/-!
# A stream of random words

The ChaCha stream cipher with six double rounds, run on a key that is spread out of a 64-bit seed,
with no nonce and with a 64-bit block counter. `Keystream.next` hands out its 32-bit words one by
one, a block of sixteen at a time.
-/

namespace Tableflow.Random

/-- The sixteen words on which the cipher works. -/
abbrev Block := Vector UInt32 16

/-- A word turned to the left by `k` bits, for `0 < k < 32`. -/
def rotateLeft (w k : UInt32) : UInt32 := w <<< k ||| w >>> (32 - k)

/-- A word turned to the right by `k` bits, for `k < 32`. -/
def rotateRight (w k : UInt32) : UInt32 := if k = 0 then w else w >>> k ||| w <<< (32 - k)

/-- Mixes four words of a block. -/
def quarterRound (x : Block) (a b c d : Fin 16) : Block :=
  let x := x.set a (x[a] + x[b])
  let x := x.set d (rotateLeft (x[d] ^^^ x[a]) 16)
  let x := x.set c (x[c] + x[d])
  let x := x.set b (rotateLeft (x[b] ^^^ x[c]) 12)
  let x := x.set a (x[a] + x[b])
  let x := x.set d (rotateLeft (x[d] ^^^ x[a]) 8)
  let x := x.set c (x[c] + x[d])
  x.set b (rotateLeft (x[b] ^^^ x[c]) 7)

/-- Mixes the columns of a block and then its diagonals. -/
def doubleRound (x : Block) : Block :=
  let x := quarterRound x 0 4 8 12
  let x := quarterRound x 1 5 9 13
  let x := quarterRound x 2 6 10 14
  let x := quarterRound x 3 7 11 15
  let x := quarterRound x 0 5 10 15
  let x := quarterRound x 1 6 11 12
  let x := quarterRound x 2 7 8 13
  quarterRound x 3 4 9 14

/-- The block that is mixed for a key and a counter. -/
def initialBlock (key : Vector UInt32 8) (counter : UInt64) : Block :=
  #v[0x61707865, 0x3320646e, 0x79622d32, 0x6b206574,
    key[0], key[1], key[2], key[3], key[4], key[5], key[6], key[7],
    counter.toUInt32, (counter >>> 32).toUInt32, 0, 0]

/-- The block of the stream with a given number. -/
def streamBlock (key : Vector UInt32 8) (counter : UInt64) : Block :=
  let start := initialBlock key counter
  Vector.zipWith (· + ·) (Nat.repeat doubleRound 6 start) start

/-! ## Keys -/

/-- The state of the generator that spreads a seed over a key. -/
def spreadState (s : UInt64) : UInt64 := s * 6364136223846793005 + 11634580027462260723

/-- The word that a state gives. -/
def spreadWord (s : UInt64) : UInt32 :=
  rotateRight ((s >>> 18 ^^^ s) >>> 27).toUInt32 (s >>> 59).toUInt32

/-- The key of a seed: its words come from the states after the seed. -/
def keyOfSeed (seed : UInt64) : Vector UInt32 8 :=
  Vector.ofFn fun i => spreadWord (Nat.repeat spreadState (i + 1) seed)

/-! ## The stream -/

/-- A place in the stream of a key: the words left of the last block, and the number of the next
block. -/
structure Keystream where
  key : Vector UInt32 8
  counter : UInt64
  pending : List UInt32

namespace Keystream

/-- The start of the stream of a seed. -/
def ofSeed (seed : UInt64) : Keystream := ⟨keyOfSeed seed, 0, []⟩

/-- The next word of a stream. -/
def next (s : Keystream) : UInt32 × Keystream :=
  match s.pending with
  | word :: rest => (word, { s with pending := rest })
  | [] =>
    let block := streamBlock s.key s.counter
    (block[0], ⟨s.key, s.counter + 1, block.toList.tail⟩)

end Keystream

end Tableflow.Random
