/-!
# A stream of random words

The stream cipher ChaCha with twelve rounds, run as a generator: a key and the number of a block
give sixteen words of 32 bits, and any two blocks look unrelated. The key comes from a seed by a
small congruential generator, so the stream is a function of the seed.
-/

namespace Deskhand.Chacha

/-- The sixteen words that a block is worked out from. -/
abbrev Block := Vector UInt32 16

/-- The word turned to the left by so many bits. -/
def rotateLeft (x n : UInt32) : UInt32 := (x <<< n) ||| (x >>> (32 - n))

/-- Stir the words at four places. -/
def quarterRound (a b c d : Fin 16) (s : Block) : Block :=
  let half (a b d : Fin 16) (turn : UInt32) (s : Block) : Block :=
    let s := s.set a (s[a] + s[b])
    s.set d (rotateLeft (s[d] ^^^ s[a]) turn)
  s |> half a b d 16 |> half c d b 12 |> half a b d 8 |> half c d b 7

/-- Stir the columns, then the diagonals. -/
def doubleRound (s : Block) : Block :=
  s |> quarterRound 0 4 8 12 |> quarterRound 1 5 9 13 |> quarterRound 2 6 10 14
    |> quarterRound 3 7 11 15 |> quarterRound 0 5 10 15 |> quarterRound 1 6 11 12
    |> quarterRound 2 7 8 13 |> quarterRound 3 4 9 14

/-- Half of the twelve rounds. -/
def doubleRounds : Nat := 6

/-- The words that every block starts with. -/
def constants : Vector UInt32 4 := #v[0x61707865, 0x3320646E, 0x79622D32, 0x6B206574]

/-- The words of a block before they are stirred: the constants, the key, the number of the block,
and an empty stream number. -/
def start (key : Vector UInt32 8) (block : UInt64) : Block :=
  constants ++ key ++ #v[block.toUInt32, (block >>> 32).toUInt32, 0, 0]

/-- A block of the stream. -/
def block (key : Vector UInt32 8) (number : UInt64) : Block :=
  let s := start key number
  s.zipWith (· + ·) (Nat.repeat doubleRound doubleRounds s)

/-! ## From a seed to a key -/

/-- The next state of the congruential generator. -/
def advance (state : UInt64) : UInt64 := state * 6364136223846793005 + 11634580027462260723

/-- The word that belongs to a state of the congruential generator. -/
def output (state : UInt64) : UInt32 :=
  let folded := (((state >>> 18) ^^^ state) >>> 27).toUInt32
  let turn := (state >>> 59).toUInt32
  (folded >>> turn) ||| (folded <<< ((32 - turn) % 32))

/-- The key that belongs to a seed. -/
def key (seed : UInt64) : Vector UInt32 8 :=
  Vector.ofFn fun i => output (Nat.repeat advance (i + 1) seed)

/-- A word of 64 bits of the stream: two words of a block, the lower one first. -/
def word (key : Vector UInt32 8) (index : Nat) : UInt64 :=
  let words := block key (index / 8).toUInt64
  let low := words[2 * (index % 8)]
  let high := words[2 * (index % 8) + 1]
  (high.toUInt64 <<< 32) ||| low.toUInt64

end Deskhand.Chacha
