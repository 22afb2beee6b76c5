import Deskhand.Number.Binary64
import Deskhand.Random.Chacha

/-!
# Random draws

A generator is an endless sequence of words of 64 bits and the count of those already drawn. What
is drawn from a range lies in it, whatever the sequence is. A word that would make some results
likelier than others, or that rounds to the end of the range, is drawn again.
-/

namespace Deskhand

/-- The words still to be drawn. -/
structure Draws where
  words : Nat → UInt64
  drawn : Nat

namespace Draws

/-- The draws that belong to a seed. -/
def ofSeed (seed : Nat) : Draws :=
  let key := Chacha.key seed.toUInt64
  ⟨Chacha.word key, 0⟩

/-- The next word, and the generator after it. -/
def next (d : Draws) : UInt64 × Draws := (d.words d.drawn, { d with drawn := d.drawn + 1 })

/-- How often a word is drawn again at most. -/
def patience : Nat := 1000

/-- The number of words that share the results of a range evenly among them: the largest multiple
of its size by a power of two that fits 64 bits. -/
def fairShare (span : Nat) : Nat := span * Nat.pow 2 (63 - Nat.log2 span)

/-- A number below `span`, the high word of a product; its low word says whether it was fair. -/
def below (span : Nat) : Nat → Draws → Nat × Draws
  | 0, d => (0, d)
  | tries + 1, d =>
    let (word, d) := d.next
    let product := word.toNat * span
    if product % Word.count64 < fairShare span then (product / Word.count64, d)
    else below span tries d

/-- An integer from `lo` up to but not including `hi`, which must be larger than `lo`. -/
def nat (lo hi : Nat) (d : Draws) : Nat × Draws :=
  let (n, d) := d.below (hi - lo) patience
  (lo + n, d)

/-- How many fractions of one are drawn from: 2⁵². -/
def fractions : Nat := 4503599627370496

/-- A fraction of one that is below it. -/
def fraction (word : UInt64) : Binary64 := .ofInt (word >>> 12).toNat / .ofInt fractions

/-- A real number from `lo` up to but not including `hi`, given how far they are apart. -/
def realFrom (lo hi scale : Binary64) : Nat → Draws → Binary64 × Draws
  | 0, d => (lo, d)
  | tries + 1, d =>
    let (word, d) := d.next
    let x := fraction word * scale + lo
    if x.lt hi then (x, d) else realFrom lo hi scale tries d

/-- A real number from `lo` up to but not including `hi`, which must be larger than `lo`. -/
def real (lo hi : Binary64) (d : Draws) : Binary64 × Draws := d.realFrom lo hi (hi - lo) patience

end Draws

end Deskhand
