/-!
# Words

The ranges of integers of fixed width.
-/

namespace Deskhand.Word

/-- How many words of 32 bits there are: 2³². -/
def count32 : Nat := 4294967296

/-- How many words of 64 bits there are: 2⁶⁴. -/
def count64 : Nat := 18446744073709551616

/-- The least integer of 64 bits with sign: -2⁶³. -/
def minInt : Int := -9223372036854775808

/-- The greatest integer of 64 bits with sign: 2⁶³ - 1. -/
def maxInt : Int := 9223372036854775807

end Deskhand.Word
