/-!
# Classes of characters

A class of characters is stored as the sorted list of code points at which membership changes,
starting outside: `#[a, b, c, d]` is the class of the code points in `[a, b)` and `[c, d)`.
-/

namespace Deskhand.Text

/-- Membership in the class with the given bounds: an odd number of them lies at or below `n`. -/
def inBounds (bounds : Array Nat) (n : Nat) : Bool :=
  (bounds.foldl (fun inside b => if b ≤ n then !inside else inside) false)

end Deskhand.Text
