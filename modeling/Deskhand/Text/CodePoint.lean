/-!
# Characters by number

Texts may write a character as its number in hexadecimal digits, behind a backslash and a letter
that says how many digits there are.
-/

namespace Deskhand.Text

/-- How many hexadecimal digits follow a backslash and this letter. -/
def escapeWidth? : Char → Option Nat
  | 'x' => some 2
  | 'u' => some 4
  | 'U' => some 8
  | _ => none

/-- The character of a number; halves of surrogate pairs are none. -/
def charOf? (n : Nat) : Option Char := if n.isValidChar then some (Char.ofNat n) else none

end Deskhand.Text
