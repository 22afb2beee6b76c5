/-!
# White space

The characters with the Unicode property White_Space, and what is built on them: trimming a text
and cutting it into words.
-/

namespace Deskhand.Text

/-- The Unicode property White_Space. -/
def isBlank (c : Char) : Bool :=
  let n := c.toNat
  n == 0x20 || (0x09 ≤ n && n ≤ 0x0D) || n == 0x85 || n == 0xA0 || n == 0x1680 ||
  (0x2000 ≤ n && n ≤ 0x200A) || n == 0x2028 || n == 0x2029 || n == 0x202F || n == 0x205F ||
  n == 0x3000

/-- Characters without the blanks at their start. -/
def dropBlanks (cs : List Char) : List Char := cs.dropWhile isBlank

/-- Characters without the blanks at their end. -/
def dropEndBlanks (cs : List Char) : List Char := (cs.reverse.dropWhile isBlank).reverse

/-- Characters without the blanks at either end. -/
def trimChars (cs : List Char) : List Char := dropEndBlanks (dropBlanks cs)

/-- A text without the white space at either end. -/
def trim (s : String) : String := String.ofList (trimChars s.toList)

/-- A text without the white space at its start. -/
def trimStart (s : String) : String := String.ofList (dropBlanks s.toList)

/-- A text without the white space at its end. -/
def trimEnd (s : String) : String := String.ofList (dropEndBlanks s.toList)

/-- The maximal runs of characters that are not blank, given the run read so far in reverse. -/
def wordsFrom (run : List Char) : List Char → List (List Char)
  | [] => if run.isEmpty then [] else [run.reverse]
  | c :: rest =>
    if isBlank c then
      if run.isEmpty then wordsFrom [] rest else run.reverse :: wordsFrom [] rest
    else wordsFrom (c :: run) rest

/-- The words of a text: its maximal runs of characters that are not blank. -/
def words (s : String) : List String := (wordsFrom [] s.toList).map String.ofList

/-- Whether a text holds nothing but white space. -/
def isBlankText (s : String) : Bool := s.toList.all isBlank

end Deskhand.Text
