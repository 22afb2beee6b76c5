import Deskhand.Text.Blank
import Deskhand.Text.Search

/-!
# Lines

A line ends with a line feed, which a carriage return may precede. The end of the text also ends a
line, unless the line would be empty.
-/

namespace Deskhand.Text

/-- The lines of a text, without what ends them. -/
def lines (text : String) : List String :=
  let pieces := split "\n" text
  let withEnd := pieces.dropLast.map fun line =>
    if endsWith line "\r" then String.ofList line.toList.dropLast else line
  match pieces.getLast? with
  | some "" => withEnd
  | some last => withEnd ++ [last]
  | none => withEnd

/-- Whether the first character of a line that is not blank is a number sign. -/
def isCommentLine (line : String) : Bool := (dropBlanks line.toList).head? == some '#'

end Deskhand.Text
