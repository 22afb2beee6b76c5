/-!
# Searching in texts

Matches of a text inside another are taken from the left and do not overlap. An empty text matches
once between any two characters and at either end, so cutting at it yields every character alone
between two empty pieces.
-/

namespace Deskhand.Text

/-- The pieces between the matches of a non-empty separator, given the piece read so far in reverse
and the number of characters that the last match still covers. -/
def piecesFrom (sep : List Char) : List Char → Nat → List Char → List (List Char)
  | piece, _, [] => [piece.reverse]
  | piece, skip + 1, _ :: rest => piecesFrom sep piece skip rest
  | piece, 0, c :: rest =>
    if sep.isPrefixOf (c :: rest) then piece.reverse :: piecesFrom sep [] (sep.length - 1) rest
    else piecesFrom sep (c :: piece) 0 rest

/-- The pieces of a text between the matches of a separator. -/
def pieces (sep s : List Char) : List (List Char) :=
  if sep = [] then [] :: s.map (fun c => [c]) ++ [[]] else piecesFrom sep [] 0 s

/-- A text cut at every match of a separator. -/
def split (sep s : String) : List String := (pieces sep.toList s.toList).map String.ofList

/-- A text with every match of `pattern` replaced. -/
def replace (pattern replacement s : String) : String := replacement.intercalate (split pattern s)

/-- How many matches a pattern has. -/
def count (pattern s : String) : Nat := (pieces pattern.toList s.toList).length - 1

/-- The bytes of a text in UTF-8. -/
def bytes (cs : List Char) : List UInt8 := cs.flatMap String.utf8EncodeChar

/-- The number of items before the first match, if there is one. -/
def findFrom {α : Type} [BEq α] (pattern : List α) : Nat → List α → Option Nat
  | pos, [] => if pattern.isEmpty then some pos else none
  | pos, x :: rest =>
    if pattern.isPrefixOf (x :: rest) then some pos else findFrom pattern (pos + 1) rest

/-- The byte at which the first match begins. -/
def findByte? (pattern s : String) : Option Nat :=
  findFrom (bytes pattern.toList) 0 (bytes s.toList)

/-- How many characters begin before a byte. -/
def charactersBefore : Nat → List Char → Nat
  | _, [] => 0
  | 0, _ => 0
  | byte + 1, c :: rest => charactersBefore (byte + 1 - c.utf8Size) rest + 1

/-- The position of the first match. Texts are searched byte by byte, and positions count characters. -/
def find? (pattern s : String) : Option Nat :=
  (findByte? pattern s).map fun byte => charactersBefore byte s.toList

/-- Whether a text occurs in another. -/
def occursIn (pattern s : String) : Bool := (findByte? pattern s).isSome

/-- Whether a text begins with another. -/
def startsWith (s start : String) : Bool := start.toList.isPrefixOf s.toList

/-- Whether a text ends with another. -/
def endsWith (s tail : String) : Bool := tail.toList.isSuffixOf s.toList

/-- A text without its first characters up to a start that it must have. -/
def afterStart? (start s : String) : Option String :=
  if startsWith s start then some (String.ofList (s.toList.drop start.length)) else none

/-- A text without the given character at its start, however often it stands there. -/
def trimStartMatches (c : Char) (s : String) : String :=
  String.ofList (s.toList.dropWhile (· == c))

/-- A text without the given character at either end, however often it stands there. -/
def trimMatches (c : Char) (s : String) : String :=
  String.ofList ((s.toList.dropWhile (· == c)).reverse.dropWhile (· == c)).reverse

end Deskhand.Text
