import Deskhand.Text.CodePoint
import Deskhand.Text.Lines
import Deskhand.Yaml.Basic

/-!
# Reading YAML

One document of block mappings and lists, told apart by their indentation, and of flow mappings and
lists, which are enclosed in brackets. Scalars are plain or quoted and stay on one line; names in
mappings are scalars. Comments and blank lines mean nothing. The rest of YAML, such as anchors,
tags and block scalars, is refused.

A reader takes the characters from where it stands and returns those that are left. Block readers
begin at the first character of a node and end at the start of a line.
-/

namespace Deskhand.Yaml

/-! ## Lines -/

/-- Blanks inside a line. -/
def isGap (c : Char) : Bool := c == ' ' || c == '\t'

/-- Whether a blank or the end of a line comes next. -/
def startsWithGap : List Char → Bool
  | [] => true
  | c :: _ => isGap c || c == '\n'

def dropGaps (cs : List Char) : List Char := cs.dropWhile isGap

/-- The characters after the end of the line. -/
def dropLine (cs : List Char) : List Char := (cs.dropWhile (· ≠ '\n')).drop 1

/-- The next line, if this one holds nothing more but a comment. -/
def endLine? (cs : List Char) : Option (List Char) :=
  match dropGaps cs with
  | [] => some []
  | '\n' :: rest => some rest
  | '#' :: rest => some (dropLine rest)
  | _ => none

/-- The column of the first character of a line, and the characters from there. -/
def indentation (cs : List Char) : Nat × List Char :=
  ((cs.takeWhile (· == ' ')).length, cs.dropWhile (· == ' '))

/-- The characters from the next token inside brackets, behind blanks, line ends and comments. -/
def dropFlowGaps (inComment : Bool) : List Char → List Char
  | [] => []
  | c :: rest =>
    if inComment then dropFlowGaps (c ≠ '\n') rest
    else if isGap c || c == '\n' then dropFlowGaps false rest
    else if c == '#' then dropFlowGaps true rest
    else c :: rest

/-! ## Scalars -/

/-- The characters that have a meaning inside brackets. -/
def isFlowMark (c : Char) : Bool := c ∈ [',', '[', ']', '\x7b', '\x7d']

/-- Whether a plain scalar can begin here. -/
def startsPlain : List Char → Bool
  | [] => false
  | c :: rest =>
    if c == '-' || c == '?' || c == ':' then !startsWithGap rest
    else !(isGap c || c == '\n' || isFlowMark c ||
      c ∈ ['#', '&', '*', '!', '|', '>', '"', '%', '@', '\x27', '\x60'])

/-- Whether a plain scalar ends before a character: at the end of the line, a colon, a comment, and
inside brackets at a character with a meaning there. -/
def endsPlain (flow : Bool) (c : Char) (rest : List Char) : Bool :=
  c == '\n' || (c == ':' && (startsWithGap rest || (flow && rest.head?.any isFlowMark))) ||
    (isGap c && rest.head? == some '#') || (flow && isFlowMark c)

/-- The characters of a plain scalar, and what follows them. -/
def plainChars (flow : Bool) : List Char → List Char × List Char
  | [] => ([], [])
  | c :: rest =>
    if endsPlain flow c rest then ([], c :: rest)
    else
      let (text, after) := plainChars flow rest
      (c :: text, after)

/-- A plain scalar; blanks at its end do not count. -/
def plain? (flow : Bool) (cs : List Char) : Option (String × List Char) :=
  if startsPlain cs then
    let (text, rest) := plainChars flow cs
    some (String.ofList (text.reverse.dropWhile isGap).reverse, rest)
  else none

/-- The rest of a text in single quotes, in which a quote is written twice. -/
def singleQuoted? : List Char → Option (List Char × List Char)
  | '\'' :: '\'' :: rest => (singleQuoted? rest).map fun (text, after) => ('\'' :: text, after)
  | '\'' :: rest => some ([], rest)
  | c :: rest =>
    if c == '\n' then none
    else (singleQuoted? rest).map fun (text, after) => (c :: text, after)
  | [] => none

/-- The character that a backslash and this letter stand for. -/
def escape? : Char → Option Char
  | '0' => some '\x00'
  | 'a' => some '\x07'
  | 'b' => some '\x08'
  | 't' => some '\t'
  | '\t' => some '\t'
  | 'n' => some '\n'
  | 'v' => some '\x0b'
  | 'f' => some '\x0c'
  | 'r' => some '\r'
  | 'e' => some '\x1b'
  | ' ' => some ' '
  | '"' => some '"'
  | '/' => some '/'
  | '\\' => some '\\'
  | 'N' => some '\u0085'
  | '_' => some '\u00a0'
  | 'L' => some '\u2028'
  | 'P' => some '\u2029'
  | _ => none

/-- The rest of a text in double quotes, in which a backslash escapes. The fuel bounds the number of
characters. -/
def doubleQuoted? : Nat → List Char → Option (List Char × List Char)
  | 0, _ => none
  | _, [] => none
  | fuel + 1, c :: rest =>
    let continueWith (c : Char) (rest : List Char) : Option (List Char × List Char) :=
      (doubleQuoted? fuel rest).map fun (text, after) => (c :: text, after)
    match c, rest with
    | '"', _ => some ([], rest)
    | '\n', _ => none
    | '\\', e :: rest =>
      match Text.escapeWidth? e with
      | some width =>
        if rest.length < width then none
        else
          match (digitsIn? 16 (rest.take width)).bind Text.charOf? with
          | some c => continueWith c (rest.drop width)
          | none => none
      | none =>
        match escape? e with
        | some c => continueWith c rest
        | none => none
    | '\\', [] => none
    | c, rest => continueWith c rest

/-- A text in quotes. -/
def quoted? : List Char → Option (String × List Char)
  | '\'' :: rest => (singleQuoted? rest).map fun (text, after) => (String.ofList text, after)
  | '"' :: rest =>
    (doubleQuoted? (rest.length + 1) rest).map fun (text, after) => (String.ofList text, after)
  | _ => none

/-- A scalar. -/
def scalar? (flow : Bool) (cs : List Char) : Option (Node × List Char) :=
  match quoted? cs with
  | some (text, rest) => some (.scalar text false, rest)
  | none => (plain? flow cs).map fun (text, rest) => (.scalar text true, rest)

/-! ## Brackets -/

mutual

/-- A node inside brackets, or one that opens them. -/
def flow? : Nat → List Char → Option (Node × List Char)
  | 0, _ => none
  | fuel + 1, cs =>
    match cs with
    | '[' :: rest => (flowItems? fuel rest).map fun (items, after) => (.list items, after)
    | '\x7b' :: rest =>
      (flowEntries? fuel rest).map fun (entries, after) => (.mapping entries, after)
    | _ => scalar? true cs

/-- The items of a list up to its end; a comma may follow the last one. -/
def flowItems? : Nat → List Char → Option (List Node × List Char)
  | 0, _ => none
  | fuel + 1, cs =>
    match dropFlowGaps false cs with
    | ']' :: rest => some ([], rest)
    | cs =>
      match flow? fuel cs with
      | none => none
      | some (item, after) =>
        match dropFlowGaps false after with
        | ']' :: rest => some ([item], rest)
        | ',' :: rest => (flowItems? fuel rest).map fun (items, after) => (item :: items, after)
        | _ => none

/-- The entries of a mapping up to its end; a comma may follow the last one. -/
def flowEntries? : Nat → List Char → Option (List (String × Node) × List Char)
  | 0, _ => none
  | fuel + 1, cs =>
    match dropFlowGaps false cs with
    | '\x7d' :: rest => some ([], rest)
    | cs =>
      match scalar? true cs with
      | some (.scalar name plain, after) =>
        match flowValue? fuel plain (dropFlowGaps false after) with
        | none => none
        | some (value, after) =>
          match dropFlowGaps false after with
          | '\x7d' :: rest => some ([(name, value)], rest)
          | ',' :: rest =>
            (flowEntries? fuel rest).map fun (entries, after) => ((name, value) :: entries, after)
          | _ => none
      | _ => none

/-- What follows a name inside brackets: a colon and a node, either of which may be absent. The
colon after a plain name is followed by a blank. -/
def flowValue? : Nat → Bool → List Char → Option (Node × List Char)
  | 0, _, _ => none
  | fuel + 1, plain, cs =>
    match cs with
    | ':' :: rest =>
      if plain && !startsWithGap rest then none
      else
        match dropFlowGaps false rest with
        | ',' :: more => some (.absent, ',' :: more)
        | '\x7d' :: more => some (.absent, '\x7d' :: more)
        | more => flow? fuel more
    | _ => some (.absent, cs)

end

/-! ## Blocks -/

/-- Whether an item of a block list begins here. -/
def startsItem : List Char → Bool
  | '-' :: rest => startsWithGap rest
  | _ => false

/-- The name of an entry of a block mapping and what follows its colon. -/
def entryName? (cs : List Char) : Option (String × List Char) :=
  match (quoted? cs).or (plain? false cs) with
  | none => none
  | some (name, after) =>
    match dropGaps after with
    | ':' :: rest => if startsWithGap rest then some (name, rest) else none
    | _ => none

/-- A node that begins inside a line, and the line after it. -/
def inline? (fuel : Nat) (cs : List Char) : Option (Node × List Char) :=
  let node := match cs with
    | '[' :: _ => flow? fuel cs
    | '\x7b' :: _ => flow? fuel cs
    | _ => scalar? false cs
  node.bind fun (node, after) => (endLine? after).map fun rest => (node, rest)

mutual

/-- A node whose first character is in the given column. -/
def block? : Nat → Nat → List Char → Option (Node × List Char)
  | 0, _, _ => none
  | fuel + 1, column, cs =>
    if startsItem cs then (blockItems? fuel column cs).map fun (items, rest) => (.list items, rest)
    else if (entryName? cs).isSome then
      (blockEntries? fuel column cs).map fun (entries, rest) => (.mapping entries, rest)
    else inline? fuel cs

/-- The items of a list whose dashes are in the given column. -/
def blockItems? : Nat → Nat → List Char → Option (List Node × List Char)
  | 0, _, _ => none
  | fuel + 1, column, cs =>
    if !startsItem cs then none
    else
      let after := cs.drop 1
      let gaps := (after.takeWhile isGap).length
      let item := match endLine? after with
        | some rest => nested? fuel column false rest
        | none => block? fuel (column + 1 + gaps) (dropGaps after)
      item.bind fun (item, rest) =>
        let (next, more) := indentation rest
        if more = [] ∨ next < column then some ([item], rest)
        else if next = column then
          if startsItem more then
            (blockItems? fuel column more).map fun (items, rest) => (item :: items, rest)
          else some ([item], rest)
        else none

/-- The entries of a mapping whose names are in the given column. -/
def blockEntries? : Nat → Nat → List Char → Option (List (String × Node) × List Char)
  | 0, _, _ => none
  | fuel + 1, column, cs =>
    match entryName? cs with
    | none => none
    | some (name, after) =>
      let value := match endLine? after with
        | some rest => nested? fuel column true rest
        | none => inline? fuel (dropGaps after)
      value.bind fun (value, rest) =>
        let (next, more) := indentation rest
        if more = [] ∨ next < column then some ([(name, value)], rest)
        else if next = column then
          (blockEntries? fuel column more).map fun (entries, rest) =>
            ((name, value) :: entries, rest)
        else none

/-- The node on the lines below a dash or a name in the given column: one that is indented more, or
below a name also a list in the same column. Without one nothing is written. -/
def nested? : Nat → Nat → Bool → List Char → Option (Node × List Char)
  | 0, _, _, _ => none
  | fuel + 1, column, belowName, cs =>
    let (next, more) := indentation cs
    if more ≠ [] ∧ column < next then block? fuel next more
    else if more ≠ [] ∧ column = next ∧ belowName ∧ startsItem more then
      (blockItems? fuel next more).map fun (items, rest) => (.list items, rest)
    else some (.absent, cs)

end

/-! ## Documents -/

/-- Whether a line means nothing. -/
def isIdle (line : String) : Bool := line.toList.all isGap || Text.isCommentLine line

/-- The document in a text. Every reader but the one of its caller takes a character, so the fuel
is enough. -/
def read (text : String) : Option Node :=
  let lines := (Text.lines text).filter (!isIdle ·)
  let lines := match lines with
    | "---" :: rest => rest
    | lines => lines
  let cs := ("\n".intercalate lines).toList
  let (column, body) := indentation cs
  if body = [] then some .absent
  else
    match block? (4 * cs.length + 4) column body with
    | some (node, []) => some node
    | _ => none

end Deskhand.Yaml
