import Deskhand.Expr.Tree
import Deskhand.Shorter

/-!
# From tokens to trees

A descent through the levels of the grammar. Every level reads at least one token; a loop behind a
level may read none. The byte that an error names is that of the token in front, or the length of
the source at its end.

    expression     ::= disjunction ("if" disjunction "else" expression)?
    disjunction    ::= conjunction ("or" conjunction)*
    conjunction    ::= negation ("and" negation)*
    negation       ::= "not" negation | comparison
    comparison     ::= sum (comparator sum)*
    comparator     ::= "==" | "!=" | "<" | "<=" | ">" | ">="
                     | "in" | "not" "in" | "is" | "is" "not"
    sum            ::= product (("+" | "-") product)*
    product        ::= signed (("*" | "/" | "//" | "%") signed)*
    signed         ::= ("-" | "+") signed | postfix
    postfix        ::= factor ("[" subscript "]" | "(" arguments ")" | "." name)*
    factor         ::= literal | name | "(" expression ")" | "[" items "]" | "\x7b" entries "\x7d"
-/

namespace Deskhand.Expr

/-- The byte of the token in front. -/
def offsetAt (finish : Nat) : List Located → Nat
  | [] => finish
  | t :: _ => t.offset

/-- An error at the token in front. -/
def faultAt {β : Type} (finish : Nat) (ts : List Located) (fault : SyntaxFault) :
    Except ExprError β :=
  .error (.syntaxFault (offsetAt finish ts) fault)

/-- What a level of the grammar reads from the front of the tokens. -/
abbrev Parsed (β : Type) (ts : List Located) : Type := Except ExprError (β × Shorter ts)

/-- What a loop reads from the front of the tokens, perhaps nothing. -/
abbrev Continued (β : Type) (ts : List Located) : Type := Except ExprError (β × NoLonger ts)

/-- One given token. -/
def expect (finish : Nat) (t : Token) (what : String) (ts : List Located) :
    Except ExprError (Shorter ts) :=
  match ts with
  | l :: rest =>
    if l.token = t then .ok ⟨rest, Nat.lt_succ_self _⟩
    else faultAt finish (l :: rest) (.expected what)
  | [] => faultAt finish [] (.expected what)

/-- The comparison in front, which may take two tokens. -/
def comparator? (ts : List Located) : Option (CompareOp × Shorter ts) :=
  match ts with
  | [] => none
  | l :: rest =>
    let one (op : CompareOp) : Option (CompareOp × Shorter (l :: rest)) :=
      some (op, ⟨rest, Nat.lt_succ_self _⟩)
    match l.token with
    | .equal => one .equal
    | .notEqual => one .notEqual
    | .less => one .less
    | .lessEqual => one .lessEqual
    | .greater => one .greater
    | .greaterEqual => one .greaterEqual
    | .isIn => one .isIn
    | .not =>
      match rest with
      | ⟨.isIn, _⟩ :: more => some (.notIn, ⟨more, by simp only [List.length_cons]; omega⟩)
      | _ => none
    | .isSame =>
      match rest with
      | ⟨.not, _⟩ :: more => some (.notSame, ⟨more, by simp only [List.length_cons]; omega⟩)
      | rest => some (.isSame, ⟨rest, Nat.lt_succ_self _⟩)
    | _ => none

/-- The operation of a sum that a token stands for. -/
def sumOp? : Token → Option BinaryOp
  | .add => some .add
  | .sub => some .sub
  | _ => none

/-- The operation of a product that a token stands for. -/
def productOp? : Token → Option BinaryOp
  | .mul => some .mul
  | .div => some .div
  | .floorDiv => some .floorDiv
  | .modulo => some .modulo
  | _ => none

/-- A minus in front of a number is part of the number. -/
def negated : Expr → Expr
  | .int n => .int (-n)
  | .real x => .real (-x)
  | e => .neg e

/-- The tree of a token that is one by itself. -/
def ofToken? : Token → Option Expr
  | .int n => some (.int n)
  | .real x => some (.real x)
  | .text s => some (.text s)
  | .yes => some (.bool true)
  | .no => some (.bool false)
  | .nothing => some .null
  | .name s => some (.name s)
  | _ => none

mutual

/-- An expression, at any level. -/
def expression (finish : Nat) (ts : List Located) : Parsed Expr ts := do
  let (body, t) ← disjunction finish ts
  match h : t.1 with
  | ⟨.name "if", _⟩ :: rest =>
    have : rest.length < ts.length := by have := t.2; rw [h] at this; simp at this; omega
    let (test, u) ← disjunction finish rest
    match hu : u.1 with
    | ⟨.name "else", _⟩ :: rest' =>
      have : rest'.length < rest.length := by have := u.2; rw [hu] at this; simp at this; omega
      let (orelse, v) ← expression finish rest'
      .ok (.conditional test body orelse, ⟨v.1, by have := v.2; omega⟩)
    | more => faultAt finish more.tail (.expected "'else'")
  | _ => .ok (body, t)
termination_by (ts.length, 10)

/-- Conjunctions joined by `or`. -/
def disjunction (finish : Nat) (ts : List Located) : Parsed Expr ts := do
  let (first, t) ← conjunction finish ts
  let (e, u) ← disjunctionRest finish first t.1
  .ok (e, t.andMaybe u)
termination_by (ts.length, 9)
decreasing_by
  · exact .right _ (by decide)
  · exact .left _ _ t.2

/-- Further conjunctions. -/
def disjunctionRest (finish : Nat) (left : Expr) (ts : List Located) : Continued Expr ts :=
  match ts with
  | ⟨.or, _⟩ :: rest => do
    let (right, t) ← conjunction finish rest
    let (e, u) ← disjunctionRest finish (.or left right) t.1
    .ok (e, Shorter.weaken (Shorter.afterHead (t.andMaybe u).weaken))
  | ts => .ok (left, .all ts)
termination_by (ts.length, 9)
decreasing_by
  · exact .left _ _ (Nat.lt_succ_self _)
  · exact .left _ _ (Nat.lt_succ_of_lt t.2)

/-- Negations joined by `and`. -/
def conjunction (finish : Nat) (ts : List Located) : Parsed Expr ts := do
  let (first, t) ← negation finish ts
  let (e, u) ← conjunctionRest finish first t.1
  .ok (e, t.andMaybe u)
termination_by (ts.length, 8)
decreasing_by
  · exact .right _ (by decide)
  · exact .left _ _ t.2

/-- Further negations. -/
def conjunctionRest (finish : Nat) (left : Expr) (ts : List Located) : Continued Expr ts :=
  match ts with
  | ⟨.and, _⟩ :: rest => do
    let (right, t) ← negation finish rest
    let (e, u) ← conjunctionRest finish (.and left right) t.1
    .ok (e, Shorter.weaken (Shorter.afterHead (t.andMaybe u).weaken))
  | ts => .ok (left, .all ts)
termination_by (ts.length, 8)
decreasing_by
  · exact .left _ _ (Nat.lt_succ_self _)
  · exact .left _ _ (Nat.lt_succ_of_lt t.2)

/-- A comparison with any number of `not` in front. -/
def negation (finish : Nat) (ts : List Located) : Parsed Expr ts :=
  match ts with
  | ⟨.not, _⟩ :: rest => do
    let (e, t) ← negation finish rest
    .ok (.not e, Shorter.afterHead t.weaken)
  | ts => comparison finish ts
termination_by (ts.length, 7)
decreasing_by
  · exact .left _ _ (Nat.lt_succ_self _)
  · exact .right _ (by decide)

/-- Sums joined by comparisons; a single one is itself. -/
def comparison (finish : Nat) (ts : List Located) : Parsed Expr ts := do
  let (first, t) ← sum finish ts
  let (links, u) ← chain finish t.1
  .ok (if links.isEmpty then first else .compare first links, t.andMaybe u)
termination_by (ts.length, 6)
decreasing_by
  · exact .right _ (by decide)
  · exact .left _ _ t.2

/-- Further comparisons. -/
def chain (finish : Nat) (ts : List Located) : Continued (List (CompareOp × Expr)) ts :=
  match comparator? ts with
  | some (op, t) => do
    let (e, u) ← sum finish t.1
    let (more, v) ← chain finish u.1
    .ok ((op, e) :: more, (t.andThen (u.andMaybe v)).weaken)
  | none => .ok ([], .all ts)
termination_by (ts.length, 6)
decreasing_by
  · exact .left _ _ t.2
  · exact .left _ _ (Nat.lt_trans u.2 t.2)

/-- Products joined by `+` and `-`. -/
def sum (finish : Nat) (ts : List Located) : Parsed Expr ts := do
  let (first, t) ← product finish ts
  let (e, u) ← sumRest finish first t.1
  .ok (e, t.andMaybe u)
termination_by (ts.length, 5)
decreasing_by
  · exact .right _ (by decide)
  · exact .left _ _ t.2

/-- Further products. -/
def sumRest (finish : Nat) (left : Expr) (ts : List Located) : Continued Expr ts :=
  match ts with
  | l :: rest =>
    match sumOp? l.token with
    | some op => do
      let (right, t) ← product finish rest
      let (e, u) ← sumRest finish (.binary left op right) t.1
      .ok (e, Shorter.weaken (Shorter.afterHead (t.andMaybe u).weaken))
    | none => .ok (left, .all _)
  | [] => .ok (left, .all [])
termination_by (ts.length, 5)
decreasing_by
  · exact .left _ _ (Nat.lt_succ_self _)
  · exact .left _ _ (Nat.lt_succ_of_lt t.2)

/-- Signed operands joined by `*`, `/`, `//` and `%`. -/
def product (finish : Nat) (ts : List Located) : Parsed Expr ts := do
  let (first, t) ← signed finish ts
  let (e, u) ← productRest finish first t.1
  .ok (e, t.andMaybe u)
termination_by (ts.length, 4)
decreasing_by
  · exact .right _ (by decide)
  · exact .left _ _ t.2

/-- Further signed operands. -/
def productRest (finish : Nat) (left : Expr) (ts : List Located) : Continued Expr ts :=
  match ts with
  | l :: rest =>
    match productOp? l.token with
    | some op => do
      let (right, t) ← signed finish rest
      let (e, u) ← productRest finish (.binary left op right) t.1
      .ok (e, Shorter.weaken (Shorter.afterHead (t.andMaybe u).weaken))
    | none => .ok (left, .all _)
  | [] => .ok (left, .all [])
termination_by (ts.length, 4)
decreasing_by
  · exact .left _ _ (Nat.lt_succ_self _)
  · exact .left _ _ (Nat.lt_succ_of_lt t.2)

/-- An operand with any number of signs in front. -/
def signed (finish : Nat) (ts : List Located) : Parsed Expr ts :=
  match ts with
  | ⟨.sub, _⟩ :: rest => do
    let (e, t) ← signed finish rest
    .ok (negated e, Shorter.afterHead t.weaken)
  | ⟨.add, _⟩ :: rest => do
    let (e, t) ← signed finish rest
    .ok (e, Shorter.afterHead t.weaken)
  | ts => postfixed finish ts
termination_by (ts.length, 3)
decreasing_by
  · exact .left _ _ (Nat.lt_succ_self _)
  · exact .left _ _ (Nat.lt_succ_self _)
  · exact .right _ (by decide)

/-- A factor with subscripts, calls and attributes behind it. -/
def postfixed (finish : Nat) (ts : List Located) : Parsed Expr ts := do
  let (first, t) ← factor finish ts
  let (e, u) ← postfixes finish first t.1
  .ok (e, t.andMaybe u)
termination_by (ts.length, 2)
decreasing_by
  · exact .right _ (by decide)
  · exact .left _ _ t.2

/-- Further subscripts, calls and attributes. Only a bare name can be called. -/
def postfixes (finish : Nat) (base : Expr) (ts : List Located) : Continued Expr ts :=
  match ts with
  | ⟨.openSquare, _⟩ :: rest => do
    let (e, t) ← subscript finish base rest
    let (e, u) ← postfixes finish e t.1
    .ok (e, Shorter.weaken (Shorter.afterHead (t.andMaybe u).weaken))
  | ⟨.openParen, pos⟩ :: rest =>
    match base with
    | .name function => do
      let (args, t) ← items finish .closeParen "')'" "',' or ')'" rest
      let (e, u) ← postfixes finish (.call function args) t.1
      .ok (e, Shorter.weaken (Shorter.afterHead (t.andMaybe u).weaken))
    | _ => .error (.syntaxFault pos .onlyNamesCalled)
  | ⟨.dot, _⟩ :: ⟨.name key, _⟩ :: ⟨.openParen, _⟩ :: rest => do
    let (args, t) ← items finish .closeParen "')'" "',' or ')'" rest
    let (e, u) ← postfixes finish (.method base key args) t.1
    .ok (e, Shorter.weaken (Shorter.afterHead
      (Shorter.afterHead (Shorter.afterHead (t.andMaybe u).weaken).weaken).weaken))
  | ⟨.dot, _⟩ :: ⟨.name key, _⟩ :: rest => do
    let (e, u) ← postfixes finish (.attr base key) rest
    .ok (e, Shorter.weaken (Shorter.afterHead (Shorter.afterHead u).weaken))
  | ⟨.dot, _⟩ :: rest => faultAt finish rest.tail (.expected "a name after '.'")
  | ts => .ok (base, .all ts)
termination_by (ts.length, 2)
decreasing_by
  · exact .left _ _ (Nat.lt_succ_self _)
  · exact .left _ _ (Nat.lt_succ_of_lt t.2)
  · exact .left _ _ (Nat.lt_succ_self _)
  · exact .left _ _ (Nat.lt_succ_of_lt t.2)
  · exact .left _ _ (by simp only [List.length_cons]; omega)
  · exact .left _ _ (by have := t.2; simp only [List.length_cons]; omega)
  · exact .left _ _ (by simp only [List.length_cons]; omega)

/-- The inside of square brackets behind a value: one expression, or a colon with or without one
on either side. -/
def subscript (finish : Nat) (base : Expr) (ts : List Located) : Parsed Expr ts :=
  match ts with
  | ⟨.colon, _⟩ :: rest => do
    let (stop, t) ← sliceEnd finish rest
    .ok (.slice base none stop, Shorter.afterHead t.weaken)
  | ts => do
    let (start, t) ← expression finish ts
    match h : t.1 with
    | ⟨.colon, _⟩ :: rest =>
      have : rest.length < ts.length := by have := t.2; rw [h] at this; simp at this; omega
      let (stop, u) ← sliceEnd finish rest
      .ok (.slice base (some start) stop, ⟨u.1, Nat.lt_trans u.2 this⟩)
    | _ =>
      let u ← expect finish .closeSquare "']'" t.1
      .ok (.index base start, t.andThen u)
termination_by (ts.length, 11)
decreasing_by
  · exact .left _ _ (Nat.lt_succ_self _)
  · exact .right _ (by decide)
  · exact .left _ _ this

/-- What follows the colon of a slice. -/
def sliceEnd (finish : Nat) (ts : List Located) : Parsed (Option Expr) ts :=
  match ts with
  | ⟨.closeSquare, _⟩ :: rest => .ok (none, ⟨rest, Nat.lt_succ_self _⟩)
  | ts => do
    let (stop, t) ← expression finish ts
    let u ← expect finish .closeSquare "']'" t.1
    .ok (some stop, t.andThen u)
termination_by (ts.length, 11)
decreasing_by exact .right _ (by decide)

/-- Expressions separated by commas up to the closing token; the last one may have a comma too. -/
def items (finish : Nat) (close : Token) (closeName separator : String) (ts : List Located) :
    Parsed (List Expr) ts :=
  match ts with
  | l :: rest =>
    if l.token = close then .ok ([], ⟨rest, Nat.lt_succ_self _⟩)
    else do
      let (e, t) ← expression finish (l :: rest)
      match h : t.1 with
      | ⟨.comma, _⟩ :: more =>
        have : more.length < (l :: rest).length := by
          have := t.2; rw [h] at this; simp at this ⊢; omega
        let (es, u) ← items finish close closeName separator more
        .ok (e :: es, ⟨u.1, Nat.lt_trans u.2 this⟩)
      | next :: more =>
        if next.token = close then
          .ok ([e], ⟨more, by have := t.2; rw [h] at this; simp at this ⊢; omega⟩)
        else faultAt finish (next :: more) (.expected separator)
      | [] => faultAt finish [] (.expected separator)
  | [] => faultAt finish [] .unexpectedEnd
termination_by (ts.length, 11)
decreasing_by
  · exact .right _ (by decide)
  · exact .left _ _ this

/-- Pairs of key and value separated by commas, up to the closing brace. -/
def entries (finish : Nat) (ts : List Located) : Parsed (List (Expr × Expr)) ts :=
  match ts with
  | ⟨.closeBrace, _⟩ :: rest => .ok ([], ⟨rest, Nat.lt_succ_self _⟩)
  | ts => do
    let (key, t) ← expression finish ts
    let u ← expect finish .colon "':'" t.1
    have hu : u.1.length < ts.length := Nat.lt_trans u.2 t.2
    let (value, v) ← expression finish u.1
    have hv : v.1.length < ts.length := Nat.lt_trans v.2 hu
    match h : v.1 with
    | ⟨.comma, _⟩ :: more =>
      have : more.length < ts.length := by rw [h] at hv; simp at hv; omega
      let (es, w) ← entries finish more
      .ok ((key, value) :: es, ⟨w.1, Nat.lt_trans w.2 this⟩)
    | ⟨.closeBrace, _⟩ :: more =>
      .ok ([(key, value)], ⟨more, by rw [h] at hv; simp at hv; omega⟩)
    | more => faultAt finish more (.expected "',' or '\x7d'")
termination_by (ts.length, 11)
decreasing_by
  · exact .right _ (by decide)
  · exact .left _ _ hu
  · exact .left _ _ this

/-- A literal, a name, or something in brackets. -/
def factor (finish : Nat) (ts : List Located) : Parsed Expr ts :=
  match ts with
  | [] => faultAt finish [] .unexpectedEnd
  | l :: rest =>
    match ofToken? l.token with
    | some e => .ok (e, ⟨rest, Nat.lt_succ_self _⟩)
    | none =>
      match l.token with
      | .openParen => do
        let (e, t) ← expression finish rest
        let u ← expect finish .closeParen "')'" t.1
        .ok (e, Shorter.afterHead (t.andThen u).weaken)
      | .openSquare => do
        let (es, t) ← items finish .closeSquare "']'" "',' or ']'" rest
        .ok (.list es, Shorter.afterHead t.weaken)
      | .openBrace => do
        let (es, t) ← entries finish rest
        .ok (.dict es, Shorter.afterHead t.weaken)
      | other => .error (.syntaxFault l.offset (.unexpectedToken other))
termination_by (ts.length, 1)
decreasing_by all_goals exact .left _ _ (Nat.lt_succ_self _)

end

/-- The tokens after leading semicolons. -/
def dropSemicolons (ts : List Located) : List Located := ts.dropWhile (·.token = .semicolon)

/-- One expression; only semicolons may follow it. -/
def parseExpression (finish : Nat) (ts : List Located) : Except ExprError Expr := do
  let (e, t) ← expression finish ts
  match dropSemicolons t.1 with
  | [] => .ok e
  | more => faultAt finish more .trailingInput

/-- The target that a tree denotes, or an error that shows the tree. -/
def asTarget (e : Expr) : Except ExprError Target :=
  match e.toTarget? with
  | some target => .ok target
  | none => .error (.invalidTarget e.shown)

/-- One assignment target, such as `data["key"][0]`. -/
def parseTarget (finish : Nat) (ts : List Located) : Except ExprError Target := do
  asTarget (← parseExpression finish ts)

/-- The assignment that a token stands for. -/
def assignOp? : Token → Option AssignOp
  | .assign => some .set
  | .addAssign => some .add
  | .subAssign => some .sub
  | _ => none

/-- An expression, or an assignment to one. -/
def statement (finish : Nat) (ts : List Located) : Parsed Statement ts := do
  let (e, t) ← expression finish ts
  match h : t.1 with
  | l :: rest =>
    match assignOp? l.token with
    | some op =>
      let target ← asTarget e
      let (value, u) ← expression finish rest
      .ok (.assign target op value, ⟨u.1, by
        have ht := t.2; have := u.2; rw [h] at ht; simp at ht; omega⟩)
    | none => .ok (.expr e, t)
  | [] => .ok (.expr e, t)

/-- Statements separated by semicolons. -/
def parseSnippet (finish : Nat) (ts : List Located) : Except ExprError (List Statement) :=
  match ts with
  | [] => .ok []
  | ⟨.semicolon, _⟩ :: rest => parseSnippet finish rest
  | ts => do
    let (s, t) ← statement finish ts
    match h : t.1 with
    | [] => .ok [s]
    | l :: rest =>
      if l.token = .semicolon then
        have : rest.length < ts.length := by have := t.2; rw [h] at this; simp at this; omega
        .ok (s :: (← parseSnippet finish rest))
      else faultAt finish (l :: rest) (.expected "end of statement")
termination_by ts.length

end Deskhand.Expr
