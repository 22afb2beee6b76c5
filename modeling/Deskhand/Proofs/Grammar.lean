import Deskhand.Expr.Parser

/-!
# The grammar of the expression language

The grammar that the parser is meant to read, as a relation between runs of tokens and what they
denote. It says nothing of the order in which tokens are looked at: a binary operator has a whole
level of the grammar on its left, so that operators of one level group to the left, and a run of
tokens is cut into parts in whatever way makes a derivation.

    subscript  ::= expression | bound ":" bound
    bound      ::= expression?
    items      ::= (expression ("," expression)* ","?)?
    entries    ::= (expression ":" expression ("," expression ":" expression)* ","?)?

In the strict grammar only a bare name is called. The grammar that is not strict judges the callee
by what it denotes, so that `(f)(x)` is a call of `f`.
-/

namespace Deskhand.Expr

/-- The parts that runs of tokens are derived as. -/
inductive Part where
  | expression | disjunction | conjunction | negation | comparison | links
  | sum | product | signed | postfixed | factor | bound | items | entries

/-- What the tokens of a part denote. -/
abbrev Part.Yield : Part → Type
  | .links => List (CompareOp × Expr)
  | .bound => Option Expr
  | .items => List Expr
  | .entries => List (Expr × Expr)
  | _ => Expr

/-- How a comparison is written. -/
def CompareOp.tokens : CompareOp → List Token
  | equal => [.equal]
  | notEqual => [.notEqual]
  | less => [.less]
  | lessEqual => [.lessEqual]
  | greater => [.greater]
  | greaterEqual => [.greaterEqual]
  | isIn => [.isIn]
  | notIn => [.not, .isIn]
  | isSame => [.isSame]
  | notSame => [.isSame, .not]

/-- The tree of a sum with comparisons behind it. -/
def compared (first : Expr) (links : List (CompareOp × Expr)) : Expr :=
  if links.isEmpty then first else .compare first links

/-- One step further into what an expression denotes. -/
def Accessor.of (a : Accessor) (base : Expr) : Expr :=
  match a with
  | index i => .index base i
  | key k => .attr base k

/-- What a target looks like as an expression: its name with its path behind it. -/
def Target.tree (t : Target) : Expr := t.path.foldl (fun base a => a.of base) (.name t.name)

/-- The tokens are a sentence of the part, and this is what they denote. -/
inductive Derives (strict : Bool) : (part : Part) → List Located → part.Yield → Prop where
  | plain {us e} : Derives strict .disjunction us e → Derives strict .expression us e
  | conditional {us vs ws p q body test orelse} : Derives strict .disjunction us body →
      Derives strict .disjunction vs test → Derives strict .expression ws orelse →
      Derives strict .expression (us ++ ⟨.name "if", p⟩ :: (vs ++ ⟨.name "else", q⟩ :: ws))
        (.conditional test body orelse)
  | conjunction {us e} : Derives strict .conjunction us e → Derives strict .disjunction us e
  | or {us vs p l r} : Derives strict .disjunction us l → Derives strict .conjunction vs r →
      Derives strict .disjunction (us ++ ⟨.or, p⟩ :: vs) (.or l r)
  | negation {us e} : Derives strict .negation us e → Derives strict .conjunction us e
  | and {us vs p l r} : Derives strict .conjunction us l → Derives strict .negation vs r →
      Derives strict .conjunction (us ++ ⟨.and, p⟩ :: vs) (.and l r)
  | comparison {us e} : Derives strict .comparison us e → Derives strict .negation us e
  | not {us p e} : Derives strict .negation us e →
      Derives strict .negation (⟨.not, p⟩ :: us) (.not e)
  | compared {us vs first links} : Derives strict .sum us first → Derives strict .links vs links →
      Derives strict .comparison (us ++ vs) (compared first links)
  | noLink : Derives strict .links [] []
  | link {cs us vs op e links} : cs.map Located.token = op.tokens → Derives strict .sum us e →
      Derives strict .links vs links → Derives strict .links (cs ++ (us ++ vs)) ((op, e) :: links)
  | product {us e} : Derives strict .product us e → Derives strict .sum us e
  | sum {us vs t p op l r} : Derives strict .sum us l → sumOp? t = some op →
      Derives strict .product vs r → Derives strict .sum (us ++ ⟨t, p⟩ :: vs) (.binary l op r)
  | signed {us e} : Derives strict .signed us e → Derives strict .product us e
  | multiple {us vs t p op l r} : Derives strict .product us l → productOp? t = some op →
      Derives strict .signed vs r → Derives strict .product (us ++ ⟨t, p⟩ :: vs) (.binary l op r)
  | postfixed {us e} : Derives strict .postfixed us e → Derives strict .signed us e
  | minus {us p e} : Derives strict .signed us e →
      Derives strict .signed (⟨.sub, p⟩ :: us) (negated e)
  | plus {us p e} : Derives strict .signed us e → Derives strict .signed (⟨.add, p⟩ :: us) e
  | factor {us e} : Derives strict .factor us e → Derives strict .postfixed us e
  | index {us vs p q base i} : Derives strict .postfixed us base → Derives strict .expression vs i →
      Derives strict .postfixed (us ++ ⟨.openSquare, p⟩ :: (vs ++ [⟨.closeSquare, q⟩]))
        (.index base i)
  | slice {us vs ws p q r base start stop} : Derives strict .postfixed us base →
      Derives strict .bound vs start → Derives strict .bound ws stop →
      Derives strict .postfixed
        (us ++ ⟨.openSquare, p⟩ :: (vs ++ ⟨.colon, q⟩ :: (ws ++ [⟨.closeSquare, r⟩])))
        (.slice base start stop)
  | call {us vs p q function args} : Derives strict .postfixed us (.name function) →
      (strict → us.length = 1) → Derives strict .items vs args →
      Derives strict .postfixed (us ++ ⟨.openParen, p⟩ :: (vs ++ [⟨.closeParen, q⟩]))
        (.call function args)
  | method {us vs p q r s base key args} : Derives strict .postfixed us base →
      Derives strict .items vs args →
      Derives strict .postfixed
        (us ++ ⟨.dot, p⟩ :: ⟨.name key, q⟩ :: ⟨.openParen, r⟩ :: (vs ++ [⟨.closeParen, s⟩]))
        (.method base key args)
  | attr {us p q base key} : Derives strict .postfixed us base →
      Derives strict .postfixed (us ++ [⟨.dot, p⟩, ⟨.name key, q⟩]) (.attr base key)
  | unbounded : Derives strict .bound [] none
  | bounded {us e} : Derives strict .expression us e → Derives strict .bound us (some e)
  | token {t p e} : ofToken? t = some e → Derives strict .factor [⟨t, p⟩] e
  | parens {us p q e} : Derives strict .expression us e →
      Derives strict .factor (⟨.openParen, p⟩ :: (us ++ [⟨.closeParen, q⟩])) e
  | list {us p q es} : Derives strict .items us es →
      Derives strict .factor (⟨.openSquare, p⟩ :: (us ++ [⟨.closeSquare, q⟩])) (.list es)
  | dict {us p q es} : Derives strict .entries us es →
      Derives strict .factor (⟨.openBrace, p⟩ :: (us ++ [⟨.closeBrace, q⟩])) (.dict es)
  | noItem : Derives strict .items [] []
  | lastItem {us e} : Derives strict .expression us e → Derives strict .items us [e]
  | item {us vs p e es} : Derives strict .expression us e → Derives strict .items vs es →
      Derives strict .items (us ++ ⟨.comma, p⟩ :: vs) (e :: es)
  | noEntry : Derives strict .entries [] []
  | lastEntry {us vs p k v} : Derives strict .expression us k → Derives strict .expression vs v →
      Derives strict .entries (us ++ ⟨.colon, p⟩ :: vs) [(k, v)]
  | entry {us vs ws p q k v es} : Derives strict .expression us k →
      Derives strict .expression vs v → Derives strict .entries ws es →
      Derives strict .entries (us ++ ⟨.colon, p⟩ :: (vs ++ ⟨.comma, q⟩ :: ws)) ((k, v) :: es)

/-- An expression, or an assignment of one to what has the form of a target. -/
inductive DerivesStatement (strict : Bool) : List Located → Statement → Prop where
  | expr {us e} : Derives strict .expression us e → DerivesStatement strict us (.expr e)
  | assign {us vs t p op target value} : Derives strict .expression us target.tree →
      assignOp? t = some op → Derives strict .expression vs value →
      DerivesStatement strict (us ++ ⟨t, p⟩ :: vs) (.assign target op value)

/-- Statements with semicolons between them, and any number of semicolons more. -/
inductive DerivesSnippet (strict : Bool) : List Located → List Statement → Prop where
  | empty : DerivesSnippet strict [] []
  | semicolon {us p ss} : DerivesSnippet strict us ss →
      DerivesSnippet strict (⟨.semicolon, p⟩ :: us) ss
  | last {us s} : DerivesStatement strict us s → DerivesSnippet strict us [s]
  | statement {us vs p s ss} : DerivesStatement strict us s → DerivesSnippet strict vs ss →
      DerivesSnippet strict (us ++ ⟨.semicolon, p⟩ :: vs) (s :: ss)

end Deskhand.Expr
