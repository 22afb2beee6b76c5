import Deskhand.Proofs.Folding
import Deskhand.Proofs.Sentences
import Mathlib.Data.List.Chain
import Mathlib.Data.List.TakeWhile

/-!
# The parser is its grammar

What the parser accepts and what it yields, on all token lists: the sentences of the grammar and
what they denote (`parser_is_grammar`). The callee of a call is judged by its tree, so the parser
accepts more than calls of bare names (`not_parses_bare_calls`).
-/

namespace Deskhand.Expr

variable {f : Nat} {ts us vs rest : List Located} {e : Expr}

/-! ## Expressions -/

theorem dropSemicolons_eq_nil : dropSemicolons ts = [] ↔ ∀ l ∈ ts, l.token = .semicolon := by
  simp [dropSemicolons, List.dropWhile_eq_nil_iff]

theorem stops_of_semicolons (h : ∀ l ∈ ts, l.token = .semicolon) : Stops 6 ts := by
  intro t ht
  obtain ⟨p, us, rfl⟩ := front_eq_some.1 ht
  rw [show t = .semicolon from h _ List.mem_cons_self]
  decide

/-- An expression is parsed if it is a sentence with nothing but semicolons behind it. -/
theorem parseExpression_eq_ok : parseExpression f ts = .ok e ↔
    ∃ us vs, ts = us ++ vs ∧ (∀ l ∈ vs, l.token = .semicolon) ∧
      Derives false .expression us e := by
  unfold parseExpression
  constructor
  · intro h
    obtain ⟨⟨e', vs, hvs⟩, he, h⟩ := bind_eq_ok h
    dsimp only at h
    split at h
    · next hdrop =>
      cases h
      obtain ⟨us, rfl, hus⟩ := (derived f ts).expression ⟨hvs, he⟩
      exact ⟨us, vs, rfl, dropSemicolons_eq_nil.1 hdrop, hus⟩
    · cases h
  · rintro ⟨us, vs, rfl, hvs, hus⟩
    obtain ⟨hrest, he⟩ := hus.readable f vs (stops_of_semicolons hvs)
    rw [he]
    simp only [bind, Except.bind, dropSemicolons_eq_nil.2 hvs]

/-! ## Targets -/

theorem toTarget_of (a : Accessor) (base : Expr) :
    (a.of base).toTarget? = base.toTarget?.map fun t => ⟨t.name, t.path ++ [a]⟩ := by
  cases a <;> rfl

/-- A target with more of a path behind it. -/
theorem toTarget_foldl (base : Expr) (path : List Accessor) :
    (path.foldl (fun base a => a.of base) base).toTarget? =
      base.toTarget?.map fun t => ⟨t.name, t.path ++ path⟩ := by
  induction path generalizing base with
  | nil => simp
  | cons a path ih =>
    rw [List.foldl_cons, ih, toTarget_of, Option.map_map]
    simp [Function.comp_def]

theorem toTarget_tree (t : Target) : t.tree.toTarget? = some t := by
  rw [Target.tree, toTarget_foldl]
  simp [toTarget?]

theorem eq_tree_of_toTarget {target : Target} (h : e.toTarget? = some target) :
    e = target.tree := by
  fun_induction toTarget? e generalizing target with
  | case1 s =>
    cases h
    rfl
  | case2 base i ih =>
    obtain ⟨t, ht, rfl⟩ := Option.map_eq_some_iff.1 h
    rw [ih ht]
    simp [Target.tree, Accessor.of]
  | case3 base k ih =>
    obtain ⟨t, ht, rfl⟩ := Option.map_eq_some_iff.1 h
    rw [ih ht]
    simp [Target.tree, Accessor.of]
  | case4 => cases h

/-! ## Statements -/

theorem derives_statement {s : Statement} (h : Reads (statement f ts) s rest) :
    ∃ us, ts = us ++ rest ∧ DerivesStatement false us s := by
  obtain ⟨e, he, -, rfl⟩ | ⟨e, t, p, us, op, target, value, he, hop, htarget, hvalue, rfl⟩ :=
    reads_statement.1 h
  · obtain ⟨us, rfl, hus⟩ := (derived f ts).expression he
    exact ⟨us, rfl, .expr hus⟩
  · obtain ⟨vs, rfl, hvs⟩ := (derived f us).expression hvalue
    obtain ⟨us, rfl, hus⟩ := (derived f ts).expression he
    rw [eq_tree_of_toTarget htarget] at hus
    exact ⟨us ++ ⟨t, p⟩ :: vs, by simp, .assign hus hop hvs⟩

/-- A statement is read whole if it ends its list or a semicolon follows. -/
theorem DerivesStatement.read {strict : Bool} {s : Statement} (h : DerivesStatement strict us s)
    (hrest : ∀ t, front rest = some t → t = .semicolon) :
    Reads (statement f (us ++ rest)) s rest := by
  have hstops : Stops 6 rest := by
    intro t ht
    rw [hrest t ht]
    decide
  cases h with
  | expr he =>
    refine reads_statement.2 (.inl ⟨_, he.readable f rest hstops, ?_, rfl⟩)
    intro t ht
    rw [hrest t ht]
    rfl
  | @assign us vs t p op target value he hop hvalue =>
    rw [List.append_assoc, List.cons_append]
    refine reads_statement.2 (.inr ⟨_, t, p, _, op, target, value, ?_, hop, toTarget_tree target,
      hvalue.readable f rest hstops, rfl⟩)
    exact he.readable f _ (by simp [level_assignOp hop])

theorem DerivesStatement.begins {strict : Bool} {s : Statement}
    (h : DerivesStatement strict us s) : ∃ t, front us = some t ∧ t ≠ .semicolon := by
  have hne : ∀ t : Token, t.lead ≤ Part.expression.lead → t ≠ .semicolon := by
    rintro t ht rfl
    exact absurd ht (by decide)
  cases h with
  | expr he =>
    obtain ⟨t, ht, hlead⟩ := he.begins (by decide)
    exact ⟨t, ht, hne t hlead⟩
  | assign he =>
    obtain ⟨t, ht, hlead⟩ := he.begins (by decide)
    exact ⟨t, front_append ht, hne t hlead⟩

theorem derives_snippet {ss : List Statement} (h : parseSnippet f ts = .ok ss) :
    DerivesSnippet false ts ss := by
  induction hn : ts.length using Nat.strongRecOn generalizing ts ss with
  | ind n ih =>
    subst hn
    by_cases hnil : ts = []
    · subst hnil
      cases parseSnippet_nil.symm.trans h
      exact .empty
    by_cases hsemicolon : front ts = some .semicolon
    · obtain ⟨p, us, rfl⟩ := front_eq_some.1 hsemicolon
      rw [parseSnippet_semicolon] at h
      exact .semicolon (ih _ (Nat.lt_succ_self _) h rfl)
    · obtain ⟨s, us, hs, h⟩ := (parseSnippet_eq_ok hnil hsemicolon).1 h
      obtain ⟨vs, hts, hvs⟩ := derives_statement hs
      obtain ⟨rfl, rfl⟩ | ⟨p, ws, ss', rfl, hss, rfl⟩ := h
      · rw [hts, List.append_nil]
        exact .last hvs
      · rw [hts]
        exact .statement hvs (ih _ (Nat.lt_of_succ_lt hs.prop) hss rfl)

theorem DerivesSnippet.parse {strict : Bool} {ss : List Statement}
    (h : DerivesSnippet strict ts ss) : parseSnippet f ts = .ok ss := by
  induction h with
  | empty => exact parseSnippet_nil
  | semicolon _ ih => exact parseSnippet_semicolon.trans ih
  | @last us s hs =>
    obtain ⟨t, ht, hne⟩ := hs.begins
    refine (parseSnippet_eq_ok ?_ ?_).2 ⟨s, [], ?_, .inl ⟨rfl, rfl⟩⟩
    · rintro rfl
      cases ht
    · rw [ht]
      simpa using hne
    · rw [← List.append_nil us]
      exact hs.read (by simp)
  | @statement us vs p s ss hs _ ih =>
    obtain ⟨t, ht, hne⟩ := hs.begins
    refine (parseSnippet_eq_ok (by simp) ?_).2 ⟨s, _, ?_, .inr ⟨p, vs, ss, rfl, ih, rfl⟩⟩
    · rw [front_append ht]
      simpa using hne
    · exact hs.read (by simp)

/-- One operand is an expression. -/
theorem Derives.up {strict : Bool} (h : Derives strict .signed us e) :
    Derives strict .expression us e := by
  have hcomparison := Derives.compared (.product (.signed h)) .noLink
  rw [List.append_nil] at hcomparison
  exact .plain (.conjunction (.negation (.comparison hcomparison)))

/-! ## The parser and its grammar -/

/-- What the parser accepts are the sentences of the grammar, and it yields what they denote. The
grammar is unambiguous, and on the tokens of a text no folding of a minus leaves the words. -/
theorem parser_is_grammar (finish : Nat) :
    (∀ ts e, parseExpression finish ts = .ok e ↔
      ∃ us vs, ts = us ++ vs ∧ (∀ l ∈ vs, l.token = .semicolon) ∧
        Derives false .expression us e) ∧
    (∀ (part : Part) us (y y' : part.Yield),
      Derives false part us y → Derives false part us y' → y = y') ∧
    (∀ text ts, tokens text = .ok ts → ∀ us, us <:+ ts →
      ∀ n rest, signed finish us = .ok (.int n, rest) → Value.IsInt64 (-n)) ∧
    (∀ ts ss, parseSnippet finish ts = .ok ss ↔ DerivesSnippet false ts ss) := by
  refine ⟨fun ts e => parseExpression_eq_ok, ?_, ?_, ?_⟩
  · intro part us y y' h h'
    exact h.unique h'
  · intro text ts hts us hus n rest h
    exact fold_in_range hts hus h
  · intro ts ss
    exact ⟨derives_snippet, DerivesSnippet.parse⟩

/-- The tokens of `-7`. -/
def minusSeven : List Located := [⟨.sub, 0⟩, ⟨.int 7, 1⟩]

theorem tokens_minusSeven : tokens "-7".toList = .ok minusSeven := by
  have hminus : scan 0 '-' 0 ['7'] = .ok ⟨some .sub, 1, .all _⟩ := by rfl
  have hseven : scan 0 '7' 1 [] = .ok ⟨some (.int 7), 2, .all _⟩ := by rfl
  rw [tokens]
  change tokensFrom 0 0 ['-', '7'] = _
  simp [tokensFrom, hminus, hseven, depthAfter, NoLonger.all, minusSeven]

theorem parser_is_grammar_negative : tokens "-7".toList = .ok minusSeven ∧
    parseExpression 2 minusSeven = .ok (.int (-7)) ∧ Value.IsInt64 (-7) := by
  have hseven : Derives false .signed [⟨.int 7, 1⟩] (.int 7) := .postfixed (.factor (.token rfl))
  have hminus : Derives false .signed minusSeven (.int (-7)) := .minus hseven
  obtain ⟨hrest, hread⟩ := hseven.readable 2 [] stops_nil
  refine ⟨tokens_minusSeven, ?_, ?_⟩
  · exact ((parser_is_grammar 2).1 _ _).2 ⟨minusSeven, [], rfl, by simp, hminus.up⟩
  · have hsuffix : [⟨.int 7, 1⟩] <:+ minusSeven := ⟨[⟨.sub, 0⟩], rfl⟩
    exact (parser_is_grammar 2).2.2.1 _ _ tokens_minusSeven _ hsuffix 7 _ hread

/-! ## Calls of what is not a bare name -/

/-- No closing parenthesis has an opening one right behind it. -/
def Apart (ts : List Located) : Prop :=
  ts.IsChain fun a b => a.token = .closeParen → b.token ≠ .openParen

theorem Apart.cons {l : Located} (hl : l.token ≠ .closeParen) (h : Apart ts) : Apart (l :: ts) :=
  List.isChain_cons.2 ⟨fun _ _ hclose => absurd hclose hl, h⟩

theorem Apart.append (hus : Apart us) (hvs : Apart vs) (h : front vs ≠ some .openParen) :
    Apart (us ++ vs) := by
  refine List.isChain_append.2 ⟨hus, hvs, ?_⟩
  intro a _ b hb _ hopen
  refine h ?_
  rw [front, hb, Option.map_some, hopen]

theorem apart_singleton (l : Located) : Apart [l] := List.isChain_singleton l

theorem Apart.spelled {op : CompareOp} {cs : List Located} (hcs : cs.map Located.token = op.tokens)
    (h : Apart us) : Apart (cs ++ us) := by
  have hclose : ∀ l ∈ cs, l.token ≠ .closeParen := by
    intro l hl hclose
    have hmem : Token.closeParen ∈ op.tokens := hcs ▸ hclose ▸ List.mem_map_of_mem hl
    cases op <;> simp [CompareOp.tokens] at hmem
  clear hcs
  induction cs with
  | nil => exact h
  | cons c cs ih =>
    exact (ih fun l hl => hclose l (List.mem_cons_of_mem _ hl)).cons (hclose c List.mem_cons_self)

theorem Derives.front_links {strict : Bool} {links : List (CompareOp × Expr)}
    (h : Derives strict .links us links) : front us ≠ some .openParen := by
  have hstop : Stops 2 (us ++ []) := h.links_stop stops_nil
  rw [List.append_nil] at hstop
  exact hstop.front_ne (by decide)

/-- In the strict grammar a parenthesis is never called. -/
theorem Derives.apart {part : Part} {y : part.Yield} (h : Derives true part us y) : Apart us := by
  induction h with
  | plain _ ih | conjunction _ ih | negation _ ih | comparison _ ih | product _ ih | signed _ ih
  | postfixed _ ih | factor _ ih | bounded _ ih | lastItem _ ih => exact ih
  | noLink | unbounded | noItem | noEntry => exact .nil
  | token => exact apart_singleton _
  | not _ ih | minus _ ih | plus _ ih => exact ih.cons (by simp)
  | conditional _ _ _ ihbody ihtest ihorelse =>
    refine ihbody.append (.cons (by simp) (ihtest.append ?_ (by simp))) (by simp)
    exact ihorelse.cons (by simp)
  | or _ _ ihl ihr | and _ _ ihl ihr | item _ _ ihl ihr | lastEntry _ _ ihl ihr =>
    exact ihl.append (ihr.cons (by simp)) (by simp)
  | sum _ hop _ ihl ihr | multiple _ hop _ ihl ihr =>
    refine ihl.append (ihr.cons ?_) ?_
    · rintro rfl
      cases hop
    · rintro ⟨⟩
      cases hop
  | compared _ hlinks ihfirst ihlinks => exact ihfirst.append ihlinks hlinks.front_links
  | link hcs _ hlinks ihe ihlinks => exact (ihe.append ihlinks hlinks.front_links).spelled hcs
  | index _ _ ihbase ihi =>
    exact ihbase.append ((ihi.append (apart_singleton _) (by simp)).cons (by simp)) (by simp)
  | slice _ _ _ ihbase ihstart ihstop =>
    refine ihbase.append (.cons (by simp) (ihstart.append (.cons (by simp) ?_) (by simp))) (by simp)
    exact ihstop.append (apart_singleton _) (by simp)
  | @call us vs p q function args hcallee hbare _ _ ihargs =>
    obtain ⟨l, rfl⟩ := List.length_eq_one_iff.1 (hbare rfl)
    have hl : front ([l] ++ []) ≠ some .closeParen := hcallee.front_ne (by decide) (by decide)
    have hl : l.token ≠ .closeParen := fun hclose => hl (congrArg some hclose)
    exact ((ihargs.append (apart_singleton _) (by simp)).cons (by simp)).cons hl
  | method _ _ ihbase ihargs =>
    refine ihbase.append (.cons (by simp) (.cons (by simp) (.cons (by simp) ?_))) (by simp)
    exact ihargs.append (apart_singleton _) (by simp)
  | attr _ ih => exact ih.append (.cons (by simp) (apart_singleton _)) (by simp)
  | parens _ ih | list _ ih | dict _ ih =>
    exact (ih.append (apart_singleton _) (by simp)).cons (by simp)
  | entry _ _ _ ihk ihv ihes =>
    exact ihk.append ((ihv.append (ihes.cons (by simp)) (by simp)).cons (by simp)) (by simp)

/-- The tokens of `(f)(x)`. -/
def parenthesizedCall : List Located :=
  [⟨.openParen, 0⟩, ⟨.name "f", 1⟩, ⟨.closeParen, 2⟩, ⟨.openParen, 3⟩, ⟨.name "x", 4⟩,
    ⟨.closeParen, 5⟩]

theorem derives_name {strict : Bool} (s : String) (p : Nat) :
    Derives strict .expression [⟨.name s, p⟩] (.name s) :=
  Derives.up (.postfixed (.factor (.token rfl)))

theorem derives_parenthesizedCall :
    Derives false .expression parenthesizedCall (.call "f" [.name "x"]) := by
  have hcallee : Derives false .factor [⟨.openParen, 0⟩, ⟨.name "f", 1⟩, ⟨.closeParen, 2⟩]
      (.name "f") :=
    .parens (derives_name "f" 1)
  exact Derives.up (.postfixed (.call (.factor hcallee) (by simp) (.lastItem (derives_name "x" 4))))

/-- A name in parentheses is called, which the strict grammar has no sentence for. -/
theorem not_parses_bare_calls : ¬ ∀ finish ts e, parseExpression finish ts = .ok e ↔
    ∃ us vs, ts = us ++ vs ∧ (∀ l ∈ vs, l.token = .semicolon) ∧
      Derives true .expression us e := by
  intro h
  have hok : parseExpression 6 parenthesizedCall = .ok (.call "f" [.name "x"]) :=
    parseExpression_eq_ok.2 ⟨parenthesizedCall, [], by simp, by simp, derives_parenthesizedCall⟩
  obtain ⟨us, vs, hts, hvs, hus⟩ := (h 6 parenthesizedCall _).1 hok
  have hnil : vs = [] := by
    refine List.eq_nil_iff_forall_not_mem.2 fun l hl => ?_
    have hmem : l ∈ parenthesizedCall := by
      rw [hts]
      exact List.mem_append_right _ hl
    have hsemicolon := hvs l hl
    simp only [parenthesizedCall, List.mem_cons, List.not_mem_nil, or_false] at hmem
    obtain rfl | rfl | rfl | rfl | rfl | rfl := hmem <;> cases hsemicolon
  rw [hnil, List.append_nil] at hts
  have hapart : Apart parenthesizedCall := by
    rw [hts]
    exact hus.apart
  simp [Apart, parenthesizedCall] at hapart

end Deskhand.Expr
