import Deskhand.Proofs.Grammar
import Deskhand.Proofs.Parsing

/-!
# What the parser reads is a sentence

Every call of a parser function that reads something reads a sentence of the part that the function
is for, and yields what the sentence denotes (`derived`). A loop extends the sentence on its left.
The proof is by induction on the number of tokens; calls on the same tokens go down the levels.
-/

namespace Deskhand.Expr

/-- Tokens that are a sentence of a part with a rest behind it. -/
def Opens (part : Part) (ts : List Located) (y : part.Yield) (rest : List Located) : Prop :=
  ∃ us, ts = us ++ rest ∧ Derives false part us y

/-- Tokens that, put behind any sentence of a part that denotes `left`, make a longer one, with a
rest behind it. -/
def Extends (part : Part) (left : part.Yield) (ts : List Located) (y : part.Yield)
    (rest : List Located) : Prop :=
  ∃ us, ts = us ++ rest ∧ ∀ ls, Derives false part ls left → Derives false part (ls ++ us) y

/-- Tokens that are a sentence of a part with a closing token and a rest behind it. -/
def Closes (part : Part) (close : Token) (ts : List Located) (y : part.Yield)
    (rest : List Located) : Prop :=
  ∃ us p, ts = us ++ ⟨close, p⟩ :: rest ∧ Derives false part us y

theorem Opens.extend {part : Part} {ts us rest : List Located} {left y : part.Yield}
    (h : Opens part ts left us) (hrest : Extends part left us y rest) : Opens part ts y rest := by
  obtain ⟨vs, rfl, hvs⟩ := h
  obtain ⟨ws, rfl, hws⟩ := hrest
  exact ⟨vs ++ ws, by simp, hws vs hvs⟩

theorem Extends.refl (part : Part) (left : part.Yield) (ts : List Located) :
    Extends part left ts left ts :=
  ⟨[], rfl, fun ls h => by simpa using h⟩

theorem Extends.trans {part : Part} {ts us rest : List Located} {x y z : part.Yield}
    (h : Extends part x ts y us) (h' : Extends part y us z rest) : Extends part x ts z rest := by
  obtain ⟨vs, rfl, hvs⟩ := h
  obtain ⟨ws, rfl, hws⟩ := h'
  refine ⟨vs ++ ws, by simp, fun ls hls => ?_⟩
  simpa using hws _ (hvs ls hls)

theorem Opens.map {part part' : Part} {ts rest : List Located} {y : part.Yield} {y' : part'.Yield}
    (h : Opens part ts y rest)
    (hpart : ∀ us, Derives false part us y → Derives false part' us y') :
    Opens part' ts y' rest := by
  obtain ⟨us, rfl, hus⟩ := h
  exact ⟨us, rfl, hpart us hus⟩

/-- What every call on these tokens reads is a sentence. -/
structure Derived (f : Nat) (ts : List Located) : Prop where
  expression {e rest} : Reads (expression f ts) e rest → Opens .expression ts e rest
  disjunction {e rest} : Reads (disjunction f ts) e rest → Opens .disjunction ts e rest
  disjunctionRest {left e rest} : Reads (disjunctionRest f left ts) e rest →
    Extends .disjunction left ts e rest
  conjunction {e rest} : Reads (conjunction f ts) e rest → Opens .conjunction ts e rest
  conjunctionRest {left e rest} : Reads (conjunctionRest f left ts) e rest →
    Extends .conjunction left ts e rest
  negation {e rest} : Reads (negation f ts) e rest → Opens .negation ts e rest
  chain {links rest} : Reads (chain f ts) links rest → Opens .links ts links rest
  sum {e rest} : Reads (sum f ts) e rest → Opens .sum ts e rest
  sumRest {left e rest} : Reads (sumRest f left ts) e rest → Extends .sum left ts e rest
  product {e rest} : Reads (product f ts) e rest → Opens .product ts e rest
  productRest {left e rest} : Reads (productRest f left ts) e rest →
    Extends .product left ts e rest
  signed {e rest} : Reads (signed f ts) e rest → Opens .signed ts e rest
  postfixes {base e rest} : Reads (postfixes f base ts) e rest → Extends .postfixed base ts e rest
  items {close name separator es rest} : close ≠ .comma →
    Reads (items f close name separator ts) es rest → Closes .items close ts es rest
  entries {es rest} : Reads (entries f ts) es rest → Closes .entries .closeBrace ts es rest

section

variable {f : Nat} {ts rest : List Located} {e left base : Expr}

/-! ## Factors -/

theorem derives_factor (ih : ∀ us, us.length < ts.length → Derived f us)
    (h : Reads (factor f ts) e rest) : Opens .factor ts e rest := by
  cases ts with
  | nil => exact absurd h.prop (Nat.not_lt_zero _)
  | cons l us =>
    obtain ⟨t, p⟩ := l
    have hus : Derived f us := ih us (Nat.lt_succ_self _)
    cases ht : ofToken? t with
    | some e' =>
      obtain ⟨rfl, rfl⟩ := (reads_factor_token ht).1 h
      exact ⟨[⟨t, p⟩], rfl, .token ht⟩
    | none =>
      by_cases hparen : t = .openParen
      · subst hparen
        obtain ⟨q, he⟩ := reads_factor_openParen.1 h
        obtain ⟨vs, rfl, hvs⟩ := hus.expression he
        exact ⟨⟨.openParen, p⟩ :: (vs ++ [⟨.closeParen, q⟩]), by simp, .parens hvs⟩
      by_cases hsquare : t = .openSquare
      · subst hsquare
        obtain ⟨es, hes, rfl⟩ := reads_factor_openSquare.1 h
        obtain ⟨vs, q, rfl, hvs⟩ := hus.items (by decide) hes
        exact ⟨⟨.openSquare, p⟩ :: (vs ++ [⟨.closeSquare, q⟩]), by simp, .list hvs⟩
      by_cases hbrace : t = .openBrace
      · subst hbrace
        obtain ⟨es, hes, rfl⟩ := reads_factor_openBrace.1 h
        obtain ⟨vs, q, rfl, hvs⟩ := hus.entries hes
        exact ⟨⟨.openBrace, p⟩ :: (vs ++ [⟨.closeBrace, q⟩]), by simp, .dict hvs⟩
      · exact absurd h (not_reads_factor ht hparen hsquare hbrace)

/-! ## Subscripts, calls and attributes -/

theorem derives_sliceEnd {stop : Option Expr} (hts : Derived f ts)
    (h : Reads (sliceEnd f ts) stop rest) : Closes .bound .closeSquare ts stop rest := by
  by_cases hclose : front ts = some .closeSquare
  · obtain ⟨p, us, rfl⟩ := front_eq_some.1 hclose
    obtain ⟨rfl, rfl⟩ := reads_sliceEnd_close.1 h
    exact ⟨[], p, rfl, .unbounded⟩
  · obtain ⟨e, p, he, rfl⟩ := (reads_sliceEnd hclose).1 h
    obtain ⟨us, rfl, hus⟩ := hts.expression he
    exact ⟨us, p, rfl, .bounded hus⟩

theorem derives_subscript {p : Nat} (ih : ∀ us, us.length ≤ ts.length → Derived f us)
    (h : Reads (subscript f base ts) e rest) :
    Extends .postfixed base (⟨.openSquare, p⟩ :: ts) e rest := by
  by_cases hcolon : front ts = some .colon
  · obtain ⟨q, us, rfl⟩ := front_eq_some.1 hcolon
    obtain ⟨stop, hstop, rfl⟩ := reads_subscript_colon.1 h
    obtain ⟨vs, r, rfl, hvs⟩ := derives_sliceEnd (ih us (Nat.le_succ _)) hstop
    refine ⟨⟨.openSquare, p⟩ :: ([] ++ ⟨.colon, q⟩ :: (vs ++ [⟨.closeSquare, r⟩])), by simp, ?_⟩
    intro ls hls
    exact .slice hls .unbounded hvs
  · obtain ⟨start, q, us, stop, hstart, hstop, rfl⟩ | ⟨i, q, hi, rfl⟩ :=
      (reads_subscript hcolon).1 h
    · have hus : us.length ≤ ts.length := by
        have := hstart.prop
        simp only [List.length_cons] at this
        omega
      obtain ⟨vs, rfl, hvs⟩ := (ih ts (Nat.le_refl _)).expression hstart
      obtain ⟨ws, r, rfl, hws⟩ := derives_sliceEnd (ih us hus) hstop
      refine ⟨⟨.openSquare, p⟩ :: (vs ++ ⟨.colon, q⟩ :: (ws ++ [⟨.closeSquare, r⟩])), by simp, ?_⟩
      intro ls hls
      exact .slice hls (.bounded hvs) hws
    · obtain ⟨vs, rfl, hvs⟩ := (ih ts (Nat.le_refl _)).expression hi
      refine ⟨⟨.openSquare, p⟩ :: (vs ++ [⟨.closeSquare, q⟩]), by simp, ?_⟩
      intro ls hls
      exact .index hls hvs

theorem derives_postfixes (ih : ∀ us, us.length < ts.length → Derived f us)
    (h : Reads (postfixes f base ts) e rest) : Extends .postfixed base ts e rest := by
  by_cases hsquare : front ts = some .openSquare
  · obtain ⟨p, us, rfl⟩ := front_eq_some.1 hsquare
    obtain ⟨e', vs, he', hmore⟩ := reads_postfixes_openSquare.1 h
    have hvs := (ih vs (Nat.lt_succ_of_lt he'.prop)).postfixes hmore
    exact (derives_subscript (fun ws hws => ih ws (Nat.lt_succ_of_le hws)) he').trans hvs
  by_cases hparen : front ts = some .openParen
  · obtain ⟨p, us, rfl⟩ := front_eq_some.1 hparen
    obtain ⟨function, args, vs, rfl, hargs, hmore⟩ := reads_postfixes_openParen.1 h
    have hvs := (ih vs (Nat.lt_succ_of_lt hargs.prop)).postfixes hmore
    obtain ⟨ws, q, rfl, hws⟩ := (ih us (Nat.lt_succ_self _)).items (by decide) hargs
    refine Extends.trans ⟨⟨.openParen, p⟩ :: (ws ++ [⟨.closeParen, q⟩]), by simp, ?_⟩ hvs
    intro ls hls
    exact .call hls (by simp) hws
  by_cases hdot : front ts = some .dot
  · obtain ⟨p, us, rfl⟩ := front_eq_some.1 hdot
    by_cases hname : ∃ key, front us = some (.name key)
    · obtain ⟨key, hname⟩ := hname
      obtain ⟨q, vs, rfl⟩ := front_eq_some.1 hname
      by_cases hparen : front vs = some .openParen
      · obtain ⟨r, ws, rfl⟩ := front_eq_some.1 hparen
        obtain ⟨args, xs, hargs, hmore⟩ := reads_postfixes_method.1 h
        have hlt : xs.length < ws.length := hargs.prop
        have hxs := (ih xs (by simp only [List.length_cons]; omega)).postfixes hmore
        have hws := ih ws (by simp only [List.length_cons]; omega)
        obtain ⟨ys, s, rfl, hys⟩ := hws.items (by decide) hargs
        refine Extends.trans ⟨⟨.dot, p⟩ :: ⟨.name key, q⟩ :: ⟨.openParen, r⟩ ::
          (ys ++ [⟨.closeParen, s⟩]), by simp, ?_⟩ hxs
        intro ls hls
        exact .method hls hys
      · have hvs := (ih vs (by simp only [List.length_cons]; omega)).postfixes
          ((reads_postfixes_attr hparen).1 h)
        refine Extends.trans ⟨[⟨.dot, p⟩, ⟨.name key, q⟩], by simp, ?_⟩ hvs
        intro ls hls
        exact .attr hls
    · exact absurd h (not_reads_postfixes_dot (fun key hkey => hname ⟨key, hkey⟩))
  · obtain ⟨rfl, rfl⟩ := (reads_postfixes_stop hsquare hparen hdot).1 h
    exact .refl ..

theorem derives_postfixed (ih : ∀ us, us.length < ts.length → Derived f us)
    (h : Reads (postfixed f ts) e rest) : Opens .postfixed ts e rest := by
  obtain ⟨first, us, hfirst, h⟩ := reads_postfixed.1 h
  exact ((derives_factor ih hfirst).map fun _ => .factor).extend ((ih us hfirst.prop).postfixes h)

/-! ## Arithmetic -/

theorem derives_signed (ih : ∀ us, us.length < ts.length → Derived f us)
    (h : Reads (signed f ts) e rest) : Opens .signed ts e rest := by
  by_cases hsub : front ts = some .sub
  · obtain ⟨p, us, rfl⟩ := front_eq_some.1 hsub
    obtain ⟨e', he', rfl⟩ := reads_signed_sub.1 h
    obtain ⟨vs, rfl, hvs⟩ := (ih us (Nat.lt_succ_self _)).signed he'
    exact ⟨⟨.sub, p⟩ :: vs, rfl, .minus hvs⟩
  by_cases hadd : front ts = some .add
  · obtain ⟨p, us, rfl⟩ := front_eq_some.1 hadd
    obtain ⟨vs, rfl, hvs⟩ := (ih us (Nat.lt_succ_self _)).signed (reads_signed_add.1 h)
    exact ⟨⟨.add, p⟩ :: vs, rfl, .plus hvs⟩
  · rw [signed_of_front hsub hadd] at h
    exact (derives_postfixed ih h).map fun _ => .postfixed

theorem derives_productRest (ih : ∀ us, us.length < ts.length → Derived f us)
    (h : Reads (productRest f left ts) e rest) : Extends .product left ts e rest := by
  by_cases hstop : ∀ t, front ts = some t → productOp? t = none
  · obtain ⟨rfl, rfl⟩ := (reads_productRest_stop hstop).1 h
    exact .refl ..
  · obtain ⟨t, p, us, op, rfl, hop⟩ := exists_op hstop
    obtain ⟨right, vs, hright, hmore⟩ := (reads_productRest_op hop).1 h
    have hvs := (ih vs (Nat.lt_succ_of_lt hright.prop)).productRest hmore
    obtain ⟨ws, rfl, hws⟩ := (ih us (Nat.lt_succ_self _)).signed hright
    refine Extends.trans ⟨⟨t, p⟩ :: ws, by simp, ?_⟩ hvs
    intro ls hls
    exact .multiple hls hop hws

theorem derives_product (ih : ∀ us, us.length < ts.length → Derived f us)
    (h : Reads (product f ts) e rest) : Opens .product ts e rest := by
  obtain ⟨first, us, hfirst, h⟩ := reads_product.1 h
  exact ((derives_signed ih hfirst).map fun _ => .signed).extend ((ih us hfirst.prop).productRest h)

theorem derives_sumRest (ih : ∀ us, us.length < ts.length → Derived f us)
    (h : Reads (sumRest f left ts) e rest) : Extends .sum left ts e rest := by
  by_cases hstop : ∀ t, front ts = some t → sumOp? t = none
  · obtain ⟨rfl, rfl⟩ := (reads_sumRest_stop hstop).1 h
    exact .refl ..
  · obtain ⟨t, p, us, op, rfl, hop⟩ := exists_op hstop
    obtain ⟨right, vs, hright, hmore⟩ := (reads_sumRest_op hop).1 h
    have hvs := (ih vs (Nat.lt_succ_of_lt hright.prop)).sumRest hmore
    obtain ⟨ws, rfl, hws⟩ := (ih us (Nat.lt_succ_self _)).product hright
    refine Extends.trans ⟨⟨t, p⟩ :: ws, by simp, ?_⟩ hvs
    intro ls hls
    exact .sum hls hop hws

theorem derives_sum (ih : ∀ us, us.length < ts.length → Derived f us)
    (h : Reads (sum f ts) e rest) : Opens .sum ts e rest := by
  obtain ⟨first, us, hfirst, h⟩ := reads_sum.1 h
  exact ((derives_product ih hfirst).map fun _ => .product).extend ((ih us hfirst.prop).sumRest h)

/-! ## Comparisons -/

/-- A comparison that is found in front stands there as it is written. -/
theorem spelled_of_comparator {op : CompareOp} {u : Shorter ts}
    (h : comparator? ts = some (op, u)) :
    ∃ cs, ts = cs ++ u.1 ∧ cs.map Located.token = op.tokens := by
  unfold comparator? at h
  split at h
  · cases h
  · next l us =>
    obtain ⟨t, p⟩ := l
    dsimp only at h
    split at h
    any_goals
      cases h
      exact ⟨[⟨_, p⟩], rfl, rfl⟩
    · split at h
      · next q vs =>
        cases h
        exact ⟨[⟨.not, p⟩, ⟨.isIn, q⟩], rfl, rfl⟩
      · cases h
    · split at h
      · next q vs =>
        cases h
        exact ⟨[⟨.isSame, p⟩, ⟨.not, q⟩], rfl, rfl⟩
      · cases h
        exact ⟨[⟨.isSame, p⟩], rfl, rfl⟩
    · cases h

theorem derives_chain (ih : ∀ us, us.length < ts.length → Derived f us)
    {links : List (CompareOp × Expr)} (h : Reads (chain f ts) links rest) :
    Opens .links ts links rest := by
  cases hop : comparator? ts with
  | none =>
    obtain ⟨rfl, rfl⟩ := (reads_chain_stop hop).1 h
    exact ⟨[], rfl, .noLink⟩
  | some found =>
    obtain ⟨op, u⟩ := found
    obtain ⟨e, vs, more, he, hmore, rfl⟩ := (reads_chain_op hop).1 h
    obtain ⟨cs, hcs, hop⟩ := spelled_of_comparator hop
    obtain ⟨xs, hxs, hx⟩ := (ih u.1 u.2).sum he
    obtain ⟨ys, rfl, hy⟩ := (ih vs (Nat.lt_trans he.prop u.2)).chain hmore
    exact ⟨cs ++ (xs ++ ys), by rw [hcs, hxs]; simp, .link hop hx hy⟩

theorem derives_comparison (ih : ∀ us, us.length < ts.length → Derived f us)
    (h : Reads (comparison f ts) e rest) : Opens .comparison ts e rest := by
  obtain ⟨first, us, links, hfirst, hlinks, rfl⟩ := reads_comparison.1 h
  obtain ⟨xs, rfl, hx⟩ := derives_sum ih hfirst
  obtain ⟨ys, rfl, hy⟩ := (ih us hfirst.prop).chain hlinks
  exact ⟨xs ++ ys, by simp, .compared hx hy⟩

/-! ## Conditionals and the operators of logic -/

theorem derives_negation (ih : ∀ us, us.length < ts.length → Derived f us)
    (h : Reads (negation f ts) e rest) : Opens .negation ts e rest := by
  by_cases hnot : front ts = some .not
  · obtain ⟨p, us, rfl⟩ := front_eq_some.1 hnot
    obtain ⟨e', he', rfl⟩ := reads_negation_not.1 h
    obtain ⟨vs, rfl, hvs⟩ := (ih us (Nat.lt_succ_self _)).negation he'
    exact ⟨⟨.not, p⟩ :: vs, rfl, .not hvs⟩
  · rw [negation_of_front hnot] at h
    exact (derives_comparison ih h).map fun _ => .comparison

theorem derives_conjunctionRest (ih : ∀ us, us.length < ts.length → Derived f us)
    (h : Reads (conjunctionRest f left ts) e rest) : Extends .conjunction left ts e rest := by
  by_cases hand : front ts = some .and
  · obtain ⟨p, us, rfl⟩ := front_eq_some.1 hand
    obtain ⟨right, vs, hright, hmore⟩ := reads_conjunctionRest_and.1 h
    have hvs := (ih vs (Nat.lt_succ_of_lt hright.prop)).conjunctionRest hmore
    obtain ⟨ws, rfl, hws⟩ := (ih us (Nat.lt_succ_self _)).negation hright
    refine Extends.trans ⟨⟨.and, p⟩ :: ws, by simp, ?_⟩ hvs
    intro ls hls
    exact .and hls hws
  · obtain ⟨rfl, rfl⟩ := (reads_conjunctionRest_stop hand).1 h
    exact .refl ..

theorem derives_conjunction (ih : ∀ us, us.length < ts.length → Derived f us)
    (h : Reads (conjunction f ts) e rest) : Opens .conjunction ts e rest := by
  obtain ⟨first, us, hfirst, h⟩ := reads_conjunction.1 h
  exact ((derives_negation ih hfirst).map fun _ => .negation).extend
    ((ih us hfirst.prop).conjunctionRest h)

theorem derives_disjunctionRest (ih : ∀ us, us.length < ts.length → Derived f us)
    (h : Reads (disjunctionRest f left ts) e rest) : Extends .disjunction left ts e rest := by
  by_cases hor : front ts = some .or
  · obtain ⟨p, us, rfl⟩ := front_eq_some.1 hor
    obtain ⟨right, vs, hright, hmore⟩ := reads_disjunctionRest_or.1 h
    have hvs := (ih vs (Nat.lt_succ_of_lt hright.prop)).disjunctionRest hmore
    obtain ⟨ws, rfl, hws⟩ := (ih us (Nat.lt_succ_self _)).conjunction hright
    refine Extends.trans ⟨⟨.or, p⟩ :: ws, by simp, ?_⟩ hvs
    intro ls hls
    exact .or hls hws
  · obtain ⟨rfl, rfl⟩ := (reads_disjunctionRest_stop hor).1 h
    exact .refl ..

theorem derives_disjunction (ih : ∀ us, us.length < ts.length → Derived f us)
    (h : Reads (disjunction f ts) e rest) : Opens .disjunction ts e rest := by
  obtain ⟨first, us, hfirst, h⟩ := reads_disjunction.1 h
  exact ((derives_conjunction ih hfirst).map fun _ => .conjunction).extend
    ((ih us hfirst.prop).disjunctionRest h)

theorem derives_expression (ih : ∀ us, us.length < ts.length → Derived f us)
    (h : Reads (expression f ts) e rest) : Opens .expression ts e rest := by
  obtain ⟨h, -⟩ | ⟨body, p, us, test, q, vs, orelse, hbody, htest, horelse, rfl⟩ :=
    reads_expression.1 h
  · exact (derives_disjunction ih h).map fun _ => .plain
  · have hus : us.length < ts.length := Nat.lt_of_succ_lt hbody.prop
    have hvs : vs.length < us.length := Nat.lt_of_succ_lt htest.prop
    obtain ⟨zs, rfl, hzs⟩ := (ih vs (Nat.lt_trans hvs hus)).expression horelse
    obtain ⟨ys, rfl, hys⟩ := (ih us hus).disjunction htest
    obtain ⟨xs, rfl, hxs⟩ := derives_disjunction ih hbody
    exact ⟨xs ++ ⟨.name "if", p⟩ :: (ys ++ ⟨.name "else", q⟩ :: zs), by simp,
      .conditional hxs hys hzs⟩

/-! ## Displays and arguments -/

theorem derives_items {close : Token} {name separator : String} {es : List Expr}
    (ih : ∀ us, us.length < ts.length → Derived f us) (hclose : close ≠ .comma)
    (h : Reads (items f close name separator ts) es rest) : Closes .items close ts es rest := by
  by_cases hfront : front ts = some close
  · obtain ⟨p, us, rfl⟩ := front_eq_some.1 hfront
    obtain ⟨rfl, rfl⟩ := reads_items_close.1 h
    exact ⟨[], p, rfl, .noItem⟩
  · obtain ⟨e, p, us, es', he, hes, rfl⟩ | ⟨e, p, he, rfl⟩ := (reads_items hclose hfront).1 h
    · obtain ⟨ws, q, rfl, hws⟩ := (ih us (Nat.lt_of_succ_lt he.prop)).items hclose hes
      obtain ⟨vs, rfl, hvs⟩ := derives_expression ih he
      exact ⟨vs ++ ⟨.comma, p⟩ :: ws, q, by simp, .item hvs hws⟩
    · obtain ⟨vs, rfl, hvs⟩ := derives_expression ih he
      exact ⟨vs, p, rfl, .lastItem hvs⟩

theorem derives_entries {es : List (Expr × Expr)} (ih : ∀ us, us.length < ts.length → Derived f us)
    (h : Reads (entries f ts) es rest) : Closes .entries .closeBrace ts es rest := by
  by_cases hfront : front ts = some .closeBrace
  · obtain ⟨p, us, rfl⟩ := front_eq_some.1 hfront
    obtain ⟨rfl, rfl⟩ := reads_entries_close.1 h
    exact ⟨[], p, rfl, .noEntry⟩
  · obtain ⟨k, p, us, v, vs, hk, hv, h⟩ := (reads_entries hfront).1 h
    have hus : us.length < ts.length := Nat.lt_of_succ_lt hk.prop
    have hvs : vs.length < us.length := hv.prop
    obtain ⟨q, ws, es', rfl, hes, rfl⟩ | ⟨q, rfl, rfl⟩ := h
    · have hws : ws.length < us.length := Nat.lt_of_succ_lt hvs
      obtain ⟨zs, r, rfl, hzs⟩ := (ih ws (Nat.lt_trans hws hus)).entries hes
      obtain ⟨ys, rfl, hys⟩ := (ih us hus).expression hv
      obtain ⟨xs, rfl, hxs⟩ := derives_expression ih hk
      exact ⟨xs ++ ⟨.colon, p⟩ :: (ys ++ ⟨.comma, q⟩ :: zs), r, by simp, .entry hxs hys hzs⟩
    · obtain ⟨ys, rfl, hys⟩ := (ih us hus).expression hv
      obtain ⟨xs, rfl, hxs⟩ := derives_expression ih hk
      exact ⟨xs ++ ⟨.colon, p⟩ :: ys, q, by simp, .lastEntry hxs hys⟩

end

/-! ## All calls -/

theorem derived (f : Nat) (ts : List Located) : Derived f ts := by
  induction hn : ts.length using Nat.strongRecOn generalizing ts with
  | _ n ih =>
    subst hn
    replace ih : ∀ us, us.length < ts.length → Derived f us := fun us hus => ih _ hus us rfl
    exact {
      expression := derives_expression ih
      disjunction := derives_disjunction ih
      disjunctionRest := derives_disjunctionRest ih
      conjunction := derives_conjunction ih
      conjunctionRest := derives_conjunctionRest ih
      negation := derives_negation ih
      chain := derives_chain ih
      sum := derives_sum ih
      sumRest := derives_sumRest ih
      product := derives_product ih
      productRest := derives_productRest ih
      signed := derives_signed ih
      postfixes := derives_postfixes ih
      items := derives_items ih
      entries := derives_entries ih }

end Deskhand.Expr
