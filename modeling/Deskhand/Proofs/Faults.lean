import Deskhand.Expr.Source
import Deskhand.Proofs.Blame

/-!
# Reading blames no name

A text that cannot be read is a matter of syntax, or of what is assigned to, and not of the names in
it. For the parser this is an induction on the number of tokens (`faultless`): the calls on fewer
tokens are taken from `Faultless`, those on the same tokens go down the levels of the grammar.
-/

namespace Deskhand.Expr

variable {α : Type} {P : String → Prop}

theorem blameless_tokensFrom (depth pos : Nat) (cs : List Char) :
    Blameless (tokensFrom depth pos cs) := by
  induction hn : cs.length using Nat.strongRecOn generalizing depth pos cs with
  | ind n ih =>
    rw [tokensFrom.eq_def]
    split
    · exact blames_ok _
    · next c cs =>
      split
      · exact blames_syntaxFault _ _
      · next s _ =>
        have hlt : s.rest.1.length < n := hn ▸ Nat.lt_succ_of_le s.rest.2
        have hmore := ih _ hlt (depthAfter depth s.token) s.finish s.rest.1 rfl
        split
        · next e he =>
          rw [he] at hmore
          exact fun name h => hmore name (by cases h; rfl)
        · split <;> exact blames_ok _

theorem blames_faultAt (finish : Nat) (ts : List Located) (fault : SyntaxFault) :
    Blames P (faultAt finish ts fault : Except ExprError α) := nofun

theorem blames_expect (finish : Nat) (t : Token) (what : String) (ts : List Located) :
    Blames P (expect finish t what ts) := by
  unfold expect
  split
  · split
    · exact blames_ok _
    · exact blames_faultAt _ _ _
  · exact blames_faultAt _ _ _

/-- A reader that goes on with what another has left. -/
theorem Blames.bindRest {β : Type} {q : List Located → Prop}
    {x : Except ExprError (α × { us : List Located // q us })}
    {g : α × { us : List Located // q us } → Except ExprError β} (hx : Blames P x)
    (hg : ∀ (a : α) (us : List Located) (hus : q us), Blames P (g (a, ⟨us, hus⟩))) :
    Blames P (x >>= g) :=
  hx.bind fun r => hg r.1 r.2.1 r.2.2

/-- No call on these tokens says that a name is undefined. -/
structure Faultless (f : Nat) (ts : List Located) : Prop where
  expression : Blameless (expression f ts)
  disjunctionRest (left : Expr) : Blameless (disjunctionRest f left ts)
  conjunction : Blameless (conjunction f ts)
  conjunctionRest (left : Expr) : Blameless (conjunctionRest f left ts)
  negation : Blameless (negation f ts)
  chain : Blameless (chain f ts)
  sum : Blameless (sum f ts)
  sumRest (left : Expr) : Blameless (sumRest f left ts)
  product : Blameless (product f ts)
  productRest (left : Expr) : Blameless (productRest f left ts)
  signed : Blameless (signed f ts)
  postfixes (base : Expr) : Blameless (postfixes f base ts)
  sliceEnd : Blameless (sliceEnd f ts)
  items (close : Token) (name separator : String) : Blameless (items f close name separator ts)
  entries : Blameless (entries f ts)

section

variable {f : Nat} {ts : List Located} (ih : ∀ us, us.length < ts.length → Faultless f us)

include ih

/-! ## Arithmetic -/

theorem blameless_factor : Blameless (factor f ts) := by
  rw [factor.eq_def]
  split
  · exact blames_faultAt _ _ _
  · next l rest =>
    have hrest := ih rest (Nat.lt_succ_self _)
    split
    · exact blames_ok _
    · split
      · refine hrest.expression.bindRest fun e us hus => ?_
        exact (blames_expect f _ _ _).bind fun _ => blames_ok _
      · exact (hrest.items _ _ _).bind fun _ => blames_ok _
      · exact hrest.entries.bind fun _ => blames_ok _
      · exact blames_syntaxFault _ _

theorem blameless_postfixed : Blameless (postfixed f ts) := by
  rw [postfixed]
  exact (blameless_factor ih).bindRest fun first us hus =>
    ((ih us hus).postfixes first).bind fun _ => blames_ok _

theorem blameless_signed : Blameless (signed f ts) := by
  rw [signed.eq_def]
  split
  · exact (ih _ (Nat.lt_succ_self _)).signed.bind fun _ => blames_ok _
  · exact (ih _ (Nat.lt_succ_self _)).signed.bind fun _ => blames_ok _
  · exact blameless_postfixed ih

theorem blameless_productRest (left : Expr) : Blameless (productRest f left ts) := by
  rw [productRest.eq_def]
  split
  · split
    · exact (ih _ (Nat.lt_succ_self _)).signed.bindRest fun right us hus =>
        ((ih us (Nat.lt_succ_of_lt hus)).productRest _).bind fun _ => blames_ok _
    · exact blames_ok _
  · exact blames_ok _

theorem blameless_product : Blameless (product f ts) := by
  rw [product]
  exact (blameless_signed ih).bindRest fun first us hus =>
    ((ih us hus).productRest first).bind fun _ => blames_ok _

theorem blameless_sumRest (left : Expr) : Blameless (sumRest f left ts) := by
  rw [sumRest.eq_def]
  split
  · split
    · exact (ih _ (Nat.lt_succ_self _)).product.bindRest fun right us hus =>
        ((ih us (Nat.lt_succ_of_lt hus)).sumRest _).bind fun _ => blames_ok _
    · exact blames_ok _
  · exact blames_ok _

theorem blameless_sum : Blameless (sum f ts) := by
  rw [sum]
  exact (blameless_product ih).bindRest fun first us hus =>
    ((ih us hus).sumRest first).bind fun _ => blames_ok _

/-! ## Logic -/

theorem blameless_chain : Blameless (chain f ts) := by
  rw [chain.eq_def]
  split
  · next op t _ =>
    exact (ih t.1 t.2).sum.bindRest fun e us hus =>
      (ih us (Nat.lt_trans hus t.2)).chain.bind fun _ => blames_ok _
  · exact blames_ok _

theorem blameless_comparison : Blameless (comparison f ts) := by
  rw [comparison]
  exact (blameless_sum ih).bindRest fun first us hus =>
    (ih us hus).chain.bind fun _ => blames_ok _

theorem blameless_negation : Blameless (negation f ts) := by
  rw [negation.eq_def]
  split
  · exact (ih _ (Nat.lt_succ_self _)).negation.bind fun _ => blames_ok _
  · exact blameless_comparison ih

theorem blameless_conjunctionRest (left : Expr) : Blameless (conjunctionRest f left ts) := by
  rw [conjunctionRest.eq_def]
  split
  · exact (ih _ (Nat.lt_succ_self _)).negation.bindRest fun right us hus =>
      ((ih us (Nat.lt_succ_of_lt hus)).conjunctionRest _).bind fun _ => blames_ok _
  · exact blames_ok _

theorem blameless_conjunction : Blameless (conjunction f ts) := by
  rw [conjunction]
  exact (blameless_negation ih).bindRest fun first us hus =>
    ((ih us hus).conjunctionRest first).bind fun _ => blames_ok _

theorem blameless_disjunctionRest (left : Expr) : Blameless (disjunctionRest f left ts) := by
  rw [disjunctionRest.eq_def]
  split
  · exact (ih _ (Nat.lt_succ_self _)).conjunction.bindRest fun right us hus =>
      ((ih us (Nat.lt_succ_of_lt hus)).disjunctionRest _).bind fun _ => blames_ok _
  · exact blames_ok _

theorem blameless_disjunction : Blameless (disjunction f ts) := by
  rw [disjunction]
  exact (blameless_conjunction ih).bindRest fun first us hus =>
    ((ih us hus).disjunctionRest first).bind fun _ => blames_ok _

/-! ## Expressions and what stands in brackets -/

theorem blameless_expression : Blameless (expression f ts) := by
  rw [expression]
  refine (blameless_disjunction ih).bindRest fun body us hus => ?_
  dsimp only
  split
  · next rest =>
    have hrest : rest.length < ts.length := Nat.lt_of_succ_lt hus
    have ihrest : ∀ vs, vs.length < rest.length → Faultless f vs :=
      fun vs hvs => ih vs (Nat.lt_trans hvs hrest)
    refine (blameless_disjunction ihrest).bindRest fun test vs hvs => ?_
    dsimp only
    split
    · exact (ihrest _ (Nat.lt_of_succ_lt hvs)).expression.bind fun _ => blames_ok _
    · exact blames_faultAt _ _ _
  · exact blames_ok _

theorem blameless_sliceEnd : Blameless (sliceEnd f ts) := by
  rw [sliceEnd.eq_def]
  split
  · exact blames_ok _
  · exact (blameless_expression ih).bindRest fun stop us hus =>
      (blames_expect f _ _ _).bind fun _ => blames_ok _

theorem blameless_subscript (base : Expr) : Blameless (subscript f base ts) := by
  rw [subscript.eq_def]
  split
  · exact (ih _ (Nat.lt_succ_self _)).sliceEnd.bind fun _ => blames_ok _
  · refine (blameless_expression ih).bindRest fun start us hus => ?_
    dsimp only
    split
    · exact (ih _ (Nat.lt_of_succ_lt hus)).sliceEnd.bind fun _ => blames_ok _
    · exact (blames_expect f _ _ _).bind fun _ => blames_ok _

theorem blameless_items (close : Token) (name separator : String) :
    Blameless (items f close name separator ts) := by
  rw [items.eq_def]
  split
  · split
    · exact blames_ok _
    · refine (blameless_expression ih).bindRest fun e us hus => ?_
      dsimp only
      split
      · exact ((ih _ (Nat.lt_of_succ_lt hus)).items _ _ _).bind fun _ => blames_ok _
      · split
        · exact blames_ok _
        · exact blames_faultAt _ _ _
      · exact blames_faultAt _ _ _
  · exact blames_faultAt _ _ _

theorem blameless_entries : Blameless (entries f ts) := by
  rw [entries.eq_def]
  split
  · exact blames_ok _
  · refine (blameless_expression ih).bindRest fun key us hus => ?_
    refine (blames_expect f _ _ _).bind fun vs => ?_
    have hlt : vs.1.length < ts.length := Nat.lt_trans vs.2 hus
    refine (ih vs.1 hlt).expression.bindRest fun value ws hws => ?_
    dsimp only
    split
    · exact (ih _ (Nat.lt_of_succ_lt (Nat.lt_trans hws hlt))).entries.bind fun _ => blames_ok _
    · exact blames_ok _
    · exact blames_faultAt _ _ _

theorem blameless_postfixes (base : Expr) : Blameless (postfixes f base ts) := by
  rw [postfixes.eq_def]
  split
  · next rest =>
    have ihrest : ∀ us, us.length < rest.length → Faultless f us :=
      fun us hus => ih us (Nat.lt_succ_of_lt hus)
    exact (blameless_subscript ihrest base).bindRest fun e us hus =>
      ((ihrest us hus).postfixes e).bind fun _ => blames_ok _
  · split
    · exact ((ih _ (Nat.lt_succ_self _)).items _ _ _).bindRest fun args us hus =>
        ((ih us (Nat.lt_succ_of_lt hus)).postfixes _).bind fun _ => blames_ok _
    · exact blames_syntaxFault _ _
  · next key _ rest =>
    have ihrest : ∀ us, us.length ≤ rest.length → Faultless f us :=
      fun us hus => ih us (by simp only [List.length_cons]; omega)
    exact ((ihrest rest (Nat.le_refl _)).items _ _ _).bindRest fun args us hus =>
      ((ihrest us (Nat.le_of_lt hus)).postfixes _).bind fun _ => blames_ok _
  · exact ((ih _ (by simp only [List.length_cons]; omega)).postfixes _).bind fun _ => blames_ok _
  · exact blames_faultAt _ _ _
  · exact blames_ok _

end

theorem faultless (f : Nat) (ts : List Located) : Faultless f ts := by
  induction hn : ts.length using Nat.strongRecOn generalizing ts with
  | ind n ih =>
    subst hn
    replace ih : ∀ us, us.length < ts.length → Faultless f us := fun us hus => ih _ hus us rfl
    exact {
      expression := blameless_expression ih
      disjunctionRest := blameless_disjunctionRest ih
      conjunction := blameless_conjunction ih
      conjunctionRest := blameless_conjunctionRest ih
      negation := blameless_negation ih
      chain := blameless_chain ih
      sum := blameless_sum ih
      sumRest := blameless_sumRest ih
      product := blameless_product ih
      productRest := blameless_productRest ih
      signed := blameless_signed ih
      postfixes := blameless_postfixes ih
      sliceEnd := blameless_sliceEnd ih
      items := blameless_items ih
      entries := blameless_entries ih }

/-! ## Texts -/

variable {f : Nat} {ts : List Located}

theorem blameless_parseExpression : Blameless (parseExpression f ts) := by
  refine (faultless f ts).expression.bindRest fun e us hus => ?_
  dsimp only
  split
  · exact blames_ok _
  · exact blames_faultAt _ _ _

theorem blames_asTarget (e : Expr) : Blames P (asTarget e) := by
  unfold asTarget
  split <;> simp

theorem blameless_statement : Blameless (statement f ts) := by
  refine (faultless f ts).expression.bindRest fun e us hus => ?_
  dsimp only
  split
  · split
    · refine (blames_asTarget e).bind fun target => ?_
      exact (faultless f _).expression.bind fun _ => blames_ok _
    · exact blames_ok _
  · exact blames_ok _

theorem blameless_parseSnippet (f : Nat) (ts : List Located) : Blameless (parseSnippet f ts) := by
  induction hn : ts.length using Nat.strongRecOn generalizing ts with
  | ind n ih =>
    rw [parseSnippet.eq_def]
    split
    · exact blames_ok _
    · exact ih _ (hn ▸ Nat.lt_succ_self _) _ rfl
    · refine blameless_statement.bindRest fun s us hus => ?_
      dsimp only
      split
      · exact blames_ok _
      · split
        · exact (ih _ (hn ▸ Nat.lt_of_succ_lt hus) _ rfl).bind fun _ => blames_ok _
        · exact blames_faultAt _ _ _

theorem blameless_readWith {parser : Nat → List Located → Except ExprError α}
    (h : ∀ f ts, Blameless (parser f ts)) (source : String) :
    Blameless (readWith parser source) :=
  (blameless_tokensFrom 0 0 _).bind fun _ => h _ _

theorem blameless_parse (source : String) : Blameless (parse source) :=
  blameless_readWith (fun _ _ => blameless_parseExpression) source

theorem blameless_parseStatements (source : String) : Blameless (parseStatements source) :=
  blameless_readWith blameless_parseSnippet source

end Deskhand.Expr
