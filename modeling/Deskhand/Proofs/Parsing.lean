import Deskhand.Expr.Parser
import Deskhand.Proofs.Fallible

/-!
# What one call of a parser function reads

Every function of the parser is taken apart once, by equivalences that say from which calls it puts
its result together and what it then leaves of the tokens. The proofs that what is left is shorter
stay inside `Reads`.
-/

namespace Deskhand.Expr

/-- This was read, and these tokens are left. -/
def Reads {α : Type} {P : List Located → Prop} (r : Except ExprError (α × { rest // P rest }))
    (a : α) (rest : List Located) : Prop :=
  ∃ h : P rest, r = .ok (a, ⟨rest, h⟩)

section Reads

variable {α β : Type} {P Q : List Located → Prop} {r : Except ExprError (α × { rest // P rest })}
  {a b : α} {rest rest' : List Located}

theorem Reads.prop (h : Reads r a rest) : P rest := h.1

/-- A call reads one thing only. -/
theorem Reads.unique (h : Reads r a rest) (h' : Reads r b rest') : a = b ∧ rest = rest' := by
  obtain ⟨hrest, rfl⟩ := h
  obtain ⟨hrest', h'⟩ := h'
  cases h'
  exact ⟨rfl, rfl⟩

theorem reads_ok {u : { rest // P rest }} : Reads (.ok (a, u)) b rest ↔ b = a ∧ rest = u.1 := by
  constructor
  · rintro ⟨h, heq⟩
    cases heq
    exact ⟨rfl, rfl⟩
  · rintro ⟨rfl, rfl⟩
    exact ⟨u.2, rfl⟩

theorem not_reads_error {x : ExprError} : ¬ Reads (P := P) (.error x) a rest := by
  intro h
  cases h.2

theorem reads_bind {F : α × { us // P us } → Except ExprError (β × { us // Q us })} {b : β} :
    Reads (r >>= F) b rest ↔
      ∃ a us, ∃ h : P us, r = .ok (a, ⟨us, h⟩) ∧ Reads (F (a, ⟨us, h⟩)) b rest := by
  constructor
  · rintro ⟨hrest, h⟩
    obtain ⟨⟨a, us, hus⟩, ha, h⟩ := bind_eq_ok h
    exact ⟨a, us, hus, ha, hrest, h⟩
  · rintro ⟨a, us, hus, rfl, h⟩
    exact h

end Reads

/-! ## Tokens -/

/-- The token in front, if there is one. -/
def front (ts : List Located) : Option Token := ts.head?.map Located.token

@[simp] theorem front_nil : front [] = none := rfl

@[simp] theorem front_cons {l : Located} {ts : List Located} : front (l :: ts) = some l.token := rfl

theorem front_eq_some {t : Token} {ts : List Located} :
    front ts = some t ↔ ∃ p us, ts = ⟨t, p⟩ :: us := by
  cases ts with
  | nil => simp
  | cons l us =>
    obtain ⟨t', p⟩ := l
    simp

variable {f : Nat} {ts rest us : List Located} {e left base : Expr} {t : Token} {p : Nat}

/-- Tokens either go on with an operation or do not. -/
theorem exists_op {op? : Token → Option BinaryOp} (h : ¬ ∀ t, front ts = some t → op? t = none) :
    ∃ t p us op, ts = ⟨t, p⟩ :: us ∧ op? t = some op := by
  cases ts with
  | nil => simp at h
  | cons l us =>
    obtain ⟨op, hop⟩ := Option.ne_none_iff_exists'.1 fun hnone => h (by simpa using hnone)
    exact ⟨l.token, l.offset, us, op, rfl, hop⟩

theorem reads_expect {α : Type} {P : List Located → Prop} {what : String} {b : α}
    {F : Shorter us → Except ExprError (α × { rest // P rest })} :
    Reads (expect f t what us >>= F) b rest ↔
      ∃ p vs, ∃ h : vs.length < us.length, us = ⟨t, p⟩ :: vs ∧ Reads (F ⟨vs, h⟩) b rest := by
  unfold expect
  split
  · next l vs =>
    obtain ⟨t', p⟩ := l
    split
    · next ht =>
      cases ht
      constructor
      · intro h
        exact ⟨p, vs, Nat.lt_succ_self _, rfl, h⟩
      · rintro ⟨p', vs', hvs, heq, h⟩
        cases heq
        exact h
    · next ht =>
      refine iff_of_false not_reads_error ?_
      rintro ⟨p', vs', hvs, heq, -⟩
      cases heq
      exact ht rfl
  · refine iff_of_false not_reads_error ?_
    rintro ⟨p', vs', hvs, heq, -⟩
    cases heq

/-! ## Conditionals and the operators of logic -/

theorem reads_expression : Reads (expression f ts) e rest ↔
    (Reads (disjunction f ts) e rest ∧ front rest ≠ some (.name "if")) ∨
    ∃ body p us test q vs orelse, Reads (disjunction f ts) body (⟨.name "if", p⟩ :: us) ∧
      Reads (disjunction f us) test (⟨.name "else", q⟩ :: vs) ∧
      Reads (expression f vs) orelse rest ∧ e = .conditional test body orelse := by
  rw [expression]
  simp only [reads_bind]
  constructor
  · rintro ⟨body, us, hus, hbody, h⟩
    split at h
    · obtain ⟨test, vs, hvs, htest, h⟩ := reads_bind.1 h
      dsimp only at h
      split at h
      · obtain ⟨orelse, ws, hws, horelse, h⟩ := reads_bind.1 h
        obtain ⟨rfl, rfl⟩ := reads_ok.1 h
        exact .inr ⟨_, _, _, _, _, _, _, ⟨hus, hbody⟩, ⟨hvs, htest⟩, ⟨hws, horelse⟩, rfl⟩
      · exact absurd h not_reads_error
    · next hif =>
      obtain ⟨rfl, rfl⟩ := reads_ok.1 h
      refine .inl ⟨⟨hus, hbody⟩, fun hfront => ?_⟩
      obtain ⟨p, vs, rfl⟩ := front_eq_some.1 hfront
      exact hif _ _ rfl
  · rintro (⟨⟨hus, hbody⟩, hif⟩ | ⟨body, p, us, test, q, vs, orelse, ⟨hus, hbody⟩, ⟨hvs, htest⟩,
      ⟨hws, horelse⟩, rfl⟩)
    · refine ⟨_, _, hus, hbody, ?_⟩
      split
      · simp at hif
      · exact reads_ok.2 ⟨rfl, rfl⟩
    · refine ⟨_, _, hus, hbody, reads_bind.2 ⟨_, _, hvs, htest, ?_⟩⟩
      exact reads_bind.2 ⟨_, _, hws, horelse, reads_ok.2 ⟨rfl, rfl⟩⟩

theorem reads_disjunction : Reads (disjunction f ts) e rest ↔
    ∃ first us, Reads (conjunction f ts) first us ∧ Reads (disjunctionRest f first us) e rest := by
  rw [disjunction]
  simp only [reads_bind, reads_ok, Shorter.andMaybe]
  simp [Reads]

theorem reads_disjunctionRest_or : Reads (disjunctionRest f left (⟨.or, p⟩ :: us)) e rest ↔
    ∃ right vs, Reads (conjunction f us) right vs ∧
      Reads (disjunctionRest f (.or left right) vs) e rest := by
  rw [disjunctionRest]
  simp only [reads_bind, reads_ok, Shorter.andMaybe, Shorter.weaken, Shorter.afterHead]
  simp [Reads]

theorem reads_disjunctionRest_stop (h : front ts ≠ some .or) :
    Reads (disjunctionRest f left ts) e rest ↔ e = left ∧ rest = ts := by
  rw [disjunctionRest]
  · exact reads_ok
  · rintro p us rfl
    simp at h

theorem reads_conjunction : Reads (conjunction f ts) e rest ↔
    ∃ first us, Reads (negation f ts) first us ∧ Reads (conjunctionRest f first us) e rest := by
  rw [conjunction]
  simp only [reads_bind, reads_ok, Shorter.andMaybe]
  simp [Reads]

theorem reads_conjunctionRest_and : Reads (conjunctionRest f left (⟨.and, p⟩ :: us)) e rest ↔
    ∃ right vs, Reads (negation f us) right vs ∧
      Reads (conjunctionRest f (.and left right) vs) e rest := by
  rw [conjunctionRest]
  simp only [reads_bind, reads_ok, Shorter.andMaybe, Shorter.weaken, Shorter.afterHead]
  simp [Reads]

theorem reads_conjunctionRest_stop (h : front ts ≠ some .and) :
    Reads (conjunctionRest f left ts) e rest ↔ e = left ∧ rest = ts := by
  rw [conjunctionRest]
  · exact reads_ok
  · rintro p us rfl
    simp at h

theorem reads_negation_not : Reads (negation f (⟨.not, p⟩ :: us)) e rest ↔
    ∃ e', Reads (negation f us) e' rest ∧ e = .not e' := by
  rw [negation]
  simp only [reads_bind, reads_ok, Shorter.weaken, Shorter.afterHead]
  simp [Reads]

theorem negation_of_front (h : front ts ≠ some .not) : negation f ts = comparison f ts := by
  rw [negation]
  rintro p us rfl
  simp at h

/-! ## Comparisons -/

theorem reads_comparison : Reads (comparison f ts) e rest ↔
    ∃ first us links, Reads (sum f ts) first us ∧ Reads (chain f us) links rest ∧
      e = if links.isEmpty then first else .compare first links := by
  rw [comparison]
  simp only [reads_bind, reads_ok, Shorter.andMaybe]
  simp [Reads]

theorem reads_chain_op {op : CompareOp} {u : Shorter ts} {links : List (CompareOp × Expr)}
    (hop : comparator? ts = some (op, u)) : Reads (chain f ts) links rest ↔
      ∃ e vs more, Reads (sum f u.1) e vs ∧ Reads (chain f vs) more rest ∧
        links = (op, e) :: more := by
  rw [chain, hop]
  simp only [reads_bind, reads_ok, Shorter.andMaybe, Shorter.andThen, Shorter.weaken]
  simp [Reads]

theorem reads_chain_stop {links : List (CompareOp × Expr)} (hop : comparator? ts = none) :
    Reads (chain f ts) links rest ↔ links = [] ∧ rest = ts := by
  rw [chain, hop]
  exact reads_ok

/-! ## Arithmetic -/

theorem reads_sum : Reads (sum f ts) e rest ↔
    ∃ first us, Reads (product f ts) first us ∧ Reads (sumRest f first us) e rest := by
  rw [sum]
  simp only [reads_bind, reads_ok, Shorter.andMaybe]
  simp [Reads]

theorem reads_sumRest_op {op : BinaryOp} (hop : sumOp? t = some op) :
    Reads (sumRest f left (⟨t, p⟩ :: us)) e rest ↔
      ∃ right vs, Reads (product f us) right vs ∧
        Reads (sumRest f (.binary left op right) vs) e rest := by
  rw [sumRest]
  simp only [hop, reads_bind, reads_ok, Shorter.andMaybe, Shorter.weaken, Shorter.afterHead]
  simp [Reads]

theorem reads_sumRest_stop (h : ∀ t, front ts = some t → sumOp? t = none) :
    Reads (sumRest f left ts) e rest ↔ e = left ∧ rest = ts := by
  rw [sumRest.eq_def]
  cases ts with
  | nil => exact reads_ok
  | cons l us =>
    simp only [h l.token rfl]
    exact reads_ok

theorem reads_product : Reads (product f ts) e rest ↔
    ∃ first us, Reads (signed f ts) first us ∧ Reads (productRest f first us) e rest := by
  rw [product]
  simp only [reads_bind, reads_ok, Shorter.andMaybe]
  simp [Reads]

theorem reads_productRest_op {op : BinaryOp} (hop : productOp? t = some op) :
    Reads (productRest f left (⟨t, p⟩ :: us)) e rest ↔
      ∃ right vs, Reads (signed f us) right vs ∧
        Reads (productRest f (.binary left op right) vs) e rest := by
  rw [productRest]
  simp only [hop, reads_bind, reads_ok, Shorter.andMaybe, Shorter.weaken, Shorter.afterHead]
  simp [Reads]

theorem reads_productRest_stop (h : ∀ t, front ts = some t → productOp? t = none) :
    Reads (productRest f left ts) e rest ↔ e = left ∧ rest = ts := by
  rw [productRest.eq_def]
  cases ts with
  | nil => exact reads_ok
  | cons l us =>
    simp only [h l.token rfl]
    exact reads_ok

theorem reads_signed_sub : Reads (signed f (⟨.sub, p⟩ :: us)) e rest ↔
    ∃ e', Reads (signed f us) e' rest ∧ e = negated e' := by
  rw [signed]
  simp only [reads_bind, reads_ok, Shorter.weaken, Shorter.afterHead]
  simp [Reads]

theorem reads_signed_add : Reads (signed f (⟨.add, p⟩ :: us)) e rest ↔
    Reads (signed f us) e rest := by
  rw [signed]
  simp only [reads_bind, reads_ok, Shorter.weaken, Shorter.afterHead]
  simp [Reads]

theorem signed_of_front (h : front ts ≠ some .sub) (h' : front ts ≠ some .add) :
    signed f ts = postfixed f ts := by
  rw [signed]
  · rintro p us rfl
    simp at h
  · rintro p us rfl
    simp at h'

/-! ## Subscripts, calls and attributes -/

theorem reads_postfixed : Reads (postfixed f ts) e rest ↔
    ∃ first us, Reads (factor f ts) first us ∧ Reads (postfixes f first us) e rest := by
  rw [postfixed]
  simp only [reads_bind, reads_ok, Shorter.andMaybe]
  simp [Reads]

theorem reads_postfixes_openSquare : Reads (postfixes f base (⟨.openSquare, p⟩ :: us)) e rest ↔
    ∃ e' vs, Reads (subscript f base us) e' vs ∧ Reads (postfixes f e' vs) e rest := by
  rw [postfixes]
  simp only [reads_bind, reads_ok, Shorter.andMaybe, Shorter.weaken, Shorter.afterHead]
  simp [Reads]

theorem reads_postfixes_openParen : Reads (postfixes f base (⟨.openParen, p⟩ :: us)) e rest ↔
    ∃ function args vs, base = .name function ∧
      Reads (items f .closeParen "')'" "',' or ')'" us) args vs ∧
      Reads (postfixes f (.call function args) vs) e rest := by
  rw [postfixes.eq_def]
  dsimp only
  split
  · simp only [reads_bind, reads_ok, Shorter.andMaybe, Shorter.weaken, Shorter.afterHead]
    simp [Reads]
  · next hname =>
    simp only [not_reads_error, false_iff]
    rintro ⟨function, -, -, rfl, -⟩
    exact hname _ rfl

theorem reads_postfixes_method {key : String} {q r : Nat} :
    Reads (postfixes f base (⟨.dot, p⟩ :: ⟨.name key, q⟩ :: ⟨.openParen, r⟩ :: us)) e rest ↔
      ∃ args vs, Reads (items f .closeParen "')'" "',' or ')'" us) args vs ∧
        Reads (postfixes f (.method base key args) vs) e rest := by
  rw [postfixes]
  simp only [reads_bind, reads_ok, Shorter.andMaybe, Shorter.weaken, Shorter.afterHead]
  simp [Reads]

theorem reads_postfixes_attr {key : String} {q : Nat} (h : front us ≠ some .openParen) :
    Reads (postfixes f base (⟨.dot, p⟩ :: ⟨.name key, q⟩ :: us)) e rest ↔
      Reads (postfixes f (.attr base key) us) e rest := by
  rw [postfixes]
  · simp only [reads_bind, reads_ok, Shorter.weaken, Shorter.afterHead]
    simp [Reads]
  · rintro r vs rfl
    simp at h

theorem not_reads_postfixes_dot (h : ∀ key, front us ≠ some (.name key)) :
    ¬ Reads (postfixes f base (⟨.dot, p⟩ :: us)) e rest := by
  rw [postfixes]
  · exact not_reads_error
  · rintro key q r vs rfl
    simp at h
  · rintro key q vs rfl
    simp at h

theorem reads_postfixes_stop (hsquare : front ts ≠ some .openSquare)
    (hparen : front ts ≠ some .openParen) (hdot : front ts ≠ some .dot) :
    Reads (postfixes f base ts) e rest ↔ e = base ∧ rest = ts := by
  rw [postfixes]
  · exact reads_ok
  · rintro p us rfl
    simp at hsquare
  · rintro p us rfl
    simp at hparen
  · rintro p key q r us rfl
    simp at hdot
  · rintro p key q us rfl
    simp at hdot
  · rintro p us rfl
    simp at hdot

theorem reads_subscript_colon : Reads (subscript f base (⟨.colon, p⟩ :: us)) e rest ↔
    ∃ stop, Reads (sliceEnd f us) stop rest ∧ e = .slice base none stop := by
  rw [subscript]
  simp only [reads_bind, reads_ok, Shorter.weaken, Shorter.afterHead]
  simp [Reads]

theorem reads_subscript (h : front ts ≠ some .colon) : Reads (subscript f base ts) e rest ↔
    (∃ start p us stop, Reads (expression f ts) start (⟨.colon, p⟩ :: us) ∧
      Reads (sliceEnd f us) stop rest ∧ e = .slice base (some start) stop) ∨
    ∃ i p, Reads (expression f ts) i (⟨.closeSquare, p⟩ :: rest) ∧ e = .index base i := by
  rw [subscript]
  · simp only [reads_bind]
    constructor
    · rintro ⟨start, us, hus, hstart, h⟩
      split at h
      · obtain ⟨stop, vs, hvs, hstop, h⟩ := reads_bind.1 h
        obtain ⟨rfl, rfl⟩ := reads_ok.1 h
        exact .inl ⟨_, _, _, _, ⟨hus, hstart⟩, ⟨hvs, hstop⟩, rfl⟩
      · obtain ⟨p, vs, hvs, rfl, h⟩ := reads_expect.1 h
        obtain ⟨rfl, rfl⟩ := reads_ok.1 h
        exact .inr ⟨_, _, ⟨hus, hstart⟩, rfl⟩
    · rintro (⟨start, p, us, stop, ⟨hus, hstart⟩, ⟨hrest, hstop⟩, rfl⟩ |
        ⟨i, p, ⟨hus, hi⟩, rfl⟩)
      · refine ⟨_, _, hus, hstart, reads_bind.2 ⟨_, _, hrest, hstop, ?_⟩⟩
        exact reads_ok.2 ⟨rfl, rfl⟩
      · refine ⟨_, _, hus, hi, reads_expect.2 ⟨p, rest, Nat.lt_succ_self _, rfl, ?_⟩⟩
        exact reads_ok.2 ⟨rfl, rfl⟩
  · rintro p us rfl
    simp at h

theorem reads_sliceEnd_close {stop : Option Expr} :
    Reads (sliceEnd f (⟨.closeSquare, p⟩ :: us)) stop rest ↔ stop = none ∧ rest = us := by
  rw [sliceEnd]
  exact reads_ok

theorem reads_sliceEnd {stop : Option Expr} (h : front ts ≠ some .closeSquare) :
    Reads (sliceEnd f ts) stop rest ↔
      ∃ e p, Reads (expression f ts) e (⟨.closeSquare, p⟩ :: rest) ∧ stop = some e := by
  rw [sliceEnd]
  · simp only [reads_bind]
    constructor
    · rintro ⟨e, us, hus, he, h⟩
      obtain ⟨p, vs, hvs, rfl, h⟩ := reads_expect.1 h
      obtain ⟨rfl, rfl⟩ := reads_ok.1 h
      exact ⟨_, _, ⟨hus, he⟩, rfl⟩
    · rintro ⟨e, p, ⟨hus, he⟩, rfl⟩
      refine ⟨_, _, hus, he, reads_expect.2 ⟨p, rest, Nat.lt_succ_self _, rfl, ?_⟩⟩
      exact reads_ok.2 ⟨rfl, rfl⟩
  · rintro p us rfl
    simp at h

/-! ## Displays and arguments -/

theorem reads_items_close {close : Token} {name separator : String} {es : List Expr} :
    Reads (items f close name separator (⟨close, p⟩ :: us)) es rest ↔ es = [] ∧ rest = us := by
  rw [items, if_pos rfl]
  exact reads_ok

theorem reads_items {close : Token} {name separator : String} {es : List Expr}
    (hclose : close ≠ .comma) (h : front ts ≠ some close) :
    Reads (items f close name separator ts) es rest ↔
      (∃ e p us es', Reads (expression f ts) e (⟨.comma, p⟩ :: us) ∧
        Reads (items f close name separator us) es' rest ∧ es = e :: es') ∨
      ∃ e p, Reads (expression f ts) e (⟨close, p⟩ :: rest) ∧ es = [e] := by
  cases ts with
  | nil =>
    rw [items]
    refine iff_of_false not_reads_error ?_
    rintro (⟨e, p, us, es', he, -⟩ | ⟨e, p, he, -⟩) <;> exact absurd he.prop (Nat.not_lt_zero _)
  | cons l ts =>
    rw [items, if_neg (fun hl => h (congrArg some hl))]
    simp only [reads_bind]
    constructor
    · rintro ⟨e, us, hus, he, h⟩
      split at h
      · obtain ⟨es', vs, hvs, hes, h⟩ := reads_bind.1 h
        obtain ⟨rfl, rfl⟩ := reads_ok.1 h
        exact .inl ⟨_, _, _, _, ⟨hus, he⟩, ⟨hvs, hes⟩, rfl⟩
      · next next more hcomma =>
        split at h
        · next hnext =>
          obtain ⟨rfl, rfl⟩ := reads_ok.1 h
          obtain ⟨t, p⟩ := next
          cases hnext
          exact .inr ⟨_, _, ⟨hus, he⟩, rfl⟩
        · exact absurd h not_reads_error
      · exact absurd h not_reads_error
    · rintro (⟨e, p, us, es', ⟨hus, he⟩, ⟨hrest, hes⟩, rfl⟩ | ⟨e, p, ⟨hus, he⟩, rfl⟩)
      · refine ⟨_, _, hus, he, reads_bind.2 ⟨_, _, hrest, hes, ?_⟩⟩
        exact reads_ok.2 ⟨rfl, rfl⟩
      · refine ⟨_, _, hus, he, ?_⟩
        split
        · next heq =>
          cases heq
          exact absurd rfl hclose
        · next heq =>
          cases heq
          simp [reads_ok]
        · next heq => cases heq

theorem reads_entries_close {es : List (Expr × Expr)} :
    Reads (entries f (⟨.closeBrace, p⟩ :: us)) es rest ↔ es = [] ∧ rest = us := by
  rw [entries]
  exact reads_ok

theorem reads_entries {es : List (Expr × Expr)} (h : front ts ≠ some .closeBrace) :
    Reads (entries f ts) es rest ↔ ∃ k p us v vs, Reads (expression f ts) k (⟨.colon, p⟩ :: us) ∧
      Reads (expression f us) v vs ∧
      ((∃ q ws es', vs = ⟨.comma, q⟩ :: ws ∧ Reads (entries f ws) es' rest ∧ es = (k, v) :: es') ∨
        ∃ q, vs = ⟨.closeBrace, q⟩ :: rest ∧ es = [(k, v)]) := by
  rw [entries]
  · simp only [reads_bind]
    constructor
    · rintro ⟨k, us, hus, hk, h⟩
      obtain ⟨p, us', hus', rfl, h⟩ := reads_expect.1 h
      obtain ⟨v, vs, hvs, hv, h⟩ := reads_bind.1 h
      refine ⟨k, p, us', v, vs, ⟨hus, hk⟩, ⟨hvs, hv⟩, ?_⟩
      dsimp only at h
      split at h
      · obtain ⟨es', ws, hws, hes, h⟩ := reads_bind.1 h
        obtain ⟨rfl, rfl⟩ := reads_ok.1 h
        exact .inl ⟨_, _, _, rfl, ⟨hws, hes⟩, rfl⟩
      · obtain ⟨rfl, rfl⟩ := reads_ok.1 h
        exact .inr ⟨_, rfl, rfl⟩
      · exact absurd h not_reads_error
    · rintro ⟨k, p, us, v, vs, ⟨hus, hk⟩, ⟨hvs, hv⟩, h⟩
      refine ⟨_, _, hus, hk, reads_expect.2 ⟨p, us, Nat.lt_succ_self _, rfl,
        reads_bind.2 ⟨_, _, hvs, hv, ?_⟩⟩⟩
      obtain ⟨q, ws, es', rfl, ⟨hrest, hes⟩, rfl⟩ | ⟨q, rfl, rfl⟩ := h
      · refine reads_bind.2 ⟨_, _, hrest, hes, ?_⟩
        exact reads_ok.2 ⟨rfl, rfl⟩
      · exact reads_ok.2 ⟨rfl, rfl⟩
  · rintro p us rfl
    simp at h

/-! ## Factors -/

theorem reads_factor_token {e' : Expr} (ht : ofToken? t = some e') :
    Reads (factor f (⟨t, p⟩ :: us)) e rest ↔ e = e' ∧ rest = us := by
  rw [factor]
  simp only [ht]
  exact reads_ok

theorem reads_factor_openParen : Reads (factor f (⟨.openParen, p⟩ :: us)) e rest ↔
    ∃ q, Reads (expression f us) e (⟨.closeParen, q⟩ :: rest) := by
  rw [factor]
  simp only [ofToken?, reads_bind]
  constructor
  · rintro ⟨e, vs, hvs, he, h⟩
    obtain ⟨q, ws, hws, rfl, h⟩ := reads_expect.1 h
    obtain ⟨rfl, rfl⟩ := reads_ok.1 h
    exact ⟨q, hvs, he⟩
  · rintro ⟨q, hvs, he⟩
    refine ⟨_, _, hvs, he, reads_expect.2 ⟨q, rest, Nat.lt_succ_self _, rfl, ?_⟩⟩
    exact reads_ok.2 ⟨rfl, rfl⟩

theorem reads_factor_openSquare : Reads (factor f (⟨.openSquare, p⟩ :: us)) e rest ↔
    ∃ es, Reads (items f .closeSquare "']'" "',' or ']'" us) es rest ∧ e = .list es := by
  rw [factor]
  simp only [ofToken?, reads_bind, reads_ok, Shorter.weaken, Shorter.afterHead]
  simp [Reads]

theorem reads_factor_openBrace : Reads (factor f (⟨.openBrace, p⟩ :: us)) e rest ↔
    ∃ es, Reads (entries f us) es rest ∧ e = .dict es := by
  rw [factor]
  simp only [ofToken?, reads_bind, reads_ok, Shorter.weaken, Shorter.afterHead]
  simp [Reads]

theorem not_reads_factor (ht : ofToken? t = none) (hparen : t ≠ .openParen)
    (hsquare : t ≠ .openSquare) (hbrace : t ≠ .openBrace) :
    ¬ Reads (factor f (⟨t, p⟩ :: us)) e rest := by
  rw [factor]
  simp only [ht]
  exact not_reads_error

/-! ## Statements -/

theorem asTarget_eq_ok {target : Target} : asTarget e = .ok target ↔ e.toTarget? = some target := by
  unfold asTarget
  split
  · next h => simp [h]
  · next h => simp [h]

theorem reads_statement {s : Statement} : Reads (statement f ts) s rest ↔
    (∃ e, Reads (expression f ts) e rest ∧ (∀ t, front rest = some t → assignOp? t = none) ∧
      s = .expr e) ∨
    ∃ e t p us op target value, Reads (expression f ts) e (⟨t, p⟩ :: us) ∧ assignOp? t = some op ∧
      e.toTarget? = some target ∧ Reads (expression f us) value rest ∧
      s = .assign target op value := by
  unfold statement
  simp only [reads_bind]
  constructor
  · rintro ⟨e, us, hus, he, h⟩
    split at h
    · next l vs =>
      split at h
      · next op hop =>
        cases htarget : asTarget e with
        | error x =>
          rw [htarget] at h
          exact absurd h not_reads_error
        | ok target =>
          rw [htarget] at h
          obtain ⟨value, ws, hws, hvalue, h⟩ := reads_bind.1 h
          obtain ⟨rfl, rfl⟩ := reads_ok.1 h
          exact .inr ⟨e, l.token, l.offset, vs, op, target, value, ⟨hus, he⟩, hop,
            asTarget_eq_ok.1 htarget, ⟨hws, hvalue⟩, rfl⟩
      · next hop =>
        obtain ⟨rfl, rfl⟩ := reads_ok.1 h
        exact .inl ⟨e, ⟨hus, he⟩, by simpa using hop, rfl⟩
    · obtain ⟨rfl, rfl⟩ := reads_ok.1 h
      exact .inl ⟨e, ⟨hus, he⟩, by simp, rfl⟩
  · rintro (⟨e, ⟨hus, he⟩, hop, rfl⟩ |
      ⟨e, t, p, us, op, target, value, ⟨hus, he⟩, hop, htarget, ⟨hrest, hvalue⟩, rfl⟩)
    · refine ⟨_, _, hus, he, ?_⟩
      split
      · next l vs =>
        split
        · next op' hop' => simp [hop l.token rfl] at hop'
        · exact reads_ok.2 ⟨rfl, rfl⟩
      · exact reads_ok.2 ⟨rfl, rfl⟩
    · refine ⟨_, _, hus, he, ?_⟩
      dsimp only
      rw [asTarget_eq_ok.2 htarget]
      split
      · next op' hop' =>
        cases hop.symm.trans hop'
        refine reads_bind.2 ⟨_, _, hrest, hvalue, ?_⟩
        exact reads_ok.2 ⟨rfl, rfl⟩
      · next hop' => cases hop.symm.trans hop'

@[simp] theorem parseSnippet_nil : parseSnippet f [] = .ok [] := by
  rw [parseSnippet]

@[simp] theorem parseSnippet_semicolon :
    parseSnippet f (⟨.semicolon, p⟩ :: us) = parseSnippet f us := by
  rw [parseSnippet]

theorem parseSnippet_eq_ok {ss : List Statement} (hts : ts ≠ [])
    (hsemicolon : front ts ≠ some .semicolon) : parseSnippet f ts = .ok ss ↔
      ∃ s us, Reads (statement f ts) s us ∧ ((us = [] ∧ ss = [s]) ∨
        ∃ p vs ss', us = ⟨.semicolon, p⟩ :: vs ∧ parseSnippet f vs = .ok ss' ∧ ss = s :: ss') := by
  rw [parseSnippet]
  · constructor
    · intro h
      obtain ⟨⟨s, us, hus⟩, hs, h⟩ := bind_eq_ok h
      refine ⟨s, us, ⟨hus, hs⟩, ?_⟩
      dsimp only at h
      split at h
      · cases h
        exact .inl ⟨rfl, rfl⟩
      · next l vs =>
        split at h
        · next hl =>
          obtain ⟨ss', hss, h⟩ := bind_eq_ok h
          cases h
          exact .inr ⟨l.offset, vs, ss', by rw [← hl], hss, rfl⟩
        · cases h
    · rintro ⟨s, us, ⟨hus, hs⟩, ⟨rfl, rfl⟩ | ⟨p, vs, ss', rfl, hss, rfl⟩⟩
      · simp only [hs, bind, Except.bind]
      · simp only [hs, bind, Except.bind, hss]
        rfl
  · rintro rfl
    exact hts rfl
  · rintro p us rfl
    simp at hsemicolon

end Deskhand.Expr
