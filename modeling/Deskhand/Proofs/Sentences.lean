import Deskhand.Proofs.Derivations

/-!
# Every sentence is read, and all of it

Put in front of tokens that cannot go on with it, a sentence of a part is read by the function that
the part is for, which stops at its end (`Derives.readable`). Which tokens cannot go on with a part
is a matter of levels: the operators that may stand behind a part all have a higher level than those
in it (`Stops`). A part with a loop is told what the loop goes on to read, since its sentences group
to the left and its function reads from the left. As a call reads one thing only, a run of tokens is
a sentence of a part in at most one way (`Derives.unique`).
-/

namespace Deskhand.Expr

/-! ## The token behind a part -/

/-- The level of the grammar whose loop a token goes on with. -/
def Token.level : Token → Nat
  | .openSquare | .openParen | .dot => 0
  | .mul | .div | .floorDiv | .modulo => 1
  | .add | .sub => 2
  | .equal | .notEqual | .less | .lessEqual | .greater | .greaterEqual | .isIn | .isSame | .not => 3
  | .and => 4
  | .or => 5
  | .name s => if s = "if" then 6 else 7
  | _ => 7

/-- The tokens are at their end or begin above a level. -/
def Stops (level : Nat) (ts : List Located) : Prop := ∀ t, front ts = some t → level < t.level

variable {f k : Nat} {ts us vs rest rest' : List Located} {t : Token} {p : Nat} {e e' : Expr}

@[simp] theorem stops_cons : Stops k (⟨t, p⟩ :: us) ↔ k < t.level := by
  simp [Stops]

theorem Stops.mono {j : Nat} (h : Stops k ts) (hjk : j ≤ k) : Stops j ts :=
  fun t ht => Nat.lt_of_le_of_lt hjk (h t ht)

theorem Stops.front_ne (h : Stops k ts) (ht : t.level ≤ k) : front ts ≠ some t :=
  fun hfront => Nat.not_lt_of_le ht (h t hfront)

theorem Stops.sumOp (h : Stops 2 ts) : ∀ t, front ts = some t → sumOp? t = none := by
  intro t ht
  have hlevel := h t ht
  cases t <;> simp_all [Token.level, sumOp?]

theorem Stops.productOp (h : Stops 1 ts) : ∀ t, front ts = some t → productOp? t = none := by
  intro t ht
  have hlevel := h t ht
  cases t <;> simp_all [Token.level, productOp?]

theorem Stops.comparator (h : Stops 3 ts) : comparator? ts = none := by
  cases ts with
  | nil => rfl
  | cons l us =>
    obtain ⟨t, p⟩ := l
    rw [stops_cons] at h
    cases t <;> simp_all [Token.level, comparator?]

theorem level_sumOp {op : BinaryOp} (h : sumOp? t = some op) : t.level = 2 := by
  cases t <;> simp_all [Token.level, sumOp?]

theorem level_productOp {op : BinaryOp} (h : productOp? t = some op) : t.level = 1 := by
  cases t <;> simp_all [Token.level, productOp?]

theorem level_assignOp {op : AssignOp} (h : assignOp? t = some op) : t.level = 7 := by
  cases t <;> simp_all [Token.level, assignOp?]

/-! ## The token in front of a part -/

/-- How far up the grammar the parts are that a token begins: factors, signed operands, negations,
none. -/
def Token.lead : Token → Nat
  | .int _ | .real _ | .text _ | .yes | .no | .nothing | .name _ => 0
  | .openParen | .openSquare | .openBrace => 0
  | .add | .sub => 1
  | .not => 2
  | _ => 3

/-- The parts that begin with a token of a bounded lead; the others may be empty. -/
def Part.lead : Part → Nat
  | .factor | .postfixed => 0
  | .signed | .product | .sum | .comparison => 1
  | .negation | .conjunction | .disjunction | .expression => 2
  | .links | .bound | .items | .entries => 3

theorem lead_ofToken (h : ofToken? t = some e) : t.lead = 0 := by
  cases t <;> simp_all [Token.lead, ofToken?]

theorem front_append (h : front us = some t) : front (us ++ vs) = some t := by
  obtain ⟨p, ws, rfl⟩ := front_eq_some.1 h
  rfl

theorem Derives.begins {strict : Bool} {part : Part} {y : part.Yield}
    (h : Derives strict part us y) (hpart : part.lead < 3) :
    ∃ t, front us = some t ∧ t.lead ≤ part.lead := by
  induction h with
  | plain _ ih => exact ih (by decide)
  | negation _ ih => exact ih (by decide)
  | conjunction _ ih => exact ih (by decide)
  | signed _ ih => exact ih (by decide)
  | product _ ih => exact ih (by decide)
  | factor _ ih => exact ih (by decide)
  | comparison _ ih | postfixed _ ih =>
    obtain ⟨t, ht, hlead⟩ := ih (by decide)
    exact ⟨t, ht, Nat.le_succ_of_le hlead⟩
  | conditional _ _ _ ih | or _ _ ih | and _ _ ih | compared _ _ ih | sum _ _ _ ih
  | multiple _ _ _ ih | index _ _ ih | slice _ _ _ ih | call _ _ _ ih | method _ _ ih | attr _ ih =>
    obtain ⟨t, ht, hlead⟩ := ih (by decide)
    exact ⟨t, front_append ht, hlead⟩
  | not | minus | plus | parens | list | dict => exact ⟨_, rfl, Nat.le_refl _⟩
  | token ht => exact ⟨_, rfl, Nat.le_of_eq (lead_ofToken ht)⟩
  | _ => exact absurd hpart (by decide)

theorem Derives.front_ne {strict : Bool} {part : Part} {y : part.Yield}
    (h : Derives strict part us y) (hpart : part.lead < 3) (ht : part.lead < t.lead) :
    front (us ++ vs) ≠ some t := by
  obtain ⟨t', ht', hlead⟩ := h.begins hpart
  rw [front_append ht']
  rintro ⟨⟩
  omega

/-! ## Comparisons -/

theorem comparator_of_spelled {op : CompareOp} {cs : List Located}
    (hcs : cs.map Located.token = op.tokens) (hnot : front us ≠ some .not) :
    ∃ h, comparator? (cs ++ us) = some (op, ⟨us, h⟩) := by
  match cs with
  | [] => cases op <;> cases hcs
  | [⟨t, p⟩] =>
    cases op <;> cases hcs
    case isSame =>
      refine ⟨by simp, ?_⟩
      -- The token behind `is` decides between two comparisons.
      match us with
      | [] => rfl
      | ⟨t, q⟩ :: vs =>
        cases t with
        | not => simp at hnot
        | _ => rfl
    all_goals exact ⟨by simp, rfl⟩
  | [⟨t, p⟩, ⟨t', p'⟩] =>
    have hlt : us.length < us.length + 2 := Nat.lt_add_of_pos_right (by decide)
    cases op <;> cases hcs <;> exact ⟨hlt, rfl⟩
  | _ :: _ :: _ :: _ => cases op <;> simp [CompareOp.tokens] at hcs

theorem level_spelled {op : CompareOp} {cs : List Located}
    (hcs : cs.map Located.token = op.tokens) : ∃ t, front cs = some t ∧ t.level = 3 := by
  cases cs with
  | nil => cases op <;> cases hcs
  | cons c cs =>
    refine ⟨c.token, rfl, ?_⟩
    cases op <;> simp_all [CompareOp.tokens, Token.level]

theorem Derives.links_stop {strict : Bool} {links : List (CompareOp × Expr)}
    (h : Derives strict .links us links) (hrest : Stops 3 rest) : Stops 2 (us ++ rest) := by
  cases h with
  | noLink => exact hrest.mono (by decide)
  | link hcs _ _ =>
    obtain ⟨t, ht, hlevel⟩ := level_spelled hcs
    intro t' ht'
    rw [List.append_assoc, front_append ht] at ht'
    cases ht'
    omega

/-! ## Reading a sentence -/

/-- The tokens are read as the part by its function, whatever stands behind them that cannot go on
with the part. Where the function has a loop, it is enough to know what the loop reads behind
them. -/
def Readable (f : Nat) : (part : Part) → List Located → part.Yield → Prop
  | .expression, us, e => ∀ rest, Stops 6 rest → Reads (expression f (us ++ rest)) e rest
  | .disjunction, us, e => ∀ rest e' rest', Stops 4 rest →
      Reads (disjunctionRest f e rest) e' rest' → Reads (disjunction f (us ++ rest)) e' rest'
  | .conjunction, us, e => ∀ rest e' rest', Stops 3 rest →
      Reads (conjunctionRest f e rest) e' rest' → Reads (conjunction f (us ++ rest)) e' rest'
  | .negation, us, e => ∀ rest, Stops 3 rest → Reads (negation f (us ++ rest)) e rest
  | .comparison, us, e => ∀ rest, Stops 3 rest → Reads (comparison f (us ++ rest)) e rest
  | .links, us, links => ∀ rest, Stops 3 rest → Reads (chain f (us ++ rest)) links rest
  | .sum, us, e => ∀ rest e' rest', Stops 1 rest →
      Reads (sumRest f e rest) e' rest' → Reads (sum f (us ++ rest)) e' rest'
  | .product, us, e => ∀ rest e' rest', Stops 0 rest →
      Reads (productRest f e rest) e' rest' → Reads (product f (us ++ rest)) e' rest'
  | .signed, us, e => ∀ rest, Stops 0 rest → Reads (signed f (us ++ rest)) e rest
  | .postfixed, us, e => ∀ rest e' rest',
      Reads (postfixes f e rest) e' rest' → Reads (postfixed f (us ++ rest)) e' rest'
  | .factor, us, e => ∀ rest, Reads (factor f (us ++ rest)) e rest
  | .bound, us, stop => ∀ e, stop = some e → ∀ rest, Stops 6 rest →
      Reads (expression f (us ++ rest)) e rest
  | .items, us, es => ∀ close name separator p rest, 6 < close.level → 2 < close.lead →
      close ≠ .comma → Reads (items f close name separator (us ++ ⟨close, p⟩ :: rest)) es rest
  | .entries, us, es => ∀ p rest, Reads (entries f (us ++ ⟨.closeBrace, p⟩ :: rest)) es rest

theorem Readable.disjunction (h : Readable f .disjunction us e) (hrest : Stops 5 rest) :
    Reads (disjunction f (us ++ rest)) e rest :=
  h rest e rest (hrest.mono (by decide))
    ((reads_disjunctionRest_stop (hrest.front_ne (by decide))).2 ⟨rfl, rfl⟩)

theorem Readable.conjunction (h : Readable f .conjunction us e) (hrest : Stops 4 rest) :
    Reads (conjunction f (us ++ rest)) e rest :=
  h rest e rest (hrest.mono (by decide))
    ((reads_conjunctionRest_stop (hrest.front_ne (by decide))).2 ⟨rfl, rfl⟩)

theorem Readable.sum (h : Readable f .sum us e) (hrest : Stops 2 rest) :
    Reads (sum f (us ++ rest)) e rest :=
  h rest e rest (hrest.mono (by decide)) ((reads_sumRest_stop hrest.sumOp).2 ⟨rfl, rfl⟩)

theorem Readable.product (h : Readable f .product us e) (hrest : Stops 1 rest) :
    Reads (product f (us ++ rest)) e rest :=
  h rest e rest (hrest.mono (by decide)) ((reads_productRest_stop hrest.productOp).2 ⟨rfl, rfl⟩)

theorem Readable.postfixed (h : Readable f .postfixed us e) (hrest : Stops 0 rest) :
    Reads (postfixed f (us ++ rest)) e rest :=
  h rest e rest ((reads_postfixes_stop (hrest.front_ne (by decide)) (hrest.front_ne (by decide))
    (hrest.front_ne (by decide))).2 ⟨rfl, rfl⟩)

/-- Behind the colon of a slice. -/
theorem Derives.read_sliceEnd {strict : Bool} {stop : Option Expr}
    (h : Derives strict .bound us stop) (hread : Readable f .bound us stop) (p : Nat)
    (rest : List Located) : Reads (sliceEnd f (us ++ ⟨.closeSquare, p⟩ :: rest)) stop rest := by
  cases h with
  | unbounded => exact reads_sliceEnd_close.2 ⟨rfl, rfl⟩
  | @bounded _ e h =>
    refine (reads_sliceEnd (h.front_ne (by decide) (by decide))).2 ⟨e, p, ?_, rfl⟩
    exact hread e rfl _ (by simp [Token.level])

theorem Derives.readable {strict : Bool} {part : Part} {y : part.Yield}
    (h : Derives strict part us y) (f : Nat) : Readable f part us y := by
  induction h with
  | plain _ ih =>
    intro rest hrest
    refine reads_expression.2 (.inl ⟨ih.disjunction (hrest.mono (by decide)), ?_⟩)
    exact hrest.front_ne (by decide)
  | @conditional us vs ws p q body test orelse _ _ _ ihbody ihtest ihorelse =>
    intro rest hrest
    refine reads_expression.2 (.inr ⟨body, p, vs ++ ⟨.name "else", q⟩ :: (ws ++ rest), test, q,
      ws ++ rest, orelse, ?_, ?_, ihorelse rest hrest, rfl⟩)
    · rw [List.append_assoc, List.cons_append, List.append_assoc, List.cons_append]
      exact ihbody.disjunction (by simp [Token.level])
    · exact ihtest.disjunction (by simp [Token.level])
  | conjunction _ ih =>
    intro rest e' rest' hrest hmore
    exact reads_disjunction.2 ⟨_, _, ih.conjunction hrest, hmore⟩
  | @or us vs p l r _ _ ihl ihr =>
    intro rest e' rest' hrest hmore
    rw [List.append_assoc, List.cons_append]
    refine ihl _ _ _ (by simp [Token.level]) (reads_disjunctionRest_or.2 ⟨r, rest, ?_, hmore⟩)
    exact ihr.conjunction hrest
  | negation _ ih =>
    intro rest e' rest' hrest hmore
    exact reads_conjunction.2 ⟨_, _, ih rest hrest, hmore⟩
  | @and us vs p l r _ _ ihl ihr =>
    intro rest e' rest' hrest hmore
    rw [List.append_assoc, List.cons_append]
    refine ihl _ _ _ (by simp [Token.level]) (reads_conjunctionRest_and.2 ⟨r, rest, ?_, hmore⟩)
    exact ihr rest hrest
  | comparison h ih =>
    intro rest hrest
    rw [negation_of_front (h.front_ne (by decide) (by decide))]
    exact ih rest hrest
  | not _ ih =>
    intro rest hrest
    exact reads_negation_not.2 ⟨_, ih rest hrest, rfl⟩
  | @compared us vs first links _ hlinks ihfirst ihlinks =>
    intro rest hrest
    rw [List.append_assoc]
    refine reads_comparison.2 ⟨first, vs ++ rest, links, ?_, ihlinks rest hrest, rfl⟩
    exact ihfirst.sum (hlinks.links_stop hrest)
  | noLink =>
    intro rest hrest
    exact (reads_chain_stop hrest.comparator).2 ⟨rfl, rfl⟩
  | @link cs us vs op e links hcs he hlinks ihe ihlinks =>
    intro rest hrest
    rw [List.append_assoc, List.append_assoc]
    have hnot : front (us ++ (vs ++ rest)) ≠ some .not := he.front_ne (by decide) (by decide)
    obtain ⟨_, hop⟩ := comparator_of_spelled hcs hnot
    refine (reads_chain_op hop).2 ⟨e, vs ++ rest, links, ?_, ihlinks rest hrest, rfl⟩
    exact ihe.sum (hlinks.links_stop hrest)
  | product _ ih =>
    intro rest e' rest' hrest hmore
    exact reads_sum.2 ⟨_, _, ih.product hrest, hmore⟩
  | @sum us vs t p op l r _ hop _ ihl ihr =>
    intro rest e' rest' hrest hmore
    rw [List.append_assoc, List.cons_append]
    refine ihl _ _ _ (by simp [level_sumOp hop]) ((reads_sumRest_op hop).2 ⟨r, rest, ?_, hmore⟩)
    exact ihr.product hrest
  | signed _ ih =>
    intro rest e' rest' hrest hmore
    exact reads_product.2 ⟨_, _, ih rest hrest, hmore⟩
  | @multiple us vs t p op l r _ hop _ ihl ihr =>
    intro rest e' rest' hrest hmore
    rw [List.append_assoc, List.cons_append]
    refine ihl _ _ _ (by simp [level_productOp hop])
      ((reads_productRest_op hop).2 ⟨r, rest, ?_, hmore⟩)
    exact ihr rest hrest
  | postfixed h ih =>
    intro rest hrest
    rw [signed_of_front (h.front_ne (by decide) (by decide)) (h.front_ne (by decide) (by decide))]
    exact ih.postfixed hrest
  | minus _ ih =>
    intro rest hrest
    exact reads_signed_sub.2 ⟨_, ih rest hrest, rfl⟩
  | plus _ ih =>
    intro rest hrest
    exact reads_signed_add.2 (ih rest hrest)
  | factor _ ih =>
    intro rest e' rest' hmore
    exact reads_postfixed.2 ⟨_, _, ih rest, hmore⟩
  | @index us vs p q base i _ hi ihbase ihi =>
    intro rest e' rest' hmore
    rw [List.append_assoc, List.cons_append, List.append_assoc, List.singleton_append]
    refine ihbase _ _ _ (reads_postfixes_openSquare.2 ⟨_, rest, ?_, hmore⟩)
    refine (reads_subscript (hi.front_ne (by decide) (by decide))).2 (.inr ⟨i, q, ?_, rfl⟩)
    exact ihi _ (by simp [Token.level])
  | @slice us vs ws p q r base start stop _ hstart hstop ihbase ihstart ihstop =>
    intro rest e' rest' hmore
    rw [List.append_assoc, List.cons_append, List.append_assoc, List.cons_append, List.append_assoc,
      List.singleton_append]
    refine ihbase _ _ _ (reads_postfixes_openSquare.2 ⟨_, rest, ?_, hmore⟩)
    have hend := hstop.read_sliceEnd ihstop r rest
    cases hstart with
    | unbounded => exact reads_subscript_colon.2 ⟨stop, hend, rfl⟩
    | @bounded _ e hs =>
      refine (reads_subscript (hs.front_ne (by decide) (by decide))).2
        (.inl ⟨e, q, _, stop, ?_, hend, rfl⟩)
      exact ihstart e rfl _ (by simp [Token.level])
  | @call us vs p q function args _ _ _ ihcallee ihargs =>
    intro rest e' rest' hmore
    rw [List.append_assoc, List.cons_append, List.append_assoc, List.singleton_append]
    refine ihcallee _ _ _ (reads_postfixes_openParen.2 ⟨function, args, rest, rfl, ?_, hmore⟩)
    exact ihargs _ _ _ _ _ (by decide) (by decide) (by decide)
  | @method us vs p q r s base key args _ _ ihbase ihargs =>
    intro rest e' rest' hmore
    rw [List.append_assoc, List.cons_append, List.cons_append, List.cons_append, List.append_assoc,
      List.singleton_append]
    refine ihbase _ _ _ (reads_postfixes_method.2 ⟨args, rest, ?_, hmore⟩)
    exact ihargs _ _ _ _ _ (by decide) (by decide) (by decide)
  | @attr us p q base key _ ih =>
    intro rest e' rest' hmore
    rw [List.append_assoc, List.cons_append, List.singleton_append]
    refine ih _ _ _ ((reads_postfixes_attr ?_).2 hmore)
    -- An attribute with an argument list behind it is a method, and cannot be called.
    intro hparen
    obtain ⟨r, vs, rfl⟩ := front_eq_some.1 hparen
    obtain ⟨_, _, _, hname, -⟩ := reads_postfixes_openParen.1 hmore
    cases hname
  | unbounded =>
    intro e he
    cases he
  | bounded _ ih =>
    intro e he rest hrest
    cases he
    exact ih rest hrest
  | token ht =>
    intro rest
    exact (reads_factor_token ht).2 ⟨rfl, rfl⟩
  | @parens us p q e _ ih =>
    intro rest
    rw [List.cons_append, List.append_assoc, List.singleton_append]
    exact reads_factor_openParen.2 ⟨q, ih _ (by simp [Token.level])⟩
  | list _ ih =>
    intro rest
    rw [List.cons_append, List.append_assoc, List.singleton_append]
    exact reads_factor_openSquare.2 ⟨_, ih _ _ _ _ _ (by decide) (by decide) (by decide), rfl⟩
  | dict _ ih =>
    intro rest
    rw [List.cons_append, List.append_assoc, List.singleton_append]
    exact reads_factor_openBrace.2 ⟨_, ih _ _, rfl⟩
  | noItem =>
    intro close name separator p rest hlevel hlead hcomma
    exact reads_items_close.2 ⟨rfl, rfl⟩
  | lastItem h ih =>
    intro close name separator p rest hlevel hlead hcomma
    refine (reads_items hcomma (h.front_ne (by decide) hlead)).2 (.inr ⟨_, p, ?_, rfl⟩)
    exact ih _ (by simpa using hlevel)
  | @item us vs q e es h _ ihe ihes =>
    intro close name separator p rest hlevel hlead hcomma
    rw [List.append_assoc, List.cons_append]
    refine (reads_items hcomma (h.front_ne (by decide) hlead)).2 (.inl ⟨e, q, _, es, ?_,
      ihes _ _ _ p rest hlevel hlead hcomma, rfl⟩)
    exact ihe _ (by simp [Token.level])
  | noEntry =>
    intro p rest
    exact reads_entries_close.2 ⟨rfl, rfl⟩
  | @lastEntry us vs q k v hk _ ihk ihv =>
    intro p rest
    rw [List.append_assoc, List.cons_append]
    refine (reads_entries (hk.front_ne (by decide) (by decide))).2
      ⟨k, q, vs ++ ⟨.closeBrace, p⟩ :: rest, v, _, ?_, ?_, .inr ⟨p, rfl, rfl⟩⟩
    · exact ihk _ (by simp [Token.level])
    · exact ihv _ (by simp [Token.level])
  | @entry us vs ws q r k v es hk _ _ ihk ihv ihes =>
    intro p rest
    rw [List.append_assoc, List.cons_append, List.append_assoc, List.cons_append]
    refine (reads_entries (hk.front_ne (by decide) (by decide))).2
      ⟨k, q, vs ++ ⟨.comma, r⟩ :: (ws ++ ⟨.closeBrace, p⟩ :: rest), v, _, ?_, ?_,
        .inl ⟨r, _, es, rfl, ihes p rest, rfl⟩⟩
    · exact ihk _ (by simp [Token.level])
    · exact ihv _ (by simp [Token.level])

/-! ## At most one reading -/

theorem stops_nil : Stops k [] := by
  simp [Stops]

/-- No run of tokens denotes two things as sentences of one part. -/
theorem Derives.unique {strict : Bool} {part : Part} {y y' : part.Yield}
    (h : Derives strict part us y) (h' : Derives strict part us y') : y = y' := by
  have hread := h.readable 0
  have hread' := h'.readable 0
  cases part with
  | expression => exact ((hread [] stops_nil).unique (hread' [] stops_nil)).1
  | disjunction => exact ((hread.disjunction stops_nil).unique (hread'.disjunction stops_nil)).1
  | conjunction => exact ((hread.conjunction stops_nil).unique (hread'.conjunction stops_nil)).1
  | negation => exact ((hread [] stops_nil).unique (hread' [] stops_nil)).1
  | comparison => exact ((hread [] stops_nil).unique (hread' [] stops_nil)).1
  | links => exact ((hread [] stops_nil).unique (hread' [] stops_nil)).1
  | sum => exact ((hread.sum stops_nil).unique (hread'.sum stops_nil)).1
  | product => exact ((hread.product stops_nil).unique (hread'.product stops_nil)).1
  | signed => exact ((hread [] stops_nil).unique (hread' [] stops_nil)).1
  | postfixed => exact ((hread.postfixed stops_nil).unique (hread'.postfixed stops_nil)).1
  | factor => exact ((hread []).unique (hread' [])).1
  | bound => exact ((h.read_sliceEnd hread 0 []).unique (h'.read_sliceEnd hread' 0 [])).1
  | items =>
    have hitems := hread .closeParen "" "" 0 [] (by decide) (by decide) (by decide)
    exact (hitems.unique (hread' .closeParen "" "" 0 [] (by decide) (by decide) (by decide))).1
  | entries => exact ((hread 0 []).unique (hread' 0 [])).1

end Deskhand.Expr
