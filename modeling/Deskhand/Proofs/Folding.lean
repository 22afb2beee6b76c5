import Deskhand.Expr.Lexer
import Deskhand.Proofs.Derivations
import Deskhand.Value.Basic

/-!
# A minus is folded into a number without overflow

The numbers in a text carry no sign, so the integers among its tokens lie between 0 and the greatest
word (`counting_tokens`). An expression made from such tokens is an integer only if it is one of
them with signs in front, so that its negation is a word again (`fold_in_range`).
-/

namespace Deskhand.Expr

/-! ## The integers among the tokens of a text -/

/-- An integer token as the lexer makes it. -/
def Token.Counts (t : Token) : Prop := ∀ n, t = .int n → 0 ≤ n ∧ n ≤ Word.maxInt

/-- All integers among the tokens are such. -/
def Counting (ts : List Located) : Prop := ∀ l ∈ ts, l.token.Counts

/-- The characters of a numeral end, in reverse, with those it began with. -/
theorem suffix_numeral (acc : List Char) (real : Bool) (pos : Nat) (cs : List Char) :
    acc <:+ (numeral acc real pos cs).value.1 := by
  fun_induction numeral acc real pos cs with
  | case1 => exact List.suffix_refl _
  | case2 acc real pos c rest _ ih => exact (List.suffix_cons c acc).trans ih
  | case3 _ _ _ _ _ ih => exact ih
  | case4 acc _ _ _ _ _ _ _ ih => exact (List.suffix_cons '.' acc).trans ih
  | case5 acc _ _ _ _ _ _ _ _ ih =>
    exact ((List.suffix_cons 'e' acc).trans (List.suffix_cons '-' _)).trans ih
  | case6 acc _ _ _ _ _ _ _ _ ih =>
    exact ((List.suffix_cons 'e' acc).trans (List.suffix_cons '+' _)).trans ih
  | case7 acc _ _ _ _ _ _ _ _ _ _ ih => exact (List.suffix_cons 'e' acc).trans ih
  | case8 => exact List.suffix_refl _

theorem splitSign_digit {c : Char} {cs : List Char} (hc : c.isDigit) :
    splitSign (c :: cs) = (false, c :: cs) := by
  unfold splitSign
  split
  · next h =>
    cases h
    cases hc
  · next h =>
    cases h
    cases hc
  · rfl

theorem readInt64_digit {c : Char} {cs : List Char} {n : Int} (hc : c.isDigit)
    (h : readInt64? (String.ofList (c :: cs)) = some n) : 0 ≤ n ∧ n ≤ Word.maxInt := by
  simp only [readInt64?, String.toList_ofList, splitSign_digit hc] at h
  split at h
  · cases h
  · next k hk =>
    simp only [Bool.false_eq_true, if_false] at h
    split at h
    · next hrange =>
      cases h
      exact ⟨Int.natCast_nonneg k, hrange.2⟩
    · cases h

theorem counts_numeral {c : Char} {pos : Nat} {cs : List Char} {t : Token} (hc : c.isDigit)
    (h : ofNumeral (numeral [c] false pos cs).value.1 (numeral [c] false pos cs).value.2 = .ok t) :
    t.Counts := by
  rintro n rfl
  obtain ⟨ds, hds⟩ := suffix_numeral [c] false pos cs
  unfold ofNumeral at h
  dsimp only at h
  split at h
  · split at h <;> cases h
  · split at h
    · next k hk =>
      cases h
      rw [← hds, List.reverse_append, List.reverse_singleton, List.singleton_append] at hk
      exact readInt64_digit hc hk
    · cases h

theorem counts_sign {c : Char} {t : Token} (h : sign? c = some t) : t.Counts := by
  unfold sign? at h
  split at h <;> cases h <;> rintro n ⟨⟩

theorem counts_longSign {c d : Char} {long short : Token}
    (h : longSign? c = some (d, long, short)) : long.Counts ∧ short.Counts := by
  unfold longSign? at h
  split at h <;> cases h <;> refine ⟨?_, ?_⟩ <;> rintro n ⟨⟩

theorem counts_doubleSign {c : Char} {whole : String} {t : Token}
    (h : doubleSign? c = some (whole, t)) : t.Counts := by
  unfold doubleSign? at h
  split at h <;> cases h <;> rintro n ⟨⟩

theorem counts_ofWord (word : String) : (Token.ofWord word).Counts := by
  unfold Token.ofWord
  split <;> rintro n ⟨⟩

theorem counts_scan {depth pos : Nat} {c : Char} {cs : List Char} {s : Scan cs} {t : Token}
    (h : scan depth c pos cs = .ok s) (ht : s.token = some t) : t.Counts := by
  unfold scan at h
  split at h
  · cases h
    cases ht
  split at h
  · cases h
    split at ht <;> cases ht
    rintro n ⟨⟩
  split at h
  · next hdigit =>
    dsimp only at h
    cases hnum : ofNumeral (numeral [c] false (pos + 1) cs).value.1
        (numeral [c] false (pos + 1) cs).value.2 with
    | error x =>
      rw [hnum] at h
      cases h
    | ok t' =>
      rw [hnum] at h
      cases h
      cases ht
      exact counts_numeral hdigit hnum
  split at h
  · cases h
    cases ht
    exact counts_ofWord _
  split at h
  · split at h
    · cases h
      cases ht
      rintro n ⟨⟩
    · cases h
  split at h
  · next hsign =>
    cases h
    cases ht
    exact counts_sign hsign
  · next hlong _ =>
    have hcounts := counts_longSign hlong
    split at h
    · split at h <;> cases h <;> cases ht
      · exact hcounts.1
      · exact hcounts.2
    · cases h
      cases ht
      exact hcounts.2
  · next hdouble _ _ =>
    split at h
    · split at h <;> cases h
      cases ht
      exact counts_doubleSign hdouble
    · cases h
  · cases h

theorem counting_tokensFrom {depth pos : Nat} {cs : List Char} {ts : List Located}
    (h : tokensFrom depth pos cs = .ok ts) : Counting ts := by
  fun_induction tokensFrom depth pos cs generalizing ts with
  | case1 =>
    cases h
    simp [Counting]
  | case2 => cases h
  | case3 => cases h
  | case4 depth pos c cs s hs more hmore t ht ih =>
    cases h
    intro l hl
    obtain rfl | hl := List.mem_cons.1 hl
    · exact counts_scan hs ht
    · exact ih hmore l hl
  | case5 depth pos c cs s hs more hmore ht ih =>
    cases h
    exact ih hmore

/-! ## The integers among the expressions -/

/-- If the expression is an integer, its negation is a word. -/
def Negatable : Expr → Prop
  | .int n => -Word.maxInt ≤ n ∧ n ≤ Word.maxInt
  | _ => True

/-- The property holds of what a part denotes if that is one expression. -/
def Part.Yields (P : Expr → Prop) : (part : Part) → part.Yield → Prop
  | .links, _ | .bound, _ | .items, _ | .entries, _ => True
  | .expression, e | .disjunction, e | .conjunction, e | .negation, e | .comparison, e | .sum, e
  | .product, e | .signed, e | .postfixed, e | .factor, e => P e

theorem Derives.negatable {strict : Bool} {part : Part} {us : List Located} {y : part.Yield}
    (h : Derives strict part us y) (hus : Counting us) : part.Yields Negatable y := by
  induction h with
  | plain _ ih | conjunction _ ih | negation _ ih | comparison _ ih | product _ ih | signed _ ih
  | postfixed _ ih | factor _ ih => exact ih hus
  | plus _ ih => exact ih fun l hl => hus l (List.mem_cons_of_mem _ hl)
  | parens _ ih => exact ih fun l hl => hus l (by simp [hl])
  | @compared us vs first links _ _ ih _ =>
    have hfirst : Negatable first := ih fun l hl => hus l (by simp [hl])
    show Negatable (Expr.compared first links)
    unfold Expr.compared
    split
    · exact hfirst
    · trivial
  | @minus us p e _ ih =>
    have he : Negatable e := ih fun l hl => hus l (List.mem_cons_of_mem _ hl)
    show Negatable (negated e)
    cases e with
    | int n =>
      simp only [Negatable, negated] at he ⊢
      omega
    | _ => trivial
  | @token t p e ht =>
    show Negatable e
    cases t with
    | int n =>
      cases ht
      have hn : 0 ≤ n ∧ n ≤ Word.maxInt := hus _ List.mem_cons_self n rfl
      simp only [Negatable, Word.maxInt] at hn ⊢
      omega
    | _ => cases ht <;> trivial
  | _ => trivial

/-- Wherever an operand of the tokens of a text is read as an integer, a minus in front of it can be
folded into it. -/
theorem fold_in_range {text : List Char} {ts us : List Located} {f : Nat} {n : Int}
    {rest : Shorter us} (hts : tokens text = .ok ts) (hus : us <:+ ts)
    (h : signed f us = .ok (.int n, rest)) : Value.IsInt64 (-n) := by
  obtain ⟨vs, hvs, hderives⟩ := (derived f us).signed ⟨rest.2, h⟩
  have hcounting : Counting vs := by
    intro l hl
    refine counting_tokensFrom hts l (hus.subset ?_)
    rw [hvs]
    exact List.mem_append_left _ hl
  have hn : Negatable (.int n) := hderives.negatable hcounting
  simp only [Negatable, Value.IsInt64, Word.minInt, Word.maxInt] at hn ⊢
  omega

end Deskhand.Expr
