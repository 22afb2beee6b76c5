import Deskhand.Proofs.Calm
import Deskhand.Proofs.Identifiers
import Deskhand.Proofs.Origins
import Deskhand.Proofs.Snapshots
import Deskhand.Proofs.WholeNumbers

/-!
# Counted loops

A counted loop is made of three instructions that name its counter: one sets it to zero, the test
compares it with the count, and the end of the loop counts it up. The first reads the name as a
target, the other two take it as it is. So a loop goes round as often as its count says if its counter
is a name that is read as itself, such as every identifier, and so if it was given none
(`Expr.isIdentifier_counterName`). With another name it goes on from what the variable of that name
happens to hold (`Mission.counted_loop_counts`), which is mostly nothing
(`Mission.not_counted_loop_counts`).
-/

namespace Deskhand

/-! ## Writing to a target -/

namespace Expr

/-- The empty text is no target. -/
theorem readTarget_empty : readTarget "" = .error (.syntaxFault 0 .unexpectedEnd) := by
  have hnone : tokens [] = .ok [] := tokensFrom_nil 0 0
  change (tokens [] >>= fun ts => parseTarget 0 ts) = _
  rw [hnone]
  change (parseExpression 0 [] >>= asTarget) = _
  simp [parseExpression, expression, disjunction, conjunction, negation, comparison, sum, product,
    signed, postfixed, factor, bind, Except.bind, faultAt, offsetAt]

end Expr

namespace SymbolTable

theorem write_empty (v : Value) (t : SymbolTable) : (t.write "" v).1 = t := by
  unfold write
  rw [Expr.readTarget_empty]

/-- A name that is the target of its own text is written to. -/
theorem get?_write_self {source name : String} (h : Expr.readTarget source = .ok ⟨name, []⟩)
    (v : Value) (t : SymbolTable) : (t.write source v).1.get? name = some v := by
  have hassign : Expr.assign ⟨name, []⟩ .set v t.vars = (t.vars.put name v, none) := rfl
  unfold write
  rw [h]
  dsimp only
  rw [hassign]
  exact Entries.get?_put_self name v t.vars

end SymbolTable

/-! ## What the instructions do -/

theorem Text.trim_of_isBlankText {s : String} (h : isBlankText s = true) : trim s = "" := by
  have hdrop : dropBlanks s.toList = [] := List.dropWhile_eq_nil_iff.2 (List.all_eq_true.1 h)
  unfold trim trimChars
  rw [hdrop]
  rfl

namespace StepM

open Block (zeroArgs)

variable (counter : String) (c : StepContext) (w : Workspace)

/-- Setting a counter to zero writes to it as a target, and does nothing else. -/
theorem result_zeroed : ∃ r, (fillData (zeroArgs counter)).result c w =
    (r, { w with symbols := (w.symbols.write (Text.trim counter) (.int 0)).1 }) := by
  have hread : (FillData.read (zeroArgs counter)).result c w =
      (.ok ⟨"direct", .int 0, Text.trim counter, ""⟩, w) := rfl
  unfold fillData
  rw [result_bind_of_ok hread]
  dsimp only
  by_cases hblank : Text.trim counter = ""
  · rw [if_pos hblank, hblank, SymbolTable.write_empty]
    exact ⟨_, rfl⟩
  · rw [if_neg hblank]
    change ∃ r, (FillData.assign ⟨"direct", .int 0, Text.trim counter, ""⟩).result c w = _
    have hvalue : (valueOf (.int 0)).result c w = (.ok (.int 0), w) := rfl
    unfold FillData.assign
    rw [result_bind_of_ok hvalue]
    exact ⟨_, result_withSymbols _ _ _⟩

/-- The count of a loop, if it is the literal of an integer. -/
theorem result_count {count : String} {n : Nat} (h : readInt64? (Text.trim count) = some (n : Int))
    (hn : n < 2 ^ 53) :
    ∃ x, (numberOr .zero (.text count)).result c w = (.ok x, w) ∧ Binary64.Whole n x := by
  obtain ⟨x, hx, hwhole⟩ := readReal?_of_readInt64? h hn
  have hgiven : (Value.text count).isBlank = false := by
    refine Bool.eq_false_iff.2 fun hblank => ?_
    have hnothing : readInt64? "" = none := rfl
    rw [Text.trim_of_isBlankText hblank, hnothing] at h
    cases h
  have hread : (Value.text count).text?.bind (fun s => readReal? (Text.trim s)) = some x :=
    (Option.bind_some count _).trans hx
  refine ⟨x, ?_, hwhole⟩
  have hnumber : (numberOf (.text count)).result c w = (.ok (some x), w) := by
    unfold numberOf
    rw [hgiven, hread]
    rfl
  exact (result_bind_of_ok hnumber).trans rfl

theorem result_countsOn {count : String} {n i : Nat}
    (h : readInt64? (Text.trim count) = some (n : Int)) (hn : n < 2 ^ 53)
    (hcounter : w.symbols.get? counter = some (.int i)) (hi : i < 2 ^ 53) :
    (Mission.countsOn count counter).result c w = (.ok (decide (i < n)), w) := by
  obtain ⟨x, hcount, hwhole⟩ := result_count c w h hn
  have hvalue : (valueOfName counter).result c w = (.ok (.int i), w) := by
    change (Except.ok ((w.symbols.get? counter).getD .null), w) = _
    rw [hcounter]
    rfl
  have hlt : (Binary64.ofInt i).lt x = decide (i < n) := by
    rw [Binary64.lt_of_whole (Binary64.whole_ofInt hi) hwhole]
    simp
  unfold Mission.countsOn
  rw [result_bind_of_ok hcount, result_bind_of_ok hvalue]
  change (Except.ok ((Binary64.ofInt i).lt x), w) = _
  rw [hlt]

theorem result_countsOn_failed {count : String} {n : Nat}
    (h : readInt64? (Text.trim count) = some (n : Int)) (hn : n < 2 ^ 53)
    (hcounter : (w.symbols.value counter).real? = none) :
    (Mission.countsOn count counter).result c w = (.error (.counterNotNumber counter), w) := by
  obtain ⟨x, hcount, -⟩ := result_count c w h hn
  have hvalue : (valueOfName counter).result c w = (.ok (w.symbols.value counter), w) := rfl
  unfold Mission.countsOn
  rw [result_bind_of_ok hcount, result_bind_of_ok hvalue, hcounter]
  rfl

end StepM

/-- A loop without a guard whose count is the literal of an integer that is exact as a number. -/
structure Program.CountedLoop (p : Program) (head : Nat) (counter : String) (n stop : Nat) :
    Prop where
  op : ∃ guard count, p.op? head = some (.loop guard count counter stop) ∧
    Text.isBlankText guard = true ∧ readInt64? (Text.trim count) = some (n : Int)
  bound : n < 2 ^ 53

namespace Mission

/-! ## Entering a body -/

/-- Steps lead from a mission to another one, and `n` times they go on from the head of a loop to its
body. -/
inductive Enters (head : Nat) (m : Mission) : Nat → Mission → Prop
  | refl : Enters head m 0 m
  | pass {n : Nat} {e after : Mission} {status : StepStatus} (h : Enters head m n e)
    (htick : e.tick = (.ok status, after)) (hpass : ¬(e.index = head ∧ after.index = head + 1)) :
    Enters head m n after
  | enter {n : Nat} {e after : Mission} {status : StepStatus} (h : Enters head m n e)
    (htick : e.tick = (.ok status, after)) (hhead : e.index = head) (hbody : after.index = head + 1) :
    Enters head m (n + 1) after

/-- From the body of a loop a mission comes to the end of the loop, without entering the body once
more, and leaves the counter as it is. -/
def ComesRound (head stop : Nat) (counter : String) (b : Mission) : Prop :=
  ∃ e, b.Enters head 0 e ∧ e.index + 1 = stop ∧ e.symbols.get? counter = b.symbols.get? counter

/-- The first `n` times that the body of a loop is entered, the mission comes round. -/
def BodyComesRound (head stop : Nat) (counter : String) (n : Nat) (m : Mission) : Prop :=
  ∀ i < n, ∀ x b status, m.Enters head i x → x.index = head → x.tick = (.ok status, b) →
    b.index = head + 1 → b.ComesRound head stop counter

theorem program_of_tick {m after : Mission} {result : Except SkillFault StepStatus}
    (h : m.tick = (result, after)) : after.program = m.program := by
  have hafter : m.tick.2 = after := congrArg Prod.snd h
  rw [← hafter, ← m.step_snd]
  exact m.step_sameRun.program

theorem Enters.program {head n : Nat} {m e : Mission} (h : m.Enters head n e) :
    e.program = m.program := by
  induction h with
  | refl => rfl
  | pass _ htick _ ih => exact (program_of_tick htick).trans ih
  | enter _ htick _ _ ih => exact (program_of_tick htick).trans ih

theorem Enters.trans {head a b : Nat} {m e e' : Mission} (h : m.Enters head a e)
    (h' : e.Enters head b e') : m.Enters head (a + b) e' := by
  induction h' with
  | refl => exact h
  | pass _ htick hpass ih => exact .pass ih htick hpass
  | enter _ htick hhead hbody ih => exact .enter ih htick hhead hbody

/-! ## The instructions of a loop -/

section Instructions

variable {m : Mission} {head stop n i : Nat} {counter : String}

theorem tick_reset (hop : m.program.op? m.index = some (RawStep.resetCounter counter)) :
    ∃ status after, m.tick = (.ok status, after) ∧ after.index = m.index + 1 ∧
      after.symbols = (m.symbols.write (Text.trim counter) (.int 0)).1 := by
  obtain ⟨r, hr⟩ := StepM.result_zeroed counter ⟨m.config, m.index⟩ m.work
  have hrun : m.runStep (fillData (Block.zeroArgs counter)) = (r, { m with
      work := { m.work with symbols := (m.symbols.write (Text.trim counter) (.int 0)).1 } }) := by
    unfold runStep
    rw [hr]
    rfl
  obtain ⟨hok, herror⟩ := tick_follow hop (perform_action rfl)
  cases r with
  | ok _ => exact ⟨_, _, hok () _ hrun, rfl, rfl⟩
  | error failure => exact ⟨_, _, herror failure _ hrun, rfl, rfl⟩

theorem perform_loop {guard count : String} (hguard : Text.isBlankText guard = true) :
    m.perform (.loop guard count counter stop) =
      m.follow (do return if ← countsOn count counter then m.index + 1 else stop) := by
  change m.enterLoop guard count counter stop = _
  unfold enterLoop
  rw [if_pos hguard]

/-- The test of a loop compares integers. -/
theorem tick_loop (hloop : m.program.CountedLoop m.index counter n stop)
    (hcounter : m.symbols.get? counter = some (.int i)) (hi : i < 2 ^ 53) :
    m.tick = (.ok .completed, m.counted.goTo (if i < n then m.index + 1 else stop)) := by
  obtain ⟨guard, count, hop, hguard, hcount⟩ := hloop.op
  obtain ⟨hok, -⟩ := tick_follow hop (perform_loop hguard)
  have hrun : m.runStep (countsOn count counter) = (.ok (decide (i < n)), m) := by
    unfold runStep
    rw [StepM.result_countsOn _ _ _ hcount hloop.bound hcounter hi]
  rw [hok _ _ hrun]
  simp only [decide_eq_true_eq]

/-- Without a number in its counter a loop is left. -/
theorem tick_loop_failed (hloop : m.program.CountedLoop m.index counter n stop)
    (hcounter : (m.symbols.value counter).real? = none) :
    ∃ status after, m.tick = (.ok status, after) ∧ after.index = stop ∧
      after.symbols = m.symbols := by
  obtain ⟨guard, count, hop, hguard, hcount⟩ := hloop.op
  obtain ⟨-, herror⟩ := tick_follow hop (perform_loop hguard)
  have hrun : m.runStep (countsOn count counter) = (.error (.counterNotNumber counter), m) := by
    unfold runStep
    rw [StepM.result_countsOn_failed _ _ _ hcount hloop.bound hcounter]
  exact ⟨_, _, herror _ _ hrun, rfl, rfl⟩

theorem counterValue_int (hi : i < 2 ^ 53) : counterValue (.int i) = i := by
  have hrange : Value.IsInt64 i := by
    unfold Value.IsInt64 Word.minInt Word.maxInt
    omega
  exact if_pos hrange

/-- The end of a loop counts up and goes back. -/
theorem tick_back (hop : m.program.op? m.index = some (.goto head (some counter)))
    (hcounter : m.symbols.get? counter = some (.int i)) (hi : i < 2 ^ 53) :
    ∃ after, m.tick = (.ok .completed, after) ∧ after.index = head ∧
      after.symbols.get? counter = some (.int (i + 1 : Nat)) := by
  have hvalue : counterValue (m.symbols.value counter) = i := by
    unfold SymbolTable.value
    rw [hcounter]
    exact counterValue_int hi
  refine ⟨_, tick_of_op? hop rfl, rfl, ?_⟩
  change (m.symbols.set counter (.int (counterValue (m.symbols.value counter) + 1))).get? counter = _
  rw [SymbolTable.get?_set_self, hvalue]
  rfl

end Instructions

/-! ## Rounds -/

/-- A mission has entered the body of a loop `k` times, and is at the test with a value of the
counter. -/
structure AtTest (m : Mission) (head : Nat) (counter : String) (k i : Nat) (x : Mission) : Prop where
  enters : m.Enters head k x
  index : x.index = head
  counter : x.symbols.get? counter = some (.int i)

section Rounds

variable {m x : Mission} {head stop n k i : Nat} {counter : String}
  (hloop : m.program.CountedLoop head counter n stop)
  (hback : ∃ e, e + 1 = stop ∧ m.program.op? e = some (.goto head (some counter)))
  (hbody : m.BodyComesRound head stop counter n)

include hloop in
theorem AtTest.tick (hx : m.AtTest head counter k i x) (hi : i < 2 ^ 53) :
    x.tick = (.ok .completed, x.counted.goTo (if i < n then head + 1 else stop)) := by
  rw [← hx.enters.program, ← hx.index] at hloop
  rw [tick_loop hloop hx.counter hi, hx.index]

include hloop hback

/-- Where a loop is left its body does not begin. -/
theorem stop_ne : stop ≠ head + 1 := by
  obtain ⟨guard, count, hop, -, -⟩ := hloop.op
  obtain ⟨e, he, hgoto⟩ := hback
  intro hstop
  obtain rfl : e = head := by omega
  rw [hop] at hgoto
  cases hgoto

/-- A loop whose counter is no number is left at once. -/
theorem leaves_at_once (hx : m.Enters head k x) (hindex : x.index = head)
    (hcounter : (x.symbols.value counter).real? = none) :
    ∃ after, m.Enters head k after ∧ after.index = stop ∧ after.symbols = x.symbols := by
  have hstop := stop_ne hloop hback
  rw [← hx.program, ← hindex] at hloop
  obtain ⟨status, after, htick, hafter, hsame⟩ := tick_loop_failed hloop hcounter
  refine ⟨after, .pass hx htick fun hgoes => ?_, hafter, hsame⟩
  exact hstop (hafter.symm.trans hgoes.2)

include hbody

/-- One round of a loop counts one up. -/
theorem AtTest.round (hx : m.AtTest head counter k i x) (hk : k < n) (hi : i < n) :
    ∃ y, m.AtTest head counter (k + 1) (i + 1) y := by
  have hbound := hloop.bound
  have htick := hx.tick hloop (by omega)
  rw [if_pos hi] at htick
  have hentered := hx.enters.enter htick hx.index rfl
  obtain ⟨e, hpath, hend, hsame⟩ := hbody k hk x _ _ hx.enters hx.index htick rfl
  have hround := hentered.trans hpath
  obtain ⟨j, hj, hop⟩ := hback
  obtain rfl : e.index = j := by omega
  rw [← hround.program] at hop
  obtain ⟨y, hy, hindex, hcounter⟩ := tick_back hop (hsame.trans hx.counter) (by omega)
  refine ⟨y, .pass hround hy fun hgoes => ?_, hindex, hcounter⟩
  exact absurd (hindex.symm.trans hgoes.2) (by omega)

/-- A loop counts up as long as its counter is below its count. -/
theorem AtTest.rounds (hx : m.AtTest head counter 0 i x) (hk : i + k ≤ n) :
    ∃ y, m.AtTest head counter k (i + k) y := by
  induction k with
  | zero => exact ⟨x, hx⟩
  | succ k ih =>
    obtain ⟨y, hy⟩ := ih (by omega)
    have hround := hy.round hloop hback hbody (by omega) (by omega)
    rwa [Nat.add_assoc] at hround

/-- From its test a mission goes through a loop until the counter is not below the count. -/
theorem AtTest.finishes (hx : m.AtTest head counter 0 i x) (hi : i < 2 ^ 53) :
    ∃ after, m.Enters head (n - i) after ∧ after.index = stop ∧
      after.symbols.get? counter = some (.int (max n i : Nat)) := by
  have hbound := hloop.bound
  obtain ⟨y, hy⟩ : ∃ y, m.AtTest head counter (n - i) (max n i) y := by
    by_cases hle : i ≤ n
    · have hsum : i + (n - i) = max n i := by omega
      rw [← hsum]
      exact hx.rounds hloop hback hbody (by omega)
    · have hnone : n - i = 0 := by omega
      rw [hnone, Nat.max_eq_right (by omega)]
      exact ⟨x, hx⟩
  have htick := hy.tick hloop (by omega)
  rw [if_neg (by omega)] at htick
  exact ⟨_, .pass hy.enters htick fun hgoes => stop_ne hloop hback hgoes.2, rfl, hy.counter⟩

end Rounds

/-- A counted loop that is entered where its counter is set to zero, with a body that comes round. If
the counter is the target of its own name, then the body is entered as often as the count says, the
mission goes on behind the end of the loop and the counter holds the count, whatever it held before.
If its name is no target, or that of another variable, then the loop goes on from the value that the
counter has: from an integer it counts up to the count, and without a number it is left at once. -/
theorem counted_loop_counts {main : SkillDocument} {library : SkillLibrary} {p : Program}
    (h : resolve main library = .ok p) {m : Mission} (hm : m.program = p) {head n stop : Nat}
    {counter : String} (hloop : p.CountedLoop head counter n stop) (hindex : m.index + 1 = head)
    (hbody : m.BodyComesRound head stop counter n) :
    (∃ e, e + 1 = stop ∧ p.op? e = some (.goto head (some counter))) ∧
    (Expr.readTarget (Text.trim counter) = .ok ⟨counter, []⟩ →
      ∃ after, m.Enters head n after ∧ after.index = stop ∧
        after.symbols.get? counter = some (.int n)) ∧
    ((∀ target, Expr.readTarget (Text.trim counter) = .ok target → target.name ≠ counter) →
      (∀ c < 2 ^ 53, m.symbols.get? counter = some (.int (c : Nat)) →
        ∃ after, m.Enters head (n - c) after ∧ after.index = stop ∧
          after.symbols.get? counter = some (.int (max n c : Nat))) ∧
      ((m.symbols.value counter).real? = none →
        ∃ after, m.Enters head 0 after ∧ after.index = stop ∧
          after.symbols.get? counter = m.symbols.get? counter)) := by
  have hbuilt := Program.built_of_resolve h
  subst hm
  obtain ⟨guard, count, hop, hguard, -⟩ := hloop.op
  obtain ⟨e, he, hgoto⟩ := hbuilt.loops head guard count counter stop hop
  rw [if_pos hguard] at hgoto
  have hback : ∃ e, e + 1 = stop ∧ m.program.op? e = some (.goto head (some counter)) :=
    ⟨e, he, hgoto⟩
  obtain ⟨i, hi, hreset⟩ := hbuilt.resets head guard count counter stop hop hguard
  obtain rfl : m.index = i := by omega
  obtain ⟨status, x, htick, hx, hsymbols⟩ := tick_reset hreset
  have hstart : m.Enters head 0 x := .pass .refl htick fun hgoes => absurd hgoes.1 (by omega)
  rw [hindex] at hx
  refine ⟨hback, fun hself => ?_, fun hother => ?_⟩
  · have hzero : x.symbols.get? counter = some (.int (0 : Nat)) := by
      rw [hsymbols]
      exact SymbolTable.get?_write_self hself _ _
    have hfinish := AtTest.finishes hloop hback hbody ⟨hstart, hx, hzero⟩ (by decide)
    rwa [Nat.sub_zero, Nat.max_eq_left (Nat.zero_le n)] at hfinish
  · have hkept : x.symbols.get? counter = m.symbols.get? counter := by
      rw [hsymbols]
      exact SymbolTable.get?_write_of_ne hother _ _
    refine ⟨fun c hc hvalue => ?_, fun hnumber => ?_⟩
    · exact AtTest.finishes hloop hback hbody ⟨hstart, hx, hkept.trans hvalue⟩ hc
    · have hvalue : x.symbols.value counter = m.symbols.value counter := by
        unfold SymbolTable.value
        rw [hkept]
      rw [← hvalue] at hnumber
      obtain ⟨after, hafter, hstop, hsame⟩ := leaves_at_once hloop hback hstart hx hnumber
      refine ⟨after, hafter, hstop, ?_⟩
      rw [hsame, hkept]

/-! ## Loops over an identifier and over two words -/

/-- A document whose loop is to go round twice. -/
def countingDocument (counter : String) : SkillDocument where
  name := "main"
  header := .empty
  steps := [⟨"step 1", 1, "Repeat", [("lc_name", .text counter), ("count", .text "2")]⟩,
    ⟨"step 2", 2, "Halt", []⟩, ⟨"step 3", 3, "Stub", [("stub_name", .text "end loop")]⟩]

/-- The program of `countingDocument`. -/
def countingProgram (counter : String) : Program where
  name := "main"
  skid := ""
  instructions :=
    #[⟨⟨"main", 1, true⟩, RawStep.resetCounter counter⟩,
      ⟨⟨"main", 1, false⟩, .loop "" "2" counter 4⟩, ⟨⟨"main", 2, false⟩, .action "Halt" []⟩,
      ⟨⟨"main", 3, false⟩, .goto 1 (some counter)⟩, ⟨⟨"main", 3, true⟩, .finish⟩]
  functions := []
  skills := [("main", 0)]
  handlers := []
  documents := [⟨"main", 0, 5⟩]

theorem resolve_countingDocument {counter : String} (h : counter = "i" ∨ counter = "row no") :
    resolve (countingDocument counter) .empty = .ok (countingProgram counter) := by
  rcases h with rfl | rfl
  · exact resolve_of_sorted rfl (by decide) (by decide) (by decide)
  · exact resolve_of_sorted rfl (by decide) (by decide) (by decide)

/-- A mission that is about to set the counter to zero. -/
def countingMission (counter : String) : Mission :=
  .initial (countingProgram counter) (.plain 0 .empty) RunConfig.usual

theorem countedLoop_counting (counter : String) :
    (countingProgram counter).CountedLoop 1 counter 2 4 :=
  ⟨⟨"", "2", rfl, rfl, rfl⟩, by decide⟩

/-- Halting leads to the end of the loop. -/
theorem bodyComesRound_counting (counter : String) :
    (countingMission counter).BodyComesRound 1 4 counter 2 := by
  intro i _ x b status hx hindex htick hbody
  have hprogram : b.program = countingProgram counter := (hx.enter htick hindex hbody).program
  have hop : b.program.op? b.index = some (.action "Halt" []) := by
    rw [hprogram, hbody]
    rfl
  obtain ⟨hok, -⟩ := tick_follow hop (perform_action rfl)
  have hhalt : b.runStep (halt []) = (.ok (), b) := rfl
  have hpass : b.index ≠ 1 := by
    rw [hbody]
    decide
  refine ⟨_, .pass .refl (hok () b hhalt) fun hgoes => hpass hgoes.1, ?_, rfl⟩
  change b.index + 1 + 1 = 4
  rw [hbody]

/-- Two words are no target. -/
theorem readTarget_rowNo :
    Expr.readTarget "row no" = .error (.syntaxFault 4 .trailingInput) := by
  have hno : Expr.tokensFrom 0 4 ['n', 'o'] = .ok [⟨.name "no", 4⟩] :=
    Expr.tokensFrom_of_scan (s := ⟨some (.name "no"), 6, [], by decide⟩) rfl
      (Expr.tokensFrom_nil _ _)
  have hspace : Expr.tokensFrom 0 3 [' ', 'n', 'o'] = .ok [⟨.name "no", 4⟩] :=
    Expr.tokensFrom_of_scan (s := ⟨none, 4, ['n', 'o'], by decide⟩) rfl hno
  have hrow : Expr.tokens ['r', 'o', 'w', ' ', 'n', 'o'] =
      .ok [⟨.name "row", 0⟩, ⟨.name "no", 4⟩] :=
    Expr.tokensFrom_of_scan (s := ⟨some (.name "row"), 3, [' ', 'n', 'o'], by decide⟩) rfl hspace
  have hnormal : Expr.normalize "row no" = ['r', 'o', 'w', ' ', 'n', 'o'] := rfl
  unfold Expr.readTarget Expr.readWith
  dsimp only
  rw [hnormal, hrow]
  change Expr.parseTarget _ [⟨.name "row", 0⟩, ⟨.name "no", 4⟩] = _
  unfold Expr.parseTarget
  rw [Expr.parseExpression_names _ _ _ (by decide)]
  rfl

theorem rowNo_no_target (target : Expr.Target)
    (h : Expr.readTarget (Text.trim "row no") = .ok target) : target.name ≠ "row no" := by
  have htrim : Text.trim "row no" = "row no" := rfl
  rw [htrim, readTarget_rowNo] at h
  cases h

theorem counted_loop_counts_halting :
    (∃ after, (countingMission "i").Enters 1 2 after ∧ after.index = 4 ∧
      after.symbols.get? "i" = some (.int 2)) ∧
    ∃ after, (countingMission "row no").Enters 1 0 after ∧ after.index = 4 ∧
      after.symbols.get? "row no" = none := by
  have hname : Expr.IsIdentifier "i" :=
    ⟨⟨'i', [], rfl, rfl, nofun⟩, Expr.ofWord_eq_name (by decide)⟩
  have hself : Expr.readTarget (Text.trim "i") = .ok ⟨"i", []⟩ := by
    rw [hname.trim_eq]
    exact Expr.readTarget_identifier hname
  obtain ⟨-, hcounts, -⟩ := counted_loop_counts (resolve_countingDocument (.inl rfl))
    (m := countingMission "i") rfl (countedLoop_counting "i") rfl (bodyComesRound_counting "i")
  obtain ⟨-, -, hgoesOn⟩ := counted_loop_counts (resolve_countingDocument (.inr rfl))
    (m := countingMission "row no") rfl (countedLoop_counting "row no") rfl
    (bodyComesRound_counting "row no")
  exact ⟨hcounts hself, (hgoesOn rowNo_no_target).2 rfl⟩

/-! ## A loop that is left at once -/

/-- The mission has set no counter, and is not in the body of the loop. -/
structure Uncounted (m : Mission) : Prop where
  program : m.program = countingProgram "row no"
  place : m.index = 0 ∨ m.index = 1 ∨ m.index = 4 ∨ m.index = Program.sentinel
  unset : m.symbols.get? "row no" = none

/-- The loop is left without a number in its counter. -/
theorem Uncounted.tick {m after : Mission} {status : StepStatus} (h : m.Uncounted)
    (htick : m.tick = (.ok status, after)) : after.Uncounted := by
  have hprogram := (program_of_tick htick).trans h.program
  rcases h.place with hplace | hplace | hplace | hplace
  · have hop : m.program.op? m.index = some (RawStep.resetCounter "row no") := by
      rw [h.program, hplace]
      rfl
    obtain ⟨status', after', htick', hindex, hsymbols⟩ := tick_reset hop
    obtain rfl : after = after' := congrArg Prod.snd (htick.symm.trans htick')
    rw [hplace] at hindex
    refine ⟨hprogram, .inr (.inl hindex), ?_⟩
    rw [hsymbols, SymbolTable.get?_write_of_ne rowNo_no_target, h.unset]
  · have hloop := countedLoop_counting "row no"
    rw [← h.program, ← hplace] at hloop
    have hvalue : (m.symbols.value "row no").real? = none := by
      unfold SymbolTable.value
      rw [h.unset]
      rfl
    obtain ⟨status', after', htick', hindex, hsymbols⟩ := tick_loop_failed hloop hvalue
    obtain rfl : after = after' := congrArg Prod.snd (htick.symm.trans htick')
    exact ⟨hprogram, .inr (.inr (.inl hindex)), by rw [hsymbols, h.unset]⟩
  · have hop : m.program.op? m.index = some .finish := by
      rw [h.program, hplace]
      rfl
    obtain rfl : after = _ := congrArg Prod.snd (htick.symm.trans (tick_of_op? hop rfl))
    exact ⟨hprogram, .inr (.inr (.inr rfl)), h.unset⟩
  · have hnone : m.program.instructions[m.index]? = none := by
      rw [h.program, hplace]
      exact Array.getElem?_eq_none (by decide)
    have hstay : m.tick = (.ok .completed, { m with index := Program.sentinel }) := by
      unfold Mission.tick
      rw [hnone]
    obtain rfl : after = _ := congrArg Prod.snd (htick.symm.trans hstay)
    exact ⟨hprogram, .inr (.inr (.inr rfl)), h.unset⟩

theorem Uncounted.enters {m after : Mission} {head k : Nat} (h : m.Uncounted)
    (hafter : m.Enters head k after) : after.Uncounted := by
  induction hafter with
  | refl => exact h
  | pass _ htick _ ih => exact ih.tick htick
  | enter _ htick _ _ ih => exact ih.tick htick

/-- Not every counted loop counts: with a counter whose name is no target its body is not entered. -/
theorem not_counted_loop_counts :
    ¬∀ (main : SkillDocument) (library : SkillLibrary) (p : Program), resolve main library = .ok p →
      ∀ m : Mission, m.program = p → ∀ head counter n stop, p.CountedLoop head counter n stop →
      m.index + 1 = head → m.BodyComesRound head stop counter n →
      ∃ after, m.Enters head n after ∧ after.index = stop ∧
        after.symbols.get? counter = some (.int (n : Nat)) := by
  intro h
  obtain ⟨after, hafter, -, hvalue⟩ := h _ _ _ (resolve_countingDocument (.inr rfl))
    (countingMission "row no") rfl 1 "row no" 2 4 (countedLoop_counting "row no") rfl
    (bodyComesRound_counting "row no")
  have hstart : (countingMission "row no").Uncounted := ⟨rfl, .inl rfl, by decide⟩
  rw [(hstart.enters hafter).unset] at hvalue
  cases hvalue

end Mission

end Deskhand
