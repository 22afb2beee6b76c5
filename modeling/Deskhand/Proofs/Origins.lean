import Deskhand.Proofs.Drafting
import Deskhand.Proofs.Nesting
import Deskhand.Proofs.Targets

/-!
# Where the instructions of a program come from

Linking and looking references up give instructions their targets, and turn the parts of constructs
into jumps; nothing else happens to an operation (`Op.Becomes`). An end of a loop becomes a jump only
once, so in a resolved program it goes back to its loop (`LinkState.Back`). With what stands in a
draft this says how the documents, the ends and the loops of a resolved program look like
(`Program.Built`).
-/

namespace Deskhand

/-- What linking and looking references up can make of an operation. -/
inductive Op.Becomes : Op → Op → Prop
  | same (op : Op) : Becomes op op
  | condition (condition : String) (ifElse ifEnd ifElse' ifEnd' : Nat) :
    Becomes (.checkCondition condition ifElse ifEnd) (.checkCondition condition ifElse' ifEnd')
  | loop (guard count counter : String) (stop stop' : Nat) :
    Becomes (.loop guard count counter stop) (.loop guard count counter stop')
  | handler (args : HandlerArgs) (stop stop' : Nat) :
    Becomes (.exceptionHandler args stop) (.exceptionHandler args stop')
  | part {kind : StubKind} (target : Nat) (increment : Option String) (h : kind.isPart = true) :
    Becomes (.stub kind) (.goto target increment)
  | goto (target target' : Nat) (increment : Option String) :
    Becomes (.goto target increment) (.goto target' none)
  | callFunction (name : String) (entry entry' : Nat) (param param' arg output : String) :
    Becomes (.callFunction name entry param arg output) (.callFunction name entry' param' arg output)
  | useSkill (name : String) (entry entry' : Nat) (arg output : String) :
    Becomes (.useSkill name entry arg output) (.useSkill name entry' arg output)
  | overloadSkill (name : String) (entry entry' : Nat) (arg output : String) :
    Becomes (.overloadSkill name entry arg output) (.overloadSkill name entry' arg output)

namespace Op.Becomes

variable {old op : Op}

theorem setElse (target : Nat) (h : old.Becomes op) : old.Becomes (LinkState.setElse target op) := by
  cases op with
  | checkCondition => cases h <;> exact .condition ..
  | _ => exact h

theorem setEnd (target : Nat) (h : old.Becomes op) : old.Becomes (LinkState.setEnd target op) := by
  cases op with
  | checkCondition => cases h <;> exact .condition ..
  | _ => exact h

theorem setStop (target : Nat) (h : old.Becomes op) : old.Becomes (LinkState.setStop target op) := by
  cases op with
  | loop => cases h <;> exact .loop ..
  | exceptionHandler => cases h <;> exact .handler ..
  | _ => exact h

theorem setFunction (target : Nat) (param : String) (h : old.Becomes op) :
    old.Becomes (Draft.setFunction target param op) := by
  cases op with
  | callFunction => cases h <;> exact .callFunction ..
  | _ => exact h

theorem setSkill (target : Nat) (h : old.Becomes op) :
    old.Becomes (Draft.setSkill target op) := by
  cases op with
  | useSkill => cases h <;> exact .useSkill ..
  | overloadSkill => cases h <;> exact .overloadSkill ..
  | _ => exact h

/-- A mark that is left has always been there. -/
theorem of_stub {kind : StubKind} (h : old.Becomes (.stub kind)) : old = .stub kind := by
  cases h
  rfl

theorem of_handler {args : HandlerArgs} {stop : Nat} (h : old.Becomes (.exceptionHandler args stop)) :
    ∃ stop', old = .exceptionHandler args stop' := by
  cases h <;> exact ⟨_, rfl⟩

theorem of_loop {guard count counter : String} {stop : Nat}
    (h : old.Becomes (.loop guard count counter stop)) :
    ∃ stop', old = .loop guard count counter stop' := by
  cases h <;> exact ⟨_, rfl⟩

end Op.Becomes

/-- Whether an operation stays what it is, whatever is linked. -/
def Op.Stays : Op → Prop
  | action .. | finish => True
  | stub kind => kind.isPart = false
  | _ => False

theorem Op.Stays.eq {old op : Op} (hold : old.Stays) (h : old.Becomes op) : op = old := by
  cases h with
  | same => rfl
  | part target increment hpart =>
    change _ = false at hold
    rw [hpart] at hold
    cases hold
  | _ => cases hold

namespace Draft

/-- Every operation of a draft has become of that of another one at the same index. -/
def Becomes (first d : Draft) : Prop :=
  d.All fun j op => ∃ old, first.op? j = some old ∧ old.Becomes op

variable {first d : Draft} {k : Nat}

theorem Becomes.refl (d : Draft) : d.Becomes d := fun _ op hop => ⟨op, hop, .same op⟩

theorem Becomes.modifyOp (h : first.Becomes d) {f : Op → Op}
    (hf : ∀ old op : Op, old.Becomes op → old.Becomes (f op)) : first.Becomes (d.modifyOp k f) :=
  All.modifyOp h fun op ⟨old, hold, hop⟩ => ⟨old, hold, hf old op hop⟩

/-- A part of a construct may become a jump. -/
theorem Becomes.setPart (h : first.Becomes d) {kind : StubKind} (target : Nat)
    (increment : Option String) (hpart : kind.isPart = true)
    (hk : first.op? k = some (.stub kind)) : first.Becomes (d.setOp k (.goto target increment)) :=
  All.setOp h ⟨.stub kind, hk, .part target increment hpart⟩

theorem Becomes.foldl_setPart {kind : StubKind} (target : Nat) (hpart : kind.isPart = true)
    (breaks : List Nat) {d : Draft} (h : first.Becomes d)
    (hbreaks : ∀ b ∈ breaks, first.op? b = some (.stub kind)) :
    first.Becomes (breaks.foldl (fun d b => d.setOp b (.goto target none)) d) := by
  induction breaks generalizing d with
  | nil => exact h
  | cons b rest ih =>
    obtain ⟨hb, hrest⟩ := List.forall_mem_cons.1 hbreaks
    exact ih (h.setPart target none hpart hb) hrest

theorem Becomes.stays (h : first.Becomes d) (hsize : d.size = first.size) {j : Nat} {old : Op}
    (hold : first.op? j = some old) (hstays : old.Stays) : d.op? j = some old := by
  have hj := lt_size_of_op? hold
  obtain ⟨op, hop⟩ : ∃ op, d.op? j = some op := by
    rw [← hsize] at hj
    exact Option.ne_none_iff_exists'.1 fun hnone => absurd hj (Nat.not_lt.2 (op?_eq_none.1 hnone))
  obtain ⟨old', hold', hbecomes⟩ := h j op hop
  rw [hold] at hold'
  cases hold'
  rw [hop, hstays.eq hbecomes]

end Draft

namespace LinkState

open Draft

/-! ## Loops and the jumps back to them -/

/-- The end of a loop goes back to it, and the loop is left behind its end. -/
def Back (first d : Draft) (j : Nat) (guard counter : String) (stop : Nat) : Prop :=
  ∃ k, k + 1 = stop ∧ first.op? k = some (.stub .endLoop) ∧
    d.op? k = some (.goto j (if Text.isBlankText guard then some counter else none))

/-- From one draft to another no loop is changed, and no end of a loop that is a jump already. -/
structure SparesLoops (first d d' : Draft) : Prop where
  loop : ∀ j guard count counter stop, d'.op? j = some (.loop guard count counter stop) →
    d.op? j = some (.loop guard count counter stop)
  back : ∀ k target increment, first.op? k = some (.stub .endLoop) →
    d.op? k = some (.goto target increment) → d'.op? k = some (.goto target increment)

namespace SparesLoops

variable {first d d' d'' : Draft} {k : Nat}

theorem of_op? (h : ∀ j, d'.op? j = d.op? j) : SparesLoops first d d' where
  loop j _ _ _ _ hop := by rwa [← h j]
  back k _ _ _ hop := by rwa [h k]

theorem refl (first d : Draft) : SparesLoops first d d := .of_op? fun _ => rfl

theorem trans (h : SparesLoops first d d') (h' : SparesLoops first d' d'') :
    SparesLoops first d d'' where
  loop _ _ _ _ _ hop := h.loop _ _ _ _ _ (h'.loop _ _ _ _ _ hop)
  back _ _ _ hk hop := h'.back _ _ _ hk (h.back _ _ _ hk hop)

/-- A change that makes no loop, changes none and leaves jumps alone. -/
theorem modifyOp {f : Op → Op} (hloop : ∀ op guard count counter stop, d.op? k = some op →
      f op = .loop guard count counter stop → op = .loop guard count counter stop)
    (hback : ∀ target increment, f (.goto target increment) = .goto target increment) :
    SparesLoops first d (d.modifyOp k f) where
  loop j guard count counter stop hop := by
    rw [op?_modifyOp] at hop
    split at hop
    · next hk =>
      subst hk
      obtain ⟨op, hold, hf⟩ := Option.map_eq_some_iff.1 hop
      rw [hold, hloop op guard count counter stop hold hf]
    · exact hop
  back j target increment _ hop := by
    rw [op?_modifyOp]
    split
    · rw [hop, Option.map_some, hback]
    · exact hop

/-- A jump may be put anywhere but at the end of a loop. -/
theorem setOp (target : Nat) (increment : Option String)
    (hk : first.op? k ≠ some (.stub .endLoop)) :
    SparesLoops first d (d.setOp k (.goto target increment)) where
  loop j guard count counter stop hop := by
    unfold Draft.setOp at hop
    rw [op?_modifyOp] at hop
    split at hop
    · obtain ⟨_, _, hf⟩ := Option.map_eq_some_iff.1 hop
      cases hf
    · exact hop
  back j target' increment' hj hop := by
    have hne : k ≠ j := by
      rintro rfl
      exact hk hj
    unfold Draft.setOp
    rw [op?_modifyOp, if_neg hne]
    exact hop

theorem foldl_setOp (target : Nat) (breaks : List Nat) {d : Draft}
    (h : ∀ b ∈ breaks, first.op? b = some (.stub .breakLoop)) :
    SparesLoops first d (breaks.foldl (fun d b => d.setOp b (.goto target none)) d) := by
  induction breaks generalizing d with
  | nil => exact .refl _ _
  | cons b rest ih =>
    obtain ⟨hb, hrest⟩ := List.forall_mem_cons.1 h
    refine (setOp target none ?_).trans (ih hrest)
    rw [hb]
    nofun

theorem setElse (target : Nat) : SparesLoops first d (d.modifyOp k (LinkState.setElse target)) :=
  modifyOp (fun op _ _ _ _ _ hf => by cases op <;> first | exact hf | cases hf) fun _ _ => rfl

theorem setEnd (target : Nat) : SparesLoops first d (d.modifyOp k (LinkState.setEnd target)) :=
  modifyOp (fun op _ _ _ _ _ hf => by cases op <;> first | exact hf | cases hf) fun _ _ => rfl

/-- The end of a block is given to its handler, which is no loop. -/
theorem setStop {args : HandlerArgs} {stop' : Nat} (target : Nat) (h : first.Becomes d)
    (hk : first.op? k = some (.exceptionHandler args stop')) :
    SparesLoops first d (d.modifyOp k (LinkState.setStop target)) := by
  refine modifyOp (fun op guard count counter stop hop hf => ?_) fun _ _ => rfl
  obtain ⟨old, hold, hbecomes⟩ := h k op hop
  rw [hk] at hold
  cases hold
  cases hbecomes <;> cases hf

end SparesLoops

theorem Back.spared {first d d' : Draft} {j stop : Nat} {guard counter : String}
    (h : Back first d j guard counter stop) (hspares : SparesLoops first d d') :
    Back first d' j guard counter stop := by
  obtain ⟨k, hk, hend, hback⟩ := h
  exact ⟨k, hk, hend, hspares.back k _ _ hend hback⟩

/-! ## Linking a document -/

/-- A construct waits to turn marks of its own into jumps. -/
def Waits (first : Draft) : Construct → Prop
  | .condition _ orElse => ∀ mark, orElse = some mark → first.op? mark = some (.stub .orElse)
  | .loop _ breaks => ∀ b ∈ breaks, first.op? b = some (.stub .breakLoop)
  | .function start => ∃ name param, first.op? start = some (.stub (.startFunction name param))
  | .skill => True

/-- What holds of the operations of a draft while a document is linked, up to the next instruction to
visit. -/
structure Tracked (first : Draft) (next : Nat) (s : LinkState) : Prop where
  becomes : first.Becomes s.draft
  waits : ∀ c ∈ s.constructs, Waits first c
  handler : ∀ start, s.handler = some start →
    ∃ args stop, first.op? start = some (.exceptionHandler args stop)
  loops : ∀ j guard count counter stop, s.draft.op? j = some (.loop guard count counter stop) →
    next ≤ j ∨ (∃ breaks, .loop j breaks ∈ s.constructs) ∨ Back first s.draft j guard counter stop

variable {first : Draft} {document index : Nat} {op : Op} {s s' : LinkState}

theorem waits_addBreak {constructs constructs' : List Construct}
    (h : addBreak index constructs = some constructs')
    (hindex : first.op? index = some (.stub .breakLoop))
    (hwaits : ∀ c ∈ constructs, Waits first c) : ∀ c ∈ constructs', Waits first c := by
  induction constructs generalizing constructs' with
  | nil => cases h
  | cons c rest ih =>
    obtain ⟨hc, hrest⟩ := List.forall_mem_cons.1 hwaits
    cases c with
    | loop start breaks =>
      cases h
      refine List.forall_mem_cons.2 ⟨fun b hb => ?_, hrest⟩
      rcases List.mem_append.1 hb with hb | hb
      · exact hc b hb
      · rw [List.mem_singleton.1 hb]
        exact hindex
    | condition start orElse =>
      obtain ⟨rest', hrest', rfl⟩ := Option.map_eq_some_iff.1 h
      exact List.forall_mem_cons.2 ⟨hc, ih hrest' hrest⟩
    | _ => cases h

theorem loop_of_addBreak {constructs constructs' : List Construct}
    (h : addBreak index constructs = some constructs') {j : Nat}
    (hj : ∃ breaks, .loop j breaks ∈ constructs) : ∃ breaks, .loop j breaks ∈ constructs' := by
  obtain ⟨breaks, hmem⟩ := hj
  induction constructs generalizing constructs' with
  | nil => cases h
  | cons c rest ih =>
    cases c with
    | loop start breaks' =>
      cases h
      rcases List.mem_cons.1 hmem with heq | hmem
      · cases heq
        exact ⟨_, List.mem_cons_self⟩
      · exact ⟨breaks, List.mem_cons_of_mem _ hmem⟩
    | condition start orElse =>
      obtain ⟨rest', hrest', rfl⟩ := Option.map_eq_some_iff.1 h
      have hmem' := (List.mem_cons.1 hmem).resolve_left nofun
      obtain ⟨breaks', hin⟩ := ih hrest' hmem'
      exact ⟨breaks', List.mem_cons_of_mem _ hin⟩
    | _ => cases h

namespace Tracked

/-- A mark that is visited is a mark of the first draft. -/
theorem stub (hs : Tracked first index s) {kind : StubKind}
    (hop : s.draft.op? index = some (.stub kind)) : first.op? index = some (.stub kind) := by
  obtain ⟨old, hold, hbecomes⟩ := hs.becomes index _ hop
  rw [hold, hbecomes.of_stub]

/-- A visit that spares the loops keeps the property, if the constructs that are open are still so. -/
theorem spared (hs : Tracked first index s) (hop : s.draft.op? index = some op)
    (hnoLoop : ∀ guard count counter stop, op ≠ .loop guard count counter stop)
    (hbecomes : first.Becomes s'.draft) (hspares : SparesLoops first s.draft s'.draft)
    (hwaits : ∀ c ∈ s'.constructs, Waits first c)
    (hopen : ∀ j, (∃ breaks, .loop j breaks ∈ s.constructs) →
      ∃ breaks, .loop j breaks ∈ s'.constructs)
    (hhandler : ∀ start, s'.handler = some start →
      ∃ args stop, first.op? start = some (.exceptionHandler args stop)) :
    Tracked first (index + 1) s' where
  becomes := hbecomes
  waits := hwaits
  handler := hhandler
  loops j guard count counter stop hloop := by
    have hold := hspares.loop j _ _ _ _ hloop
    rcases hs.loops j guard count counter stop hold with hle | hin | hback
    · have hne : index ≠ j := by
        rintro rfl
        rw [hop] at hold
        exact hnoLoop _ _ _ _ (Option.some.inj hold)
      exact .inl (Nat.lt_of_le_of_ne hle hne)
    · exact .inr (.inl (hopen j hin))
    · exact .inr (.inr (hback.spared hspares))

/-- The end of a loop closes it. -/
theorem endLoop {start : Nat} {breaks : List Nat} {rest : List Construct}
    (hs : Tracked first index s) (hop : s.draft.op? index = some (.stub .endLoop))
    (hc : s.constructs = .loop start breaks :: rest) :
    Tracked first (index + 1) { s with
      draft := breaks.foldl (fun d b => d.setOp b (.goto (index + 1) none))
        ((s.draft.modifyOp start (LinkState.setStop (index + 1))).setOp index
          (.goto start ((s.draft.op? start).bind counted)))
      constructs := rest } := by
  have hend := hs.stub hop
  have hwaits := hs.waits
  rw [hc] at hwaits
  obtain ⟨hbreaks, hrest⟩ := List.forall_mem_cons.1 hwaits
  have hspared := fun d => SparesLoops.foldl_setOp (index + 1) breaks (d := d) hbreaks
  -- the draft before the jumps out of the loop are given their target
  generalize hd : (s.draft.modifyOp start (LinkState.setStop (index + 1))).setOp index
    (.goto start ((s.draft.op? start).bind counted)) = d at *
  have hfirst : first.Becomes d := by
    rw [← hd]
    exact (hs.becomes.modifyOp fun _ _ => Op.Becomes.setStop _).setPart _ _ rfl hend
  have hother : ∀ j, j ≠ index → d.op? j =
      if start = j then (s.draft.op? j).map (LinkState.setStop (index + 1)) else s.draft.op? j := by
    intro j hj
    rw [← hd]
    unfold Draft.setOp
    rw [op?_modifyOp, if_neg hj.symm, op?_modifyOp]
  have hself : d.op? index = some (.goto start ((s.draft.op? start).bind counted)) := by
    rw [← hd]
    unfold Draft.setOp
    rw [op?_modifyOp, if_pos rfl, op?_modifyOp]
    split <;> simp only [hop, Option.map_some]
  refine ⟨?_, hrest, hs.handler, fun j guard count counter stop hloop => ?_⟩
  · exact hfirst.foldl_setPart _ rfl breaks hbreaks
  · have hloop' := (hspared d).loop j _ _ _ _ hloop
    have hj : j ≠ index := by
      rintro rfl
      rw [hself] at hloop'
      cases hloop'
    rw [hother j hj] at hloop'
    by_cases hstart : start = j
    · subst hstart
      rw [if_pos rfl] at hloop'
      obtain ⟨op, hold, hset⟩ := Option.map_eq_some_iff.1 hloop'
      obtain ⟨stop', rfl⟩ : ∃ stop', op = .loop guard count counter stop' := by
        cases op <;> cases hset
        exact ⟨_, rfl⟩
      cases hset
      refine .inr (.inr ⟨index, rfl, hend, (hspared d).back index _ _ hend ?_⟩)
      rw [hself, hold]
      rfl
    · rw [if_neg hstart] at hloop'
      rcases hs.loops j guard count counter stop hloop' with hle | ⟨breaks', hin⟩ | hback
      · exact .inl (Nat.lt_of_le_of_ne hle hj.symm)
      · rw [hc] at hin
        rcases List.mem_cons.1 hin with heq | hin
        · cases heq
          exact absurd rfl hstart
        · exact .inr (.inl ⟨breaks', hin⟩)
      · refine .inr (.inr (Back.spared ?_ (hspared d)))
        obtain ⟨k, hk, hendk, hbackk⟩ := hback
        refine ⟨k, hk, hendk, ?_⟩
        have hne : k ≠ index := by
          rintro rfl
          rw [hop] at hbackk
          cases hbackk
        rw [hother k hne, hbackk]
        split <;> rfl

/-- A visit keeps track of where operations come from. -/
theorem visit (hs : Tracked first index s) (hop : s.draft.op? index = some op)
    (h : s.visit document index op = .ok s') : Tracked first (index + 1) s' := by
  have hhead : ∀ {c : Construct} {rest : List Construct}, s.constructs = c :: rest →
      Waits first c ∧ ∀ b ∈ rest, Waits first b := by
    intro c rest hc
    have hwaits := hs.waits
    rw [hc] at hwaits
    exact List.forall_mem_cons.1 hwaits
  have hstays : ∀ {c : Construct} {rest : List Construct}, s.constructs = c :: rest →
      (∀ j breaks, c ≠ .loop j breaks) → ∀ j, (∃ breaks, .loop j breaks ∈ s.constructs) →
      ∃ breaks, .loop j breaks ∈ rest := by
    intro c rest hc hne j hin
    rw [hc] at hin
    obtain ⟨breaks, hin⟩ := hin
    exact ⟨breaks, (List.mem_cons.1 hin).resolve_left fun heq => hne j breaks heq.symm⟩
  have henter : ∀ c j, (∃ breaks, .loop j breaks ∈ s.constructs) →
      ∃ breaks, .loop j breaks ∈ c :: s.constructs :=
    fun c j ⟨breaks, hin⟩ => ⟨breaks, List.mem_cons_of_mem _ hin⟩
  have hnotEnd : ∀ {kind : StubKind}, s.draft.op? index = some (.stub kind) → kind ≠ .endLoop →
      first.op? index ≠ some (.stub .endLoop) := by
    intro kind hkind hne heq
    rw [hs.stub hkind] at heq
    cases heq
    exact hne rfl
  cases visited h with
  | condition condition ifElse ifEnd =>
    exact hs.spared hop nofun hs.becomes (.refl _ _) (List.forall_mem_cons.2 ⟨nofun, hs.waits⟩)
      (henter _) hs.handler
  | loop guard count counter stop =>
    refine ⟨hs.becomes, List.forall_mem_cons.2 ⟨nofun, hs.waits⟩, hs.handler,
      fun j guard count counter stop hloop => ?_⟩
    rcases hs.loops j guard count counter stop hloop with hle | hin | hback
    · rcases Nat.lt_or_eq_of_le hle with hlt | rfl
      · exact .inl hlt
      · exact .inr (.inl ⟨[], List.mem_cons_self⟩)
    · exact .inr (.inl (henter _ j hin))
    · exact .inr (.inr hback)
  | orElse hc =>
    refine hs.spared hop nofun (hs.becomes.modifyOp fun _ _ => Op.Becomes.setElse _) (.setElse _)
      (List.forall_mem_cons.2 ⟨fun mark hmark => ?_, (hhead hc).2⟩) ?_ hs.handler
    · cases hmark
      exact hs.stub hop
    · intro j hin
      obtain ⟨breaks, hin⟩ := hstays hc nofun j hin
      exact ⟨breaks, List.mem_cons_of_mem _ hin⟩
  | endWhen hc =>
    refine hs.spared hop nofun ?_ ?_ (hhead hc).2 (hstays hc nofun) hs.handler
    · exact ((hs.becomes.modifyOp fun _ _ => Op.Becomes.setEnd _).modifyOp
        fun _ _ => Op.Becomes.setElse _).setPart _ _ rfl (hs.stub hop)
    · exact ((SparesLoops.setEnd _).trans (.setElse _)).trans (.setOp _ _ (hnotEnd hop nofun))
  | @endChoose start mark rest hc =>
    have hmark := (hhead hc).1 mark rfl
    refine hs.spared hop nofun ?_ ?_ (hhead hc).2 (hstays hc nofun) hs.handler
    · exact ((hs.becomes.modifyOp fun _ _ => Op.Becomes.setEnd _).setPart _ _ rfl hmark).setPart _ _
        rfl (hs.stub hop)
    · refine ((SparesLoops.setEnd _).trans (.setOp _ _ ?_)).trans (.setOp _ _ (hnotEnd hop nofun))
      rw [hmark]
      nofun
  | breakLoop hc =>
    exact hs.spared hop nofun hs.becomes (.refl _ _) (waits_addBreak hc (hs.stub hop) hs.waits)
      (fun _ => loop_of_addBreak hc) hs.handler
  | endLoop increment hc =>
    have hvisit : s.visit document index (.stub .endLoop) = _ := visit_endLoop document hc
    rw [h] at hvisit
    rw [Except.ok.inj hvisit]
    exact hs.endLoop hop hc
  | startFunction name param =>
    exact hs.spared hop nofun hs.becomes (.of_op? fun _ => rfl)
      (List.forall_mem_cons.2 ⟨⟨name, param, hs.stub hop⟩, hs.waits⟩) (henter _) hs.handler
  | @endFunction name start rest hc =>
    obtain ⟨⟨name', param, hstart⟩, hrest⟩ := hhead hc
    refine hs.spared hop nofun (hs.becomes.setPart _ _ rfl hstart) (.setOp _ _ ?_) hrest
      (hstays hc nofun) hs.handler
    rw [hstart]
    nofun
  | startSkill name =>
    exact hs.spared hop nofun hs.becomes (.of_op? fun _ => rfl)
      (List.forall_mem_cons.2 ⟨trivial, hs.waits⟩) (henter _) hs.handler
  | endSkill name hc =>
    exact hs.spared hop nofun hs.becomes (.refl _ _) (hhead hc).2 (hstays hc nofun) hs.handler
  | handler args stop =>
    refine hs.spared hop nofun hs.becomes (.refl _ _) hs.waits (fun _ hin => hin)
      fun start hstart => ?_
    cases hstart
    obtain ⟨old, hold, hbecomes⟩ := hs.becomes index _ hop
    obtain ⟨stop', rfl⟩ := hbecomes.of_handler
    exact ⟨args, stop', hold⟩
  | endException hc =>
    obtain ⟨args, stop, hhandler⟩ := hs.handler _ hc
    exact hs.spared hop nofun (hs.becomes.modifyOp fun _ _ => Op.Becomes.setStop _)
      (.setStop _ hs.becomes hhandler) hs.waits (fun _ hin => hin) nofun
  | tag name =>
    exact hs.spared hop nofun hs.becomes (.of_op? fun _ => rfl) hs.waits (fun _ hin => hin) hs.handler
  | strayEnd name hc =>
    exact hs.spared hop nofun hs.becomes (.refl _ _) hs.waits (fun _ hin => hin) hs.handler
  | other _ hpassed =>
    refine hs.spared hop ?_ hs.becomes (.refl _ _) hs.waits (fun _ hin => hin) hs.handler
    rintro guard count counter stop rfl
    exact hpassed

theorem visitFrom (n : Nat) (hs : Tracked first index s)
    (h : LinkState.visitFrom document index n s = .ok s') : Tracked first (index + n) s' := by
  induction n generalizing index s with
  | zero =>
    cases h
    exact hs
  | succ n ih =>
    unfold LinkState.visitFrom at h
    split at h
    · next hnone =>
      -- nothing is left to visit
      have hsize : s.draft.size ≤ index := Array.getElem?_eq_none_iff.1 hnone
      cases h
      refine ⟨hs.becomes, hs.waits, hs.handler, fun j guard count counter stop hloop => ?_⟩
      have hlt := lt_size_of_op? hloop
      refine .inr ((hs.loops j guard count counter stop hloop).resolve_left fun hle => ?_)
      omega
    · next i hi =>
      obtain ⟨s₁, h₁, h⟩ := bind_eq_ok h
      have hop : s.draft.op? index = some i.op := congrArg (Option.map Instruction.op) hi
      have hs' := ih (hs.visit hop h₁) h
      rwa [Nat.add_right_comm, Nat.add_assoc] at hs'

end Tracked

end LinkState

namespace Draft

open LinkState

/-! ## Linking all documents -/

/-- What holds of the operations of a draft whose first documents are linked. -/
structure TrackedTo (first : Draft) (k : Nat) (d : Draft) : Prop where
  layout : SameLayout first d
  becomes : first.Becomes d
  loops : ∀ j guard count counter stop, d.op? j = some (.loop guard count counter stop) →
    first.bound k ≤ j ∨ Back first d j guard counter stop

theorem linkDocument_trackedTo {first d d' : Draft} {k : Nat} (hfirst : first.Laid)
    (hk : k < first.sections.size) (hd : TrackedTo first k d) (h : d.linkDocument k = .ok d') :
    TrackedTo first (k + 1) d' := by
  obtain ⟨sec, hsec⟩ : ∃ sec, d.sections[k]? = some sec :=
    ⟨_, Array.getElem?_eq_getElem (hd.layout.sections ▸ hk)⟩
  obtain ⟨-, hstart, hstop⟩ := hd.layout.bounds hfirst hsec
  unfold linkDocument at h
  rw [hsec] at h
  obtain ⟨s, hs, hclose⟩ := bind_eq_ok h
  rw [hstart, hstop] at hs
  have hbegin : Tracked first (first.bound k) ⟨d, [], none⟩ :=
    ⟨hd.becomes, nofun, nofun, fun j guard count counter stop hloop =>
      (hd.loops j guard count counter stop hloop).imp_right .inr⟩
  have hend := hbegin.visitFrom _ hs
  rw [Nat.add_sub_cancel' (hfirst.ordered k)] at hend
  have hclosed := close_eq hclose
  subst hclosed
  refine ⟨hd.layout.trans (sameLayout_of_visitFrom hs), hend.becomes, ?_⟩
  intro j guard count counter stop hloop
  rcases hend.loops j guard count counter stop hloop with hle | ⟨breaks, hin⟩ | hback
  · exact .inl hle
  · cases opening_of_close hclose hin
  · exact .inr hback

theorem link_trackedTo {first d : Draft} (hfirst : first.Laid) (h : first.link = .ok d) :
    TrackedTo first first.sections.size d := by
  refine link_induction ?_ (fun _ _ _ hk hd => linkDocument_trackedTo hfirst hk hd) h
  refine ⟨.refl _, .refl _, fun j _ _ _ _ _ => .inl ?_⟩
  rw [hfirst.first]
  exact Nat.zero_le j

/-! ## Looking references up -/

/-- What holds of the operations of a linked draft. -/
structure Traced (first d : Draft) : Prop where
  size : d.size = first.size
  becomes : first.Becomes d
  loops : ∀ j guard count counter stop, d.op? j = some (.loop guard count counter stop) →
    Back first d j guard counter stop

theorem TrackedTo.traced {first d : Draft} (h : TrackedTo first first.sections.size d) :
    Traced first d where
  size := h.layout.size
  becomes := h.becomes
  loops j guard count counter stop hloop := by
    obtain hle | hback := h.loops j guard count counter stop hloop
    · have hlt := lt_size_of_op? hloop
      rw [Draft.bound_size] at hle
      rw [h.layout.size] at hlt
      exact absurd hlt (Nat.not_lt.2 hle)
    · exact hback

/-- Looking a reference up spares the loops and their ends, which take none. -/
theorem settle_spares {first d d' : Draft} {r : OpenReference} {op : Op}
    (hop : first.op? r.index = some op) (htakes : op.Takes r.refers) (h : d.settle r = .ok d') :
    SparesLoops first d d' := by
  cases settling h with
  | label hr ht =>
    refine .setOp _ _ ?_
    rw [hop]
    rintro heq
    cases heq
    cases htakes
  | function hr ht =>
    exact .modifyOp (fun op _ _ _ _ _ hf => by cases op <;> first | exact hf | cases hf)
      fun _ _ => rfl
  | skill hr ht =>
    exact .modifyOp (fun op _ _ _ _ _ hf => by cases op <;> first | exact hf | cases hf)
      fun _ _ => rfl

theorem settle_becomes {first d d' : Draft} {r : OpenReference} {op : Op} (hd : first.Becomes d)
    (hop : first.op? r.index = some op) (htakes : op.Takes r.refers) (h : d.settle r = .ok d') :
    first.Becomes d' := by
  cases settling h with
  | @label text target hr ht =>
    rw [hr] at htakes
    cases htakes
    exact All.setOp hd ⟨_, hop, .goto _ _ _⟩
  | function hr ht => exact hd.modifyOp fun _ _ => Op.Becomes.setFunction _ _
  | skill hr ht => exact hd.modifyOp fun _ _ => Op.Becomes.setSkill _

theorem settleAll_traced {first : Draft} (refs : List OpenReference) {d d' : Draft}
    (hrefs : ∀ r ∈ refs, ∃ op, first.op? r.index = some op ∧ op.Takes r.refers)
    (hd : Traced first d) (h : refs.foldlM settle d = .ok d') : Traced first d' := by
  induction refs generalizing d with
  | nil =>
    cases h
    exact hd
  | cons r rest ih =>
    obtain ⟨d₁, h₁, h⟩ := bind_eq_ok h
    obtain ⟨⟨op, hop, htakes⟩, hrest⟩ := List.forall_mem_cons.1 hrefs
    have hspares := settle_spares hop htakes h₁
    have hsize := (settle_reworked h₁).size.trans hd.size
    refine ih hrest ⟨hsize, settle_becomes hd.becomes hop htakes h₁, ?_⟩ h
    intro j guard count counter stop hloop
    exact (hd.loops j _ _ _ _ (hspares.loop _ _ _ _ _ hloop)).spared hspares

end Draft

/-! ## Resolved programs -/

/-- How the documents, their ends and the loops of a program look like. -/
structure Program.Built (p : Program) : Prop where
  /-- Every instruction lies in a document. -/
  inside : ∀ j < p.size, ∃ (k : Nat) (doc : DocumentSpan), p.documents[k]? = some doc ∧
    doc.start ≤ j ∧ j < doc.stop
  /-- The main document, which is the first, ends the program, and every other one a skill. -/
  ends : ∀ (k : Nat) (doc : DocumentSpan), p.documents[k]? = some doc → ∃ j, j + 1 = doc.stop ∧
    doc.start ≤ j ∧ p.op? j = some (if k = 0 then .finish else .stub (.endSkill doc.name))
  /-- The end of a loop goes back to it, and counts one up if the loop has no guard. -/
  loops : ∀ j guard count counter stop, p.op? j = some (.loop guard count counter stop) →
    ∃ k, k + 1 = stop ∧
      p.op? k = some (.goto j (if Text.isBlankText guard then some counter else none))
  /-- Ahead of a loop without a guard its counter is set to zero. -/
  resets : ∀ j guard count counter stop, p.op? j = some (.loop guard count counter stop) →
    Text.isBlankText guard = true → ∃ i, i + 1 = j ∧ p.op? i = some (RawStep.resetCounter counter)

/-- What was taken up of the documents is what a resolved program is built of. -/
theorem Program.built_of_resolve {main : SkillDocument} {library : SkillLibrary} {p : Program}
    (h : resolve main library = .ok p) : p.Built := by
  obtain ⟨d₁, d₂, d₃, h₁, h₂, h₃, rfl⟩ := resolve_eq_ok h
  obtain ⟨hlaid, -⟩ := Draft.ofDocuments_laid h₁
  have hdrafted := Draft.ofDocuments_drafted h₁
  have hlinked := Draft.link_trackedTo hlaid h₂
  have hrefs := hdrafted.references
  rw [← hlinked.layout.references] at hrefs
  have htraced := Draft.settleAll_traced _ hrefs (hlinked.traced) h₃
  have hsections : d₃.sections = d₂.sections := Draft.settleAll_sections h₃
  have hspan : ∀ (k : Nat) (doc : DocumentSpan), (d₃.finish main).documents[k]? = some doc →
      ∃ sec : Section, d₁.sections[k]? = some sec ∧ sec.span = doc := by
    intro k doc hdoc
    change (d₃.sections.toList.map (·.span))[k]? = some doc at hdoc
    rw [hsections, List.getElem?_map, Array.getElem?_toList] at hdoc
    obtain ⟨sec, hsec, rfl⟩ := Option.map_eq_some_iff.1 hdoc
    obtain ⟨sec₁, hsec₁, heq⟩ := hlinked.layout.span k sec hsec
    exact ⟨sec₁, hsec₁, heq.symm⟩
  exact {
    inside := fun j hj => by
      change j < d₃.size at hj
      rw [htraced.size] at hj
      obtain ⟨doc, hdoc, hle, hlt⟩ := Draft.exists_document hlinked.layout hlaid hj
      obtain ⟨k, hk⟩ := List.getElem?_of_mem hdoc
      rw [← hsections] at hk
      exact ⟨k, doc, hk, hle, hlt⟩
    ends := fun k doc hdoc => by
      obtain ⟨sec, hsec, rfl⟩ := hspan k doc hdoc
      obtain ⟨j, hj, hle, hop⟩ := hdrafted.ends k sec hsec
      refine ⟨j, hj, hle, htraced.becomes.stays htraced.size hop ?_⟩
      split
      · trivial
      · rfl
    loops := fun j guard count counter stop hloop => by
      obtain ⟨k, hk, -, hback⟩ := htraced.loops j guard count counter stop hloop
      exact ⟨k, hk, hback⟩
    resets := fun j guard count counter stop hloop hguard => by
      obtain ⟨old, hold, hbecomes⟩ := htraced.becomes j _ hloop
      obtain ⟨stop', rfl⟩ := hbecomes.of_loop
      obtain ⟨i, hi, hreset⟩ := hdrafted.resets j guard count counter stop' hold hguard
      exact ⟨i, hi, htraced.becomes.stays htraced.size hreset trivial⟩ }

end Deskhand
