import Deskhand.Proofs.Budget
import Deskhand.Proofs.Listening

/-!
# Controlled runs

A run under control is a sequence of moves (`Mission.Trace`): the mission takes a command, goes on, or
ends; between any two of these commands may come in, the token may be cancelled, and the controller
may give up. Without moves from outside such a sequence that ends is a run (`Mission.run_iff_trace`).
However the moves are interleaved, commands are taken in the order in which they came in, a mission
that took a pause does nothing until it is resumed, a status tells how the mission stands between two
steps, and a mission that is cancelled is over at once, with nothing under way
(`Mission.commands_obeyed`).
-/

namespace Deskhand

namespace Mission

/-! ## Moves -/

/-- Where a run stands: between two steps, or it is over. -/
inductive Stage where
  | running (m : Mission)
  | ended (result : Except SkillFault MissionReport) (m : Mission)

/-- Where a run stands after a turn. -/
def Turn.stage (m : Mission) : Turn → Stage
  | .goOn => .running m
  | .over => .ended (m.report false) m
  | .cancelled => .ended (m.report true) m
  | .aborted fault => .ended (.error fault) m

namespace Stage

def mission : Stage → Mission
  | running m => m
  | ended _ m => m

/-- As long as the run goes on the mission is attended to. -/
def Attended : Stage → Prop
  | running m => m.Attended
  | ended _ _ => True

/-- As long as the run goes on the mission is paused, and attended to. -/
def Held : Stage → Prop
  | running m => m.Attended ∧ m.paused = true
  | ended _ _ => True

/-- As long as the run goes on the token is cancelled. -/
def Doomed : Stage → Prop
  | running m => m.world.remote.cancelled = true
  | ended _ _ => True

end Stage

@[simp] theorem Turn.mission_stage (t : Turn) (m : Mission) : (t.stage m).mission = m := by
  cases t <;> rfl

theorem Turn.attended_stage (t : Turn) {m : Mission} (hm : m.Attended) : (t.stage m).Attended := by
  cases t
  · exact hm
  all_goals exact trivial

namespace Event

/-- The move is one of the mission itself. -/
def Own : Event → Prop
  | sent _ | cancelledToken | planned _ => False
  | _ => True

/-- The commands that come in with it. -/
def cameIn : Event → List Command
  | waited commands | proceeded commands => commands
  | sent c => [c]
  | _ => []

/-- The command that is taken, if it is one. -/
def taken : Event → List Command
  | took c => [c]
  | _ => []

end Event

/-- What may happen between two steps, and the steps themselves. The last three moves come from
outside, at any time: somebody sends a command, or cancels the token, or the controller makes another
plan, with which it may also leave for good. -/
inductive Moves (m : Mission) : Event → Stage → Prop
  | finishes (hdone : m.isDone = true) : Moves m .finished (Turn.over.stage m)
  | takes {e : Event} {m' : Mission} (hdone : m.isDone = false) (h : m.Takes e m') :
    Moves m e (.running m')
  | stops {e : Event} {d : Mission} (hdone : m.isDone = false) (h : m.Stops e d) :
    Moves m e (Turn.cancelled.stage d.unwind)
  | abandons (hdone : m.isDone = false) (h : m.Abandoned) :
    Moves m .abandoned (.running m.disconnected)
  | proceeds (hdone : m.isDone = false) (h : m.Clear) :
    Moves m (.proceeded (m.world.remote.sentTo m.proceed.2.world.remote))
      (m.proceed.1.stage m.proceed.2)
  | send (c : Command) (hconnected : m.world.remote.connected = true) :
    Moves m (.sent c) (.running (m.modifyRemote fun r => { r with inbox := r.inbox ++ [c] }))
  | cancelToken :
    Moves m .cancelledToken (.running (m.modifyRemote fun r => { r with cancelled := true }))
  | plan (schedule : List Scheduled) (hconnected : m.world.remote.connected = true) :
    Moves m (.planned schedule) (.running (m.modifyRemote fun r => { r with schedule }))

/-- One move after another. When a run is over nothing happens any more. -/
inductive Trace : Stage → List Event → Stage → Prop
  | nil (s : Stage) : Trace s [] s
  | cons {m : Mission} {e : Event} {s s' : Stage} {events : List Event} (h : m.Moves e s)
    (hrest : Trace s events s') : Trace (.running m) (e :: events) s'

section Moves

variable {m : Mission} {e : Event} {s : Stage}

theorem Moves.attended (h : m.Moves e s) (hm : m.Attended) : s.Attended := by
  cases h with
  | finishes => exact trivial
  | takes hdone h => exact h.attended hm
  | stops => exact trivial
  | abandons => exact hm.disconnected
  | proceeds => exact Turn.attended_stage _ (hm.of_busy m.proceed_busy)
  | send c => exact ⟨hm.connected, fun hawaiting => List.mem_append_left [c] (hm.asked hawaiting)⟩
  | cancelToken => exact ⟨hm.connected, hm.asked⟩
  | plan => exact ⟨hm.connected, hm.asked⟩

/-- What comes in is put behind what waits, and what is taken stands in front. -/
theorem Moves.inbox (h : m.Moves e s) (hm : m.Attended) :
    m.world.remote.inbox ++ e.cameIn = e.taken ++ s.mission.world.remote.inbox := by
  cases h with
  | finishes => exact List.append_nil _
  | takes hdone h =>
    cases h with
    | @command c rest hl hinbox hc =>
      have hrest : ((m.withInbox rest).obey c).2.world.remote.inbox = rest := by cases c <;> rfl
      change m.world.remote.inbox ++ [] = [c] ++ ((m.withInbox rest).obey c).2.world.remote.inbox
      rw [List.append_nil, hinbox, hrest]
      rfl
    | waited hl hpaused hinbox hschedule =>
      obtain ⟨sent, hsent⟩ := sends_awaitCommand hm hinbox hschedule
      change m.world.remote.inbox ++ m.world.remote.sentTo _ = _
      rw [hsent.sentTo_eq]
      exact hsent.inbox.symm
  | stops hdone h =>
    cases h with
    | seen => exact List.append_nil _
    | taken hl hinbox => exact (List.append_nil _).trans hinbox
  | abandons => exact List.append_nil _
  | proceeds =>
    obtain ⟨sent, hsent⟩ := m.proceed_busy.world.remote
    change m.world.remote.inbox ++ m.world.remote.sentTo _ = _
    rw [hsent.sentTo_eq, Turn.mission_stage]
    exact hsent.inbox.symm
  | send => rfl
  | cancelToken => exact List.append_nil _
  | plan => exact List.append_nil _

/-- Only a mission that has no command to take goes on. -/
theorem Moves.clear {sent : List Command} (h : m.Moves (.proceeded sent) s) : m.Clear := by
  cases h with
  | takes hdone h => cases h
  | stops hdone h => cases h
  | proceeds hdone hclear => exact hclear

theorem Moves.abandoned (h : m.Moves .abandoned s) : m.Abandoned := by
  cases h with
  | takes hdone h => cases h
  | stops hdone h => cases h
  | abandons hdone habandoned => exact habandoned

/-! ## Pausing -/

/-- A mission that is paused and can be resumed does not go on. -/
theorem Clear.not_paused (h : m.Clear) (hm : m.Attended) : m.paused = false := by
  cases hpaused : m.paused with
  | false => rfl
  | true =>
    rcases h.free with hconnected | ⟨-, hfalse⟩
    · rw [hm.connected hpaused] at hconnected
      cases hconnected
    · rw [hpaused] at hfalse
      cases hfalse

theorem Moves.held_of_pause (h : m.Moves (.took .pause) s) (hm : m.Attended) : s.Held := by
  have hs := h.attended hm
  cases h with
  | takes hdone h =>
    cases h with
    | command => exact ⟨hs, rfl⟩
  | stops => exact trivial

theorem Moves.held (h : m.Moves e s) (hm : m.Attended) (hpaused : m.paused = true)
    (hresume : e ≠ .took .resume) (habandoned : e ≠ .abandoned) : s.Held := by
  have hs := h.attended hm
  cases h with
  | finishes => exact trivial
  | takes hdone h =>
    refine ⟨hs, ?_⟩
    cases h with
    | @command c =>
      cases c with
      | resume => exact absurd rfl hresume
      | pause => rfl
      | _ => exact hpaused
    | waited => exact hpaused
  | stops => exact trivial
  | abandons => exact absurd rfl habandoned
  | proceeds hdone hclear =>
    rw [hclear.not_paused hm] at hpaused
    cases hpaused
  | send => exact ⟨hs, hpaused⟩
  | cancelToken => exact ⟨hs, hpaused⟩
  | plan => exact ⟨hs, hpaused⟩

/-! ## Cancelling -/

/-- Where a run stands that was cancelled: it is over, and nothing is under way. -/
def Stage.Cancelled (s : Stage) : Prop :=
  ∃ report final, s = .ended (.ok report) final ∧ report.status = .cancelled ∧
    final.calls = .empty ∧ final.skills = .empty

theorem Moves.cancelled (h : m.Moves e s) (he : e = .took .cancel ∨ e = .sawCancelled) :
    s.Cancelled := by
  cases h with
  | takes hdone h =>
    cases h with
    | command hl hinbox hc =>
      rcases he with he | he
      · injection he with he
        exact absurd he hc
      · cases he
    | waited => rcases he with he | he <;> cases he
  | stops => exact ⟨_, _, rfl, rfl, rfl, rfl⟩
  | _ => rcases he with he | he <;> cases he

theorem Moves.doomed (h : m.Moves e s) (hm : m.world.remote.cancelled = true) : s.Doomed := by
  cases h with
  | finishes => exact trivial
  | takes hdone h =>
    rw [h.listens.cancelled] at hm
    cases hm
  | stops => exact trivial
  | abandons hdone h =>
    rw [h.listens.cancelled] at hm
    cases hm
  | proceeds hdone h =>
    rw [h.cancelled] at hm
    cases hm
  | send => exact hm
  | cancelToken => rfl
  | plan => exact hm

theorem Moves.doomed_of_token (h : m.Moves .cancelledToken s) : s.Doomed := by
  cases h with
  | takes hdone h => cases h
  | stops hdone h => cases h
  | cancelToken => rfl

end Moves

/-! ## Sequences of moves -/

section Trace

variable {s s' : Stage} {events : List Event}

theorem Trace.append {mid : Stage} {more : List Event} (h : Trace s events mid)
    (h' : Trace mid more s') : Trace s (events ++ more) s' := by
  induction h with
  | nil => exact h'
  | cons h _ ih => exact .cons h (ih h')

/-- A sequence may be looked at from any of its events. -/
theorem Trace.at_event {before after : List Event} {e : Event}
    (h : Trace s (before ++ e :: after) s') : ∃ m mid, Trace s before (.running m) ∧ m.Moves e mid ∧
      Trace mid after s' := by
  induction before generalizing s with
  | nil =>
    cases h with
    | @cons m _ mid _ _ h hrest => exact ⟨m, mid, .nil _, h, hrest⟩
  | cons first before ih =>
    cases h with
    | cons h hrest =>
      obtain ⟨m, mid, hbefore, hmove, hafter⟩ := ih hrest
      exact ⟨m, mid, .cons h hbefore, hmove, hafter⟩

/-- What every move keeps, of those that happen, a sequence of moves keeps. -/
theorem Trace.keeps {P : Stage → Prop} {Q : Event → Prop} (h : Trace s events s')
    (hmoves : ∀ m e s, Moves m e s → Q e → P (.running m) → P s) (hevents : ∀ e ∈ events, Q e)
    (hs : P s) : P s' := by
  induction h with
  | nil => exact hs
  | cons h _ ih =>
    obtain ⟨hevent, hrest⟩ := List.forall_mem_cons.1 hevents
    exact ih hrest (hmoves _ _ _ h hevent hs)

theorem Trace.attended (h : Trace s events s') (hs : s.Attended) : s'.Attended :=
  h.keeps (fun _ _ _ hmove _ => hmove.attended) (fun _ _ => trivial) hs

theorem Trace.inbox (h : Trace s events s') (hs : s.Attended) :
    s.mission.world.remote.inbox ++ events.flatMap Event.cameIn =
      events.flatMap Event.taken ++ s'.mission.world.remote.inbox := by
  induction h with
  | nil => exact List.append_nil _
  | @cons m e mid s' events h hrest ih =>
    have hmove : m.world.remote.inbox ++ e.cameIn = e.taken ++ mid.mission.world.remote.inbox :=
      h.inbox hs
    have hmoves := ih (h.attended hs)
    calc m.world.remote.inbox ++ (e :: events).flatMap Event.cameIn
        = m.world.remote.inbox ++ e.cameIn ++ events.flatMap Event.cameIn := by
          rw [List.flatMap_cons, List.append_assoc]
      _ = e.taken ++ (mid.mission.world.remote.inbox ++ events.flatMap Event.cameIn) := by
          rw [hmove, List.append_assoc]
      _ = (e :: events).flatMap Event.taken ++ s'.mission.world.remote.inbox := by
          rw [hmoves, List.flatMap_cons, List.append_assoc]

theorem Trace.held (h : Trace s events s') (hs : s.Held)
    (hevents : ∀ e ∈ events, e ≠ .took .resume ∧ e ≠ .abandoned) : s'.Held :=
  h.keeps (fun _ _ _ hmove hevent hs => hmove.held hs.1 hs.2 hevent.1 hevent.2) hevents hs

theorem Trace.doomed (h : Trace s events s') (hs : s.Doomed) : s'.Doomed :=
  h.keeps (fun _ _ _ hmove _ => hmove.doomed) (fun _ _ => trivial) hs

/-- When a run is over nothing happens any more. -/
theorem Trace.nil_of_cancelled (h : Trace s events s') (hs : s.Cancelled) :
    events = [] ∧ s'.Cancelled := by
  obtain ⟨report, final, rfl, hcancelled⟩ := hs
  cases h with
  | nil => exact ⟨rfl, report, final, rfl, hcancelled⟩

end Trace

/-! ## Runs are sequences of moves -/

section Run

variable {m : Mission} {result : Except SkillFault MissionReport} {final : Mission}

theorem run_succ (fuel : Nat) (m : Mission) : m.run (fuel + 1) =
    match m.turn.1.stage m.turn.2 with
    | .running m' => m'.run fuel
    | .ended result m' => some (result, m') := by
  rw [run]
  rcases m.turn with ⟨_ | _, m'⟩ <;> rfl

/-- After a move of the mission the turn is still the same, or it is at its end. -/
theorem Moves.turn {e : Event} {s : Stage} (h : m.Moves e s) (hm : m.Attended) (hown : e.Own) :
    (∃ m', s = .running m' ∧ m.turn = m'.turn) ∨ s = m.turn.1.stage m.turn.2 := by
  cases h with
  | finishes hdone => exact .inr (by rw [turn_of_isDone hdone])
  | takes hdone h => exact .inl ⟨_, rfl, h.turn hm hdone⟩
  | stops hdone h => exact .inr (by rw [h.turn hdone])
  | abandons hdone h => exact .inl ⟨_, rfl, h.turn hdone⟩
  | proceeds hdone h => exact .inr (by rw [h.turn hdone])
  | send => exact absurd hown id
  | cancelToken => exact absurd hown id
  | plan => exact absurd hown id

/-- The moves are all of the mission itself. -/
def OwnTrace (s : Stage) (s' : Stage) : Prop :=
  ∃ events : List Event, (∀ e ∈ events, e.Own) ∧ Trace s events s'

theorem OwnTrace.cons {e : Event} {s s' : Stage} (h : m.Moves e s) (hown : e.Own)
    (hrest : OwnTrace s s') : OwnTrace (.running m) s' := by
  obtain ⟨events, hevents, htrace⟩ := hrest
  exact ⟨e :: events, List.forall_mem_cons.2 ⟨hown, hevents⟩, .cons h htrace⟩

theorem OwnTrace.refl (s : Stage) : OwnTrace s s :=
  ⟨[], fun _ h => absurd h List.not_mem_nil, .nil s⟩

theorem OwnTrace.trans {s s' s'' : Stage} (h : OwnTrace s s') (h' : OwnTrace s' s'') :
    OwnTrace s s'' := by
  obtain ⟨events, hevents, htrace⟩ := h
  obtain ⟨more, hmore, htrace'⟩ := h'
  exact ⟨events ++ more, List.forall_mem_append.2 ⟨hevents, hmore⟩, htrace.append htrace'⟩

/-- The moves of the mission lead to the end of its turn. -/
theorem ownTrace_turn (hm : m.Attended) : OwnTrace (.running m) (m.turn.1.stage m.turn.2) := by
  -- every command that is taken or waited for leaves fewer of them to come
  induction hn : m.pending using Nat.strongRecOn generalizing m with
  | ind n ih =>
    subst hn
    cases hdone : m.isDone with
    | true =>
      rw [turn_of_isDone hdone]
      exact .cons (.finishes hdone) trivial (.refl _)
    | false =>
      rcases m.hears with ⟨e, m', htakes⟩ | ⟨e, d, hstops⟩ | habandoned | hclear
      · have hown : e.Own := by cases htakes <;> exact trivial
        have hrest := ih m'.pending (htakes.pending_lt hm) (htakes.attended hm) rfl
        rw [htakes.turn hm hdone]
        exact .cons (.takes hdone htakes) hown hrest
      · have hown : e.Own := by cases hstops <;> exact trivial
        rw [hstops.turn hdone]
        exact .cons (.stops hdone hstops) hown (.refl _)
      · have hdone' : m.disconnected.isDone = false := hdone
        rw [habandoned.turn hdone, habandoned.clear.turn hdone']
        exact .cons (.abandons hdone habandoned) trivial
          (.cons (.proceeds hdone' habandoned.clear) trivial (.refl _))
      · rw [hclear.turn hdone]
        exact .cons (.proceeds hdone hclear) trivial (.refl _)

theorem OwnTrace.attended {s s' : Stage} (h : OwnTrace s s') (hs : s.Attended) : s'.Attended := by
  obtain ⟨events, -, htrace⟩ := h
  exact htrace.attended hs

/-- A run gives what the moves of the mission lead to. -/
theorem run_iff_trace (hm : m.Attended) :
    (∃ fuel, m.run fuel = some (result, final)) ↔ OwnTrace (.running m) (.ended result final) := by
  constructor
  · rintro ⟨fuel, hrun⟩
    induction fuel generalizing m with
    | zero => cases hrun
    | succ fuel ih =>
      have hturn := ownTrace_turn hm
      rw [run_succ] at hrun
      cases hstage : m.turn.1.stage m.turn.2 with
      | running m' =>
        rw [hstage] at hrun hturn
        exact hturn.trans (ih (hturn.attended hm) hrun)
      | ended result' m' =>
        rw [hstage] at hrun hturn
        cases hrun
        exact hturn
  · rintro ⟨events, hown, htrace⟩
    induction events generalizing m with
    | nil => cases htrace
    | cons e events ih =>
      obtain ⟨hown, hrest⟩ := List.forall_mem_cons.1 hown
      cases htrace with
      | cons h htrace =>
        rcases h.turn hm hown with ⟨m', rfl, hturn⟩ | rfl
        · -- the turn is not over, so it costs no fuel
          obtain ⟨fuel, hrun⟩ := ih (h.attended hm) hrest htrace
          cases fuel with
          | zero => cases hrun
          | succ fuel =>
            refine ⟨fuel + 1, ?_⟩
            rw [run_succ, hturn, ← run_succ]
            exact hrun
        · cases hstage : m.turn.1.stage m.turn.2 with
          | running m' =>
            rw [hstage] at h htrace
            obtain ⟨fuel, hrun⟩ := ih (h.attended hm) hrest htrace
            refine ⟨fuel + 1, ?_⟩
            rw [run_succ, hstage]
            exact hrun
          | ended result' m' =>
            rw [hstage] at htrace
            cases htrace with
            | nil => exact ⟨1, by rw [run_succ, hstage]⟩

end Run

/-! ## Commands are obeyed -/

/-- The status was told, in answer to the first command in the inbox. -/
def answered (rest : List Command) (m : Mission) : Mission :=
  m.modifyRemote fun r =>
    { r with inbox := rest, awaiting := false, replies := .progress m.progress :: r.replies }

/-- What can be said about a sequence of moves from a mission to where its run stands then. -/
structure Obeyed (m : Mission) (events : List Event) (s : Stage) : Prop where
  /-- Commands are taken in the order in which they came in, each at most once. -/
  inOrder : m.world.remote.inbox ++ events.flatMap Event.cameIn =
    events.flatMap Event.taken ++ s.mission.world.remote.inbox
  /-- Between a pause and the next resume the mission does not go on, unless it is abandoned. -/
  paused : ∀ (before during after : List Event) (sent : List Command),
    events = before ++ .took .pause :: (during ++ .proceeded sent :: after) →
      .took .resume ∈ during ∨ .abandoned ∈ during
  /-- It is abandoned only if nobody is left to send a command, and none waits to be taken. -/
  abandoned : ∀ before after : List Event, events = before ++ .abandoned :: after →
    ∃ m', Trace (.running m) before (.running m') ∧ m'.Abandoned
  /-- A status tells how the mission stands between two steps, and only the answer changes. -/
  status : ∀ before after : List Event, events = before ++ .took .status :: after →
    ∃ m' rest, Trace (.running m) before (.running m') ∧
      m'.world.remote.inbox = .status :: rest ∧ Trace (.running (m'.answered rest)) after s
  /-- When the mission finds that it is cancelled it is over. -/
  cancelled : ∀ (before : List Event) (e : Event) (after : List Event),
    e = .took .cancel ∨ e = .sawCancelled → events = before ++ e :: after →
      after = [] ∧ s.Cancelled
  /-- It does not go on when the token is cancelled. -/
  token : ∀ before after : List Event, events = before ++ .cancelledToken :: after →
    ∀ sent, .proceeded sent ∉ after

theorem Moves.answered {m : Mission} {s : Stage} (h : m.Moves (.took .status) s) :
    ∃ rest, m.world.remote.inbox = .status :: rest ∧ s = .running (m.answered rest) := by
  cases h with
  | takes hdone h =>
    cases h with
    | @command _ rest hl hinbox hc => exact ⟨rest, hinbox, rfl⟩
  | stops hdone h => cases h

/-- Commands are obeyed, however they come in between the steps of a run: in their order, each at most
once, between two steps, with nothing done while the mission is paused, and with nothing left under way
when it is cancelled. A run is a sequence of moves in which nothing comes from outside but by the
schedule of its controller. -/
theorem commands_obeyed (ahead : List Command) (schedule : List Scheduled) (m : Mission) :
    (∀ events s, Trace (.running (m.control ahead schedule)) events s →
      (m.control ahead schedule).Obeyed events s) ∧
    ∀ result final, (∃ fuel, (m.control ahead schedule).run fuel = some (result, final)) ↔
      OwnTrace (.running (m.control ahead schedule)) (.ended result final) := by
  have hm := attended_control ahead schedule m
  refine ⟨fun events s h => ?_, fun result final => run_iff_trace hm⟩
  constructor
  · exact h.inbox hm
  · rintro before during after sent rfl
    obtain ⟨m₁, s₁, hbefore, hpause, hlater⟩ := h.at_event
    obtain ⟨m₂, s₂, hduring, hproceeds, -⟩ := hlater.at_event
    by_contra hnot
    rw [not_or] at hnot
    have hheld : (Stage.running m₂).Held := by
      apply hduring.held (hpause.held_of_pause (hbefore.attended hm))
      intro e he
      exact ⟨fun heq => hnot.1 (heq ▸ he), fun heq => hnot.2 (heq ▸ he)⟩
    have hpaused := hproceeds.clear.not_paused hheld.1
    rw [hheld.2] at hpaused
    cases hpaused
  · rintro before after rfl
    obtain ⟨m', s', hbefore, hmove, -⟩ := h.at_event
    exact ⟨m', hbefore, hmove.abandoned⟩
  · rintro before after rfl
    obtain ⟨m', s', hbefore, hmove, hafter⟩ := h.at_event
    obtain ⟨rest, hinbox, rfl⟩ := hmove.answered
    exact ⟨m', rest, hbefore, hinbox, hafter⟩
  · rintro before e after he rfl
    obtain ⟨m', s', -, hmove, hafter⟩ := h.at_event
    exact hafter.nil_of_cancelled (hmove.cancelled he)
  · rintro before after rfl sent hmem
    obtain ⟨m', s', hbefore, hmove, hafter⟩ := h.at_event
    obtain ⟨between, later, rfl⟩ := List.append_of_mem hmem
    obtain ⟨m'', s'', hbetween, hproceeds, -⟩ := hafter.at_event
    have hdoomed : m''.world.remote.cancelled = true := hbetween.doomed hmove.doomed_of_token
    rw [hproceeds.clear.cancelled] at hdoomed
    cases hdoomed

/-- A mission in an endless loop, which somebody will resume some day. -/
def patrol : Mission := loopingMission.control [.pause] [⟨60000, .resume⟩]

theorem commands_obeyed_patrol : ∃ events s, Trace (.running patrol) events s ∧
    .took .pause ∈ events ∧ .took .cancel ∈ events ∧ s.Cancelled := by
  have htrace : Trace (.running patrol) [.took .pause, .sent .status, .took .status, .sent .cancel,
      .took .cancel] _ :=
    .cons (.takes rfl (.command ⟨rfl, rfl⟩ rfl (by decide))) (.cons (.send .status rfl)
      (.cons (.takes rfl (.command ⟨rfl, rfl⟩ rfl (by decide))) (.cons (.send .cancel rfl)
        (.cons (.stops rfl (.taken ⟨rfl, rfl⟩ rfl)) (.nil _)))))
  have hobeyed := (commands_obeyed [.pause] [⟨60000, .resume⟩] loopingMission).1 _ _ htrace
  obtain ⟨-, hcancelled⟩ := hobeyed.cancelled [.took .pause, .sent .status, .took .status,
    .sent .cancel] (.took .cancel) [] (.inl rfl) rfl
  exact ⟨_, _, htrace, List.mem_cons_self, by simp, hcancelled⟩

end Mission

end Deskhand
