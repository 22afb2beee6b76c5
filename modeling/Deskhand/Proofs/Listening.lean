import Deskhand.Proofs.Effects

/-!
# Commands one at a time

A mission takes commands in a loop, and whatever it does else is one turn without commands
(`Mission.proceed`). Here the loop is taken apart. Either the next thing that happens is that one
command is taken or one is waited for (`Mission.Takes`), or the mission sees that it is cancelled
(`Mission.Stops`), or that nobody is left who could resume it (`Mission.Abandoned`), or there is
nothing to take (`Mission.Clear`). The bound on the number of commands is never met as long as whoever
waits for the status has asked for it (`Mission.Attended`), so that the turn after a command is the one
before it (`Mission.Takes.turn`).
-/

namespace Deskhand

open Relation (ReflTransGen)

namespace Workspace

/-- The change lets commands come in at most. -/
def Passing (_ : StepContext) (w w' : Workspace) : Prop := w.world.Passes w'.world

instance : Admits Passing := ⟨fun _ => .refl _, id⟩

instance (name : String) : AdmitsDeclare Passing name := ⟨fun _ => .refl _⟩

instance : AdmitsRaise Passing := ⟨fun _ => .refl _⟩

theorem passes_of_changes {c : StepContext} {w w' : Workspace}
    (h : ReflTransGen (Passing c) w w') : w.world.Passes w'.world := by
  induction h with
  | refl => exact .refl _
  | tail _ hlast ih => exact ih.trans hlast

end Workspace

namespace Mission

/-! ## What happens while no command is taken -/

/-- Commands may have come in, but none was taken, and whether the mission is paused is as it was. -/
structure Busy (m m' : Mission) : Prop where
  world : m.world.Passes m'.world
  paused : m'.paused = m.paused

theorem Busy.trans {m m' m'' : Mission} (h : m.Busy m') (h' : m'.Busy m'') : m.Busy m'' :=
  ⟨h.world.trans h'.world, h'.paused.trans h.paused⟩

theorem busy_setWorld {m : Mission} {w : World} (h : m.world.Passes w) : m.Busy (m.setWorld w) :=
  ⟨h, rfl⟩

theorem perform_passes (m : Mission) (op : Op) : m.world.Passes (m.perform op).2.world := by
  have hworked : m.Worked Workspace.Passing op (m.perform op).2.work :=
    perform_worked fun _ _ => inferInstance
  change m.world.Passes (m.perform op).2.work.world
  generalize (m.perform op).2.work = work at hworked
  cases hworked with
  | changed h => exact Workspace.passes_of_changes h
  | @recorded work h => exact (Workspace.passes_of_changes h : m.work.world.Passes work.world)
  | unwound => exact .refl _
  | backed => exact .refl _

theorem perform_busy (m : Mission) (op : Op) : m.Busy (m.perform op).2 where
  world := m.perform_passes op
  paused := by
    have h := m.performed op
    generalize m.perform op = r at h
    cases h <;> rfl

theorem step_busy (m : Mission) : m.Busy m.step.2 := by
  rw [step_snd]
  generalize hr : m.tick = r
  have h := m.ticked
  rw [hr] at h
  cases h with
  | none => exact ⟨.refl _, rfl⟩
  | @aborted i _ _ _ hp =>
    have hbusy := m.perform_busy i.op
    rwa [hp] at hbusy
  | @next i _ _ _ hp =>
    have hbusy := m.perform_busy i.op
    rw [hp] at hbusy
    exact ⟨hbusy.world, hbusy.paused⟩
  | @failed i _ _ _ _ hp =>
    have hbusy := m.perform_busy i.op
    rw [hp] at hbusy
    exact ⟨hbusy.world, hbusy.paused⟩

theorem reconnect_busy (m : Mission) : m.Busy m.reconnect := by
  unfold reconnect
  cases h : m.refreshPage with
  | error fault => exact ⟨.refl _, rfl⟩
  | ok m' =>
    obtain ⟨w, hw, rfl⟩ := refreshPage_eq h
    exact ⟨hw, rfl⟩

theorem recover_busy (m : Mission) : m.Busy m.recover := by
  have hw := m.world.retry_passes (m.recovery.config.policyFor none)
  unfold recover
  rcases hr : m.world.retry (m.recovery.config.policyFor none) with ⟨_ | attempts, w⟩
  · rw [hr] at hw
    simp only [hr]
    exact (busy_setWorld hw).trans (reconnect_busy _)
  · rw [hr] at hw
    simp only [hr]
    exact ⟨hw, rfl⟩

/-- A turn when there is no command to take: an instruction is executed, or the mission recovers, or
fails because it has executed as many as it may. -/
def proceed (m : Mission) : Turn × Mission :=
  match m.outOfSteps with
  | some limit => (.over, m.fail s!"step budget of {limit} exhausted")
  | none =>
    if m.symbols.flag Reserved.inException && !m.handling then
      match m.program.handlerFor? m.index with
      | some handler => { m with handling := true, index := handler }.step
      | none => (.goOn, m.recover)
    else m.step

theorem proceed_busy (m : Mission) : m.Busy m.proceed.2 := by
  unfold proceed
  split
  · exact ⟨.refl _, rfl⟩
  · split
    · split
      · next handler _ =>
        have hstep := step_busy { m with handling := true, index := handler }
        exact ⟨hstep.world, hstep.paused⟩
      · exact m.recover_busy
    · exact m.step_busy

/-- A turn takes commands first. -/
theorem turn_eq_drain {m : Mission} (hdone : m.isDone = false) :
    m.turn = match m.drain with
      | (true, d) => (.cancelled, d.unwind)
      | (false, d) => d.proceed := by
  unfold turn
  rw [hdone, if_neg Bool.false_ne_true]
  rfl

/-! ## One command -/

/-- The mission is not cancelled, and somebody may still send commands. -/
structure Listens (m : Mission) : Prop where
  cancelled : m.world.remote.cancelled = false
  connected : m.world.remote.connected = true

def withInbox (inbox : List Command) (m : Mission) : Mission :=
  m.modifyRemote fun r => { r with inbox }

/-- What is seen of a mission that is controlled. -/
inductive Event where
  | took (c : Command)
  /-- It was paused, and waited until commands came in. -/
  | waited (sent : List Command)
  /-- It was paused, and there was nobody left to resume it. -/
  | abandoned
  | sawCancelled
  /-- It did what it does when there is no command to take, and commands came in meanwhile. -/
  | proceeded (sent : List Command)
  | finished
  /-- A command came in between two steps. -/
  | sent (c : Command)
  | cancelledToken
  /-- The controller has another plan; with an empty one nobody is left to send commands. -/
  | planned (schedule : List Scheduled)

/-- A command is taken, or waited for. -/
inductive Takes (m : Mission) : Event → Mission → Prop
  | command {c : Command} {rest : List Command} (hl : m.Listens)
    (hinbox : m.world.remote.inbox = c :: rest) (hc : c ≠ .cancel) :
    Takes m (.took c) ((m.withInbox rest).obey c).2
  | waited {s : Scheduled} {later : List Scheduled} (hl : m.Listens) (hpaused : m.paused = true)
    (hinbox : m.world.remote.inbox = []) (hschedule : m.world.remote.schedule = s :: later) :
    Takes m (.waited (m.world.remote.sentTo (m.awaitCommand s.due).world.remote))
      (m.awaitCommand s.due)

/-- The mission finds that it is cancelled. -/
inductive Stops (m : Mission) : Event → Mission → Prop
  | seen (hcancelled : m.world.remote.cancelled = true) : Stops m .sawCancelled m
  | taken {rest : List Command} (hl : m.Listens)
    (hinbox : m.world.remote.inbox = .cancel :: rest) :
    Stops m (.took .cancel) (m.withInbox rest)

/-- The mission is paused and nobody is left to send a command. -/
structure Abandoned (m : Mission) : Prop where
  listens : m.Listens
  paused : m.paused = true
  inbox : m.world.remote.inbox = []
  schedule : m.world.remote.schedule = []

/-- So it goes on, and takes no more commands. -/
def disconnected (m : Mission) : Mission :=
  { m.modifyRemote fun r => { r with connected := false } with paused := false }

/-- There is no command to take, nor to wait for. -/
structure Clear (m : Mission) : Prop where
  cancelled : m.world.remote.cancelled = false
  free : m.world.remote.connected = false ∨ m.world.remote.inbox = [] ∧ m.paused = false

/-- One of these is the case. -/
theorem hears (m : Mission) :
    (∃ e m', m.Takes e m') ∨ (∃ e d, m.Stops e d) ∨ m.Abandoned ∨ m.Clear := by
  cases hcancelled : m.world.remote.cancelled with
  | true => exact .inr (.inl ⟨_, _, .seen hcancelled⟩)
  | false =>
    cases hconnected : m.world.remote.connected with
    | false => exact .inr (.inr (.inr ⟨hcancelled, .inl hconnected⟩))
    | true =>
      have hl : m.Listens := ⟨hcancelled, hconnected⟩
      cases hinbox : m.world.remote.inbox with
      | cons c rest =>
        by_cases hc : c = .cancel
        · subst hc
          exact .inr (.inl ⟨_, _, .taken hl hinbox⟩)
        · exact .inl ⟨_, _, .command hl hinbox hc⟩
      | nil =>
        cases hpaused : m.paused with
        | false => exact .inr (.inr (.inr ⟨hcancelled, .inr ⟨hinbox, hpaused⟩⟩))
        | true =>
          cases hschedule : m.world.remote.schedule with
          | nil => exact .inr (.inr (.inl ⟨hl, hpaused, hinbox, hschedule⟩))
          | cons s later => exact .inl ⟨_, _, .waited hl hpaused hinbox hschedule⟩

section Loop

variable {m m' d : Mission} {e : Event}

theorem Takes.listens (h : m.Takes e m') : m.Listens := by
  cases h with
  | command hl => exact hl
  | waited hl => exact hl

theorem Stops.takeCommands (h : m.Stops e d) (fuel : Nat) :
    m.takeCommands (fuel + 1) = (true, d) := by
  rw [Mission.takeCommands]
  cases h with
  | seen hcancelled => rw [if_pos hcancelled]
  | taken hl hinbox => simp [hl.cancelled, hl.connected, hinbox, obey, withInbox]

theorem Clear.takeCommands (h : m.Clear) (fuel : Nat) :
    m.takeCommands (fuel + 1) = (false, m) := by
  rw [Mission.takeCommands]
  obtain ⟨hcancelled, hconnected | ⟨hinbox, hpaused⟩⟩ := h
  · simp [hcancelled, hconnected]
  · simp [hcancelled, hinbox, hpaused]

theorem Abandoned.takeCommands (h : m.Abandoned) (fuel : Nat) :
    m.takeCommands (fuel + 1) = (false, m.disconnected) := by
  rw [Mission.takeCommands]
  simp [h.listens.cancelled, h.listens.connected, h.inbox, h.paused, h.schedule, disconnected]

theorem Takes.takeCommands (h : m.Takes e m') (fuel : Nat) :
    m.takeCommands (fuel + 1) = m'.takeCommands fuel := by
  rw [Mission.takeCommands]
  cases h with
  | @command c rest hl hinbox hc =>
    cases c with
    | cancel => exact absurd rfl hc
    | _ => simp [hl.cancelled, hl.connected, hinbox, obey, withInbox]
  | waited hl hpaused hinbox hschedule =>
    simp [hl.cancelled, hl.connected, hinbox, hpaused, hschedule]

end Loop

/-! ## Missions that are attended to -/

/-- A mission that is paused can be resumed, and whoever waits for the status has asked for it. -/
structure Attended (m : Mission) : Prop where
  connected : m.paused = true → m.world.remote.connected = true
  asked : m.world.remote.awaiting = true → .status ∈ m.world.remote.inbox

/-- A mission that gets a controller is attended to. -/
theorem attended_control (ahead : List Command) (schedule : List Scheduled) (m : Mission) :
    (m.control ahead schedule).Attended where
  connected _ := rfl
  asked hawaiting := by cases hawaiting

section Attended

variable {m m' : Mission} {e : Event}

/-- Nobody waits when there is nothing in the inbox. -/
theorem Attended.not_awaiting (hm : m.Attended) (hinbox : m.world.remote.inbox = []) :
    m.world.remote.awaiting = false := by
  cases hawaiting : m.world.remote.awaiting with
  | false => rfl
  | true =>
    have hmem := hm.asked hawaiting
    rw [hinbox] at hmem
    cases hmem

/-- Commands that come in leave it attended to. -/
theorem Attended.of_sends (hm : m.Attended) (hpaused : m'.paused = m.paused) {sent : List Command}
    (hsent : m.world.remote.Sends sent m'.world.remote) : m'.Attended where
  connected h := by
    rw [hsent.connected]
    exact hm.connected (hpaused ▸ h)
  asked h := by
    rw [hsent.inbox]
    rcases hsent.awaiting h with hbefore | hmem
    · exact List.mem_append_left sent (hm.asked hbefore)
    · exact List.mem_append_right _ hmem

theorem Attended.of_busy (hm : m.Attended) (h : m.Busy m') : m'.Attended := by
  obtain ⟨sent, hsent⟩ := h.world.remote
  exact hm.of_sends h.paused hsent

theorem Attended.disconnected (hm : m.Attended) : m.disconnected.Attended where
  connected h := by cases h
  asked := hm.asked

/-- While the mission waits the next command of the schedule comes in. -/
theorem sends_awaitCommand (hm : m.Attended) {s : Scheduled} {later : List Scheduled}
    (hinbox : m.world.remote.inbox = []) (hschedule : m.world.remote.schedule = s :: later) :
    ∃ sent, m.world.remote.Sends (s.command :: sent) (m.awaitCommand s.due).world.remote := by
  have hdue : s.due < max m.world.clock s.due + 1 :=
    Nat.lt_succ_of_le (Nat.le_max_right m.world.clock s.due)
  exact Remote.sends_sendBefore_cons hschedule (hm.not_awaiting hinbox) hdue

theorem Takes.attended (h : m.Takes e m') (hm : m.Attended) : m'.Attended := by
  cases h with
  | @command c rest hl hinbox hc =>
    have hasked := hm.asked
    rw [hinbox] at hasked
    cases c with
    | cancel => exact absurd rfl hc
    | pause =>
      refine ⟨fun _ => hl.connected, fun hawaiting => ?_⟩
      exact (List.mem_cons.1 (hasked hawaiting)).resolve_left (by decide)
    | resume =>
      refine ⟨fun _ => hl.connected, fun hawaiting => ?_⟩
      exact (List.mem_cons.1 (hasked hawaiting)).resolve_left (by decide)
    | status => exact ⟨fun _ => hl.connected, fun hawaiting => by cases hawaiting⟩
  | waited hl hpaused hinbox hschedule =>
    obtain ⟨sent, hsent⟩ := sends_awaitCommand hm hinbox hschedule
    exact hm.of_sends rfl hsent

/-! ## The bound on the number of commands -/

/-- How many times the mission may still hear of a command: once that it comes in, and once that it is
there. -/
def pending (m : Mission) : Nat := 2 * m.world.remote.schedule.length + m.world.remote.inbox.length

theorem Takes.pending_lt (h : m.Takes e m') (hm : m.Attended) : m'.pending < m.pending := by
  cases h with
  | @command c rest hl hinbox hc =>
    have hpending : ((m.withInbox rest).obey c).2.pending =
        2 * m.world.remote.schedule.length + rest.length := by
      cases c <;> rfl
    rw [hpending, pending, hinbox, List.length_cons]
    omega
  | @waited s later hl hpaused hinbox hschedule =>
    obtain ⟨sent, hsent⟩ := sends_awaitCommand hm hinbox hschedule
    have hlength := hsent.length_schedule
    rw [pending, pending, hsent.inbox, hinbox, hlength, List.nil_append, List.length_cons]
    omega

/-- More fuel than there are commands to hear of makes no difference. -/
theorem takeCommands_succ (fuel : Nat) (hm : m.Attended) (h : m.pending < fuel) :
    m.takeCommands (fuel + 1) = m.takeCommands fuel := by
  induction fuel generalizing m with
  | zero => exact absurd h (Nat.not_lt_zero _)
  | succ fuel ih =>
    rcases m.hears with ⟨e, m', htakes⟩ | ⟨e, d, hstops⟩ | habandoned | hclear
    · have hlt := htakes.pending_lt hm
      rw [htakes.takeCommands, htakes.takeCommands, ih (htakes.attended hm) (by omega)]
    · rw [hstops.takeCommands, hstops.takeCommands]
    · rw [habandoned.takeCommands, habandoned.takeCommands]
    · rw [hclear.takeCommands, hclear.takeCommands]

/-- The bound is never met. -/
theorem takeCommands_eq_drain (hm : m.Attended) {fuel : Nat} (h : m.pending < fuel) :
    m.takeCommands fuel = m.drain := by
  induction fuel with
  | zero => exact absurd h (Nat.not_lt_zero _)
  | succ fuel ih =>
    by_cases hlt : m.pending < fuel
    · rw [takeCommands_succ fuel hm hlt, ih hlt]
    · have hfuel : fuel = m.pending := by omega
      rw [hfuel]
      rfl

theorem Takes.drain (h : m.Takes e m') (hm : m.Attended) : m.drain = m'.drain := by
  have hlt := h.pending_lt hm
  rw [← takeCommands_eq_drain (h.attended hm) hlt, ← h.takeCommands]
  rfl

theorem Stops.drain {d : Mission} (h : m.Stops e d) : m.drain = (true, d) := h.takeCommands _

theorem Clear.drain (h : m.Clear) : m.drain = (false, m) := h.takeCommands _

theorem Abandoned.drain (h : m.Abandoned) : m.drain = (false, m.disconnected) := h.takeCommands _

/-- Nobody is left whose commands could be taken. -/
theorem Abandoned.clear (h : m.Abandoned) : m.disconnected.Clear := ⟨h.listens.cancelled, .inl rfl⟩

/-! ## The turn goes on -/

theorem Takes.isDone (h : m.Takes e m') : m'.isDone = m.isDone := by
  cases h with
  | @command c => cases c <;> rfl
  | waited => rfl

/-- The turn after a command is the one before it. -/
theorem Takes.turn (h : m.Takes e m') (hm : m.Attended) (hdone : m.isDone = false) :
    m.turn = m'.turn := by
  rw [turn_eq_drain hdone, turn_eq_drain (h.isDone.trans hdone), h.drain hm]

theorem Stops.turn {d : Mission} (h : m.Stops e d) (hdone : m.isDone = false) :
    m.turn = (.cancelled, d.unwind) := by
  rw [turn_eq_drain hdone, h.drain]

theorem Clear.turn (h : m.Clear) (hdone : m.isDone = false) : m.turn = m.proceed := by
  rw [turn_eq_drain hdone, h.drain]

theorem Abandoned.turn (h : m.Abandoned) (hdone : m.isDone = false) :
    m.turn = m.disconnected.turn := by
  have hdone' : m.disconnected.isDone = false := hdone
  rw [turn_eq_drain hdone, h.drain, h.clear.turn hdone']

end Attended

end Mission

end Deskhand
