import Deskhand.Recovery.Retry

/-!
# Commands that come in

Commands come in while time passes, and time passes in waits. What comes in is sent in the order of
the schedule and stands behind what waits in the inbox already; nothing is taken from there
(`Remote.Sends`). All that a mission does in the world besides taking commands lets commands come in
at most, and leaves the external operations alone (`World.Passes`).
-/

namespace Deskhand

namespace Remote

/-- The commands that were sent between two states, which can be told from the schedules. -/
def sentTo (r r' : Remote) : List Command :=
  (r.schedule.map (·.command)).take (r.schedule.length - r'.schedule.length)

/-- The commands were sent, the first ones of the schedule in their order, and that is all. -/
structure Sends (r : Remote) (sent : List Command) (r' : Remote) : Prop where
  connected : r'.connected = r.connected
  schedule : r.schedule.map (·.command) = sent ++ r'.schedule.map (·.command)
  inbox : r'.inbox = r.inbox ++ sent
  awaiting : r'.awaiting = true → r.awaiting = true ∨ .status ∈ sent
  cancelled : r.cancelled = true → r'.cancelled = true

namespace Sends

variable {r r' r'' : Remote} {sent more : List Command}

theorem refl (r : Remote) : r.Sends [] r where
  connected := rfl
  schedule := rfl
  inbox := (List.append_nil _).symm
  awaiting := .inl
  cancelled := id

theorem trans (h : r.Sends sent r') (h' : r'.Sends more r'') : r.Sends (sent ++ more) r'' where
  connected := h'.connected.trans h.connected
  schedule := by rw [h.schedule, h'.schedule, List.append_assoc]
  inbox := by rw [h'.inbox, h.inbox, List.append_assoc]
  awaiting hawaiting := by
    rcases h'.awaiting hawaiting with hbefore | hmore
    · exact (h.awaiting hbefore).imp_right fun hsent => List.mem_append_left more hsent
    · exact .inr (List.mem_append_right sent hmore)
  cancelled hcancelled := h'.cancelled (h.cancelled hcancelled)

theorem length_schedule (h : r.Sends sent r') :
    r.schedule.length = sent.length + r'.schedule.length := by
  have hlength := congrArg List.length h.schedule
  simpa using hlength

theorem sentTo_eq (h : r.Sends sent r') : r.sentTo r' = sent := by
  have hcount : r.schedule.length - r'.schedule.length = sent.length := by
    rw [h.length_schedule]
    omega
  rw [sentTo, hcount, h.schedule, List.take_left]

end Sends

theorem sends_send (s : Scheduled) (rest : List Scheduled) (r : Remote) :
    Sends { r with schedule := s :: rest } [s.command]
      { r.send s.command with schedule := rest } where
  connected := rfl
  schedule := rfl
  inbox := rfl
  awaiting hawaiting := .inr (List.mem_singleton.2 (eq_of_beq hawaiting).symm)
  cancelled hcancelled := by
    have hbefore : r.cancelled = true := hcancelled
    change (r.cancelled || _) = true
    rw [hbefore, Bool.true_or]

theorem sends_go (time : Nat) (schedule : List Scheduled) (r : Remote) :
    ∃ sent, Sends { r with schedule } sent (sendBefore.go time schedule r) := by
  induction schedule generalizing r with
  | nil => exact ⟨[], .refl _⟩
  | cons s rest ih =>
    rw [sendBefore.go]
    by_cases hwait : (r.awaiting || time ≤ s.due) = true
    · rw [if_pos hwait]
      exact ⟨[], .refl _⟩
    · rw [if_neg hwait]
      obtain ⟨sent, hsent⟩ := ih (r.send s.command)
      exact ⟨[s.command] ++ sent, (sends_send s rest r).trans hsent⟩

theorem sends_sendBefore (time : Nat) (r : Remote) : ∃ sent, r.Sends sent (r.sendBefore time) :=
  sends_go time r.schedule r

/-- If no status is awaited, the next command of the schedule is sent when its time is past. -/
theorem sends_sendBefore_cons {time : Nat} {r : Remote} {s : Scheduled} {rest : List Scheduled}
    (hschedule : r.schedule = s :: rest) (hawaiting : r.awaiting = false) (hdue : s.due < time) :
    ∃ sent, r.Sends (s.command :: sent) (r.sendBefore time) := by
  have hsend : ¬(r.awaiting || time ≤ s.due) = true := by
    rw [hawaiting]
    simpa using hdue
  have hsame : { r with schedule := s :: rest } = r := by rw [← hschedule]
  obtain ⟨sent, hsent⟩ := sends_go time rest (r.send s.command)
  have htrans := (sends_send s rest r).trans hsent
  rw [hsame] at htrans
  refine ⟨sent, ?_⟩
  rw [sendBefore, hschedule, sendBefore.go, if_neg hsend]
  exact htrans

end Remote

namespace World

/-- Besides taking commands, what a mission does in the world may let commands come in, and does not
touch the external operations. -/
structure Passes (w w' : World) : Prop where
  external : w'.external = w.external
  remote : ∃ sent, w.remote.Sends sent w'.remote

namespace Passes

variable {w w' w'' : World}

theorem of_remote (hexternal : w'.external = w.external) (hremote : w'.remote = w.remote) :
    w.Passes w' where
  external := hexternal
  remote := ⟨[], hremote ▸ .refl _⟩

theorem refl (w : World) : w.Passes w := .of_remote rfl rfl

theorem trans (h : w.Passes w') (h' : w'.Passes w'') : w.Passes w'' where
  external := h'.external.trans h.external
  remote := by
    obtain ⟨sent, hsent⟩ := h.remote
    obtain ⟨more, hmore⟩ := h'.remote
    exact ⟨sent ++ more, hsent.trans hmore⟩

end Passes

/-! ## What parts of steps do in the world -/

theorem passUntil_passes (time : Nat) (w : World) : w.Passes (w.passUntil time) where
  external := rfl
  remote := w.remote.sends_sendBefore time

theorem sleep_passes (d : Duration) (w : World) : w.Passes (w.sleep d) := by
  rw [sleep]
  by_cases hzero : d.isZero
  · rw [if_pos hzero]
    exact .refl w
  · rw [if_neg hzero]
    exact w.passUntil_passes _

/-- The clock is not part of what passes. -/
theorem Passes.withClock {w w' : World} (h : w.Passes w') (clock : Nat) :
    w.Passes { w' with clock } := ⟨h.external, h.remote⟩

theorem nap_passes (d : Duration) (w : World) : w.Passes (w.nap d).2 := by
  rw [nap]
  by_cases hcancelled : w.remote.cancelled
  · rw [if_pos hcancelled]
    exact .refl w
  · rw [if_neg hcancelled]
    dsimp only
    cases w.remote.cancellation? w.clock (w.clock + d.waitMillis) with
    | none => exact w.passUntil_passes _
    | some time => exact (w.passUntil_passes (time + 1)).withClock time

theorem ping_passes (w : World) : w.Passes w.ping.2 := .of_remote rfl rfl

theorem withDraws_passes {α : Type} (f : Draws → α × Draws) (w : World) :
    w.Passes (w.withDraws f).2 := .of_remote rfl rfl

theorem drawReal_passes (lo hi : Binary64) (w : World) : w.Passes (w.drawReal lo hi).2 :=
  w.withDraws_passes _

theorem readScreen_passes (w : World) : w.Passes w.readScreen.2 := .of_remote rfl rfl

theorem act_passes {action : DesktopAction} {w after : World} (h : w.act action = .ok after) :
    w.Passes after := by
  rw [act] at h
  cases hd : w.desktop.act action with
  | error fault =>
    rw [hd] at h
    cases h
  | ok desktop =>
    rw [hd] at h
    cases h
    exact .of_remote rfl rfl

theorem refreshPage_passes {w after : World} (h : w.refreshPage = .ok after) : w.Passes after :=
  act_passes h

theorem backOff_passes (p : RetryPolicy) (w : World) : w.Passes (p.backOff w).2 := by
  rw [RetryPolicy.backOff]
  dsimp only
  generalize p.minBackOff.wholeMillis % Word.count64 = lo
  generalize p.maxBackOff.wholeMillis % Word.count64 = hi
  by_cases hempty : hi ≤ lo
  · rw [if_pos hempty]
    exact .refl w
  · rw [if_neg hempty]
    exact w.withDraws_passes _

theorem attempt_passes (p : RetryPolicy) (made left : Nat) (w : World) :
    w.Passes (p.attempt made left w).2 := by
  induction left generalizing made w with
  | zero => exact .refl w
  | succ left ih =>
    have hwait := (w.backOff_passes p).trans ((p.backOff w).2.sleep_passes (p.backOff w).1)
    have hping := hwait.trans (ping_passes _)
    rw [RetryPolicy.attempt]
    dsimp only
    split
    · exact hping
    · exact hping.trans (ih (made + 1) _)

/-- So do the attempts to reach a site. -/
theorem retry_passes (p : RetryPolicy) (w : World) : w.Passes (w.retry p).2 :=
  w.attempt_passes p 0 p.maxRetries

end World

end Deskhand
