import Deskhand.Proofs.Blocks
import Deskhand.Proofs.Targets
import Deskhand.Proofs.Run

/-!
# The structured reading of a block

What a block means is said by recursion on the tree, without a program: a condition chooses one of its
parts, a loop goes round until its test does not hold or its body breaks out, a function is passed over
(`Block.Reads`). Every mark that is passed is a step as well, between which commands are taken. The
reading knows the place of a step only because the texts of failures and what a controller is told
name it.
-/

namespace Deskhand

namespace Mission

/-! ## Steps of the reading -/

def goTo (place : Nat) (m : Mission) : Mission := { m with index := place }

/-- Come to the step at a place: the commands that came in are taken. A mission that is cancelled does
not come to it, and there are no places from the one on that stands for the end. -/
def arrive? (place : Nat) (m : Mission) : Option Mission :=
  if Program.sentinel ≤ place then none
  else
    match (m.goTo place).drain with
    | (true, _) => none
    | (false, d) => some d

/-- One more step is done. -/
def counted (m : Mission) : Mission := { m with stepsExecuted := m.stepsExecuted + 1 }

/-- One more step is done, and it has failed. -/
def noted (kind : String) (failure : Failure) (m : Mission) : Mission :=
  { m.counted with lastError := some (failureTag kind m.index failure.message) }

/-- Pass the mark at a place. -/
def pass? (place : Nat) (m : Mission) : Option Mission := (m.arrive? place).map counted

/-- Whether a test holds; one that fails does not. -/
def tested (kind : String) (test : StepM Bool) (m : Mission) : Bool × Mission :=
  match m.runStep test with
  | (.ok holds, m) => (holds, m.counted)
  | (.error failure, m) => (false, m.noted kind failure)

/-- Do an action; the mission goes on if it fails. -/
def acted (kind : String) (act : StepM Unit) (m : Mission) : Mission :=
  match m.runStep act with
  | (.ok _, m) => m.counted
  | (.error failure, m) => m.noted kind failure

/-- The test at a place. -/
def test? (place : Nat) (kind : String) (test : StepM Bool) (m : Mission) :
    Option (Bool × Mission) := (m.arrive? place).map (tested kind test)

/-- The action at a place, which must be known. -/
def act? (place : Nat) (kind : String) (args : Entries Value) (m : Mission) : Option Mission :=
  (m.arrive? place).bind fun d =>
    (action? d.world.external kind args).map fun act => d.acted kind act

/-- Count up, if there is a counter. -/
def countUp (counter : Option String) (m : Mission) : Mission :=
  match counter with
  | some counter =>
    m.setSymbols (m.symbols.set counter (.int (counterValue (m.symbols.value counter) + 1)))
  | none => m

end Mission

/-! ## The reading -/

namespace Block

open Mission

/-- How a block is left. -/
inductive Exit where
  | through
  /-- By a break out of the loop around it. -/
  | broke

/-- Where control stands when a block is left. -/
def Exit.place (behind : Nat) (out : Option Nat) : Exit → Nat
  | .through => behind
  | .broke => out.getD 0

/-- The rounds of a loop: its test, its body and the mark that closes it. -/
inductive Rounds (test : Mission → Option (Bool × Mission)) (body : Mission → Exit → Mission → Prop)
    (close : Mission → Option Mission) : Mission → Mission → Prop
  | done {m m' : Mission} (ht : test m = some (false, m')) : Rounds test body close m m'
  | broke {m m₁ m' : Mission} (ht : test m = some (true, m₁)) (hb : body m₁ .broke m') :
    Rounds test body close m m'
  | again {m m₁ m₂ m₃ m' : Mission} (ht : test m = some (true, m₁)) (hb : body m₁ .through m₂)
    (hc : close m₂ = some m₃) (hr : Rounds test body close m₃ m') : Rounds test body close m m'

/-- A part of a condition with the mark behind it, which a break does not come to. -/
def Closed (part : Mission → Exit → Mission → Prop) (mark : Nat) (m : Mission) :
    Exit → Mission → Prop
  | .broke, m' => part m .broke m'
  | .through, m' => ∃ m₁, part m .through m₁ ∧ m₁.pass? mark = some m'

/-- The arguments of the step that sets the counter of a loop to zero. -/
def zeroArgs (counter : String) : Entries Value :=
  [("type", .text "Fill Data"), ("fill_type", .text "direct"), ("from", .int 0),
    ("to", .text counter), ("result", .text "")]

/-- A counted loop sets its counter first. -/
def setUp? (place : Nat) (guard counter : String) (m : Mission) : Option Mission :=
  if Text.isBlankText guard then m.act? place "Fill Data" (zeroArgs counter) else some m

/-- Whether a loop goes round once more. -/
def loopTest (guard count counter : String) : StepM Bool :=
  if Text.isBlankText guard then countsOn count counter else StepM.holds guard

/-- What a block at a place means: how it is left and what has become of the mission. -/
def Reads : {l f : Bool} → Block l f → (place : Nat) → Mission → Exit → Mission → Prop
  | _, _, .skip, _, m, exit, m' => exit = .through ∧ m' = m
  | _, _, .seq first second, place, m, exit, m' =>
    exit = .broke ∧ first.Reads place m .broke m' ∨
      ∃ m₁, first.Reads place m .through m₁ ∧ second.Reads (place + first.size) m₁ exit m'
  | _, _, .act kind args, place, m, exit, m' =>
    exit = .through ∧ m.act? place kind args = some m'
  | _, _, .when condition yes, place, m, exit, m' =>
    ∃ holds m₁, m.test? place "Check Condition" (StepM.holds condition) = some (holds, m₁) ∧
      if holds then Closed (yes.Reads (place + 1)) (place + 1 + yes.size) m₁ exit m'
      else exit = .through ∧ m' = m₁
  | _, _, .choose condition yes no, place, m, exit, m' =>
    ∃ holds m₁, m.test? place "Check Condition" (StepM.holds condition) = some (holds, m₁) ∧
      if holds then Closed (yes.Reads (place + 1)) (place + 1 + yes.size) m₁ exit m'
      else Closed (no.Reads (place + yes.size + 2)) (place + yes.size + 2 + no.size) m₁ exit m'
  | _, _, .loop guard count counter body, place, m, exit, m' =>
    let head := place + setupSize guard
    exit = .through ∧ ∃ m₁, setUp? place guard counter m = some m₁ ∧
      Rounds (test? head "Repeat" (loopTest guard count counter)) (body.Reads (head + 1))
        (fun m => (m.pass? (head + 1 + body.size)).map (countUp (loopCounter guard counter))) m₁ m'
  | _, _, .leave, place, m, exit, m' => exit = .broke ∧ m.pass? place = some m'
  | _, _, .function .., place, m, exit, m' => exit = .through ∧ m.pass? place = some m'
  | _, _, .giveBack _, _, _, _, _ => False

/-- What a main document means: its steps are passed through, and then its end. -/
def Means {l f : Bool} (b : Block l f) (m m' : Mission) : Prop :=
  ∃ m₁ m₂, b.Reads 0 m .through m₁ ∧ m₁.pass? b.size = some m₂ ∧ m' = m₂.goTo Program.sentinel

/-- A break leaves a block in a loop only. -/
theorem Reads.inLoop {l f : Bool} {b : Block l f} {place : Nat} {m m' : Mission}
    (h : b.Reads place m .broke m') : l = true := by
  induction b generalizing place m m' with
  | skip => cases h.1
  | seq first second ih₁ ih₂ =>
    rcases h with ⟨-, h⟩ | ⟨m₁, -, h⟩
    · exact ih₁ h
    · exact ih₂ h
  | act kind args => cases h.1
  | when condition yes ih =>
    obtain ⟨holds, m₁, -, h⟩ := h
    cases holds with
    | true => exact ih h
    | false => cases h.1
  | choose condition yes no ih₁ ih₂ =>
    obtain ⟨holds, m₁, -, h⟩ := h
    cases holds with
    | true => exact ih₁ h
    | false => exact ih₂ h
  | loop guard count counter body ih => cases h.1
  | leave => rfl
  | function name param closing body ih => cases h.1
  | giveBack source => cases h

end Block

end Deskhand
