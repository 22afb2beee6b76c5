import Deskhand.Recovery.Config
import Deskhand.Symbols

/-!
# Rollback points and open exceptions

A rollback point is an index to go on from and the mission variables as they were. Only the newest
few are kept. Exceptions are open from the time they are raised until they are resolved, the newest
first; the flag `in_exception` goes along with them.
-/

namespace Deskhand

/-- An index to go on from, and the mission variables as they were. -/
structure RollbackPoint where
  address : Nat
  snapshot : Snapshot

/-- The newest rollback points, the newest first. -/
structure PageStack where
  points : List RollbackPoint
  capacity : Nat
  bounded : points.length ≤ capacity

namespace PageStack

/-- A stack that keeps at least one point. -/
def empty (capacity : Nat) : PageStack := ⟨[], max capacity 1, Nat.zero_le _⟩

/-- Put a point on top; the oldest one goes if there are too many. -/
def push (p : RollbackPoint) (s : PageStack) : PageStack where
  points := (p :: s.points).take s.capacity
  capacity := s.capacity
  bounded := List.length_take_le _ _

/-- The newest point, and the stack without it. -/
def pop (s : PageStack) : Option (RollbackPoint × PageStack) :=
  match h : s.points with
  | [] => none
  | p :: rest =>
    have bounded : (p :: rest).length ≤ s.capacity := h ▸ s.bounded
    some (p, ⟨rest, s.capacity, Nat.le_of_succ_le bounded⟩)

end PageStack

/-- An exception that is open. -/
structure ExceptionDescriptor where
  cause : String
  data : Value
  /-- The index of the step that raised it. -/
  raisedAt : Nat

/-- What a mission needs to recover. -/
structure Recovery where
  config : RecoveryConfig
  pages : PageStack
  /-- The open exceptions, the newest first. -/
  exceptions : List ExceptionDescriptor

namespace Recovery

def ofConfig (config : RecoveryConfig) : Recovery := ⟨config, .empty config.pageStackCapacity, []⟩

/-- Put a rollback point on the stack. -/
def record (address : Nat) (t : SymbolTable) (r : Recovery) : Recovery :=
  { r with pages := r.pages.push ⟨address, t.snapshot⟩ }

/-- Open an exception. -/
def raise (e : ExceptionDescriptor) (t : SymbolTable) (r : Recovery) : SymbolTable × Recovery :=
  (t.setFlag Reserved.inException true, { r with exceptions := e :: r.exceptions })

/-- Take the newest rollback point off and bring the mission variables back; the index to go on
from, if there was a point. -/
def rollBack (t : SymbolTable) (r : Recovery) : Option Nat × SymbolTable × Recovery :=
  match r.pages.pop with
  | none => (none, t, r)
  | some (point, pages) => (some point.address, t.restore point.snapshot, { r with pages })

/-- Close the newest exception. -/
def resolve (t : SymbolTable) (r : Recovery) :
    Option ExceptionDescriptor × SymbolTable × Recovery :=
  let left := r.exceptions.tail
  (r.exceptions.head?, if left.isEmpty then t.setFlag Reserved.inException false else t,
    { r with exceptions := left })

/-- Close all exceptions. -/
def clear (t : SymbolTable) (r : Recovery) : SymbolTable × Recovery :=
  (t.setFlag Reserved.inException false, { r with exceptions := [] })

end Recovery

end Deskhand
