import Deskhand.Value.Basic

/-!
# The call stack

A call pushes five entries: where to return to, the caller's result and argument, the name for the
result and the name of the argument. The callee takes the last one off on entry, so a frame at rest
has four entries. The stack of running skills goes along with it: each skill notes how high the call
stack stood when it was entered.
-/

namespace Deskhand

/-- An entry of the call stack. -/
inductive StackEntry where
  | address (index : Nat)
  | value (v : Value)
  | name (s : String)

/-- What a return needs to know. -/
structure CallFrame where
  returnTo : Nat
  fout : Value
  fin : Value
  output : String

/-- The entries of calls under way, the newest first. -/
structure CallStack where
  entries : List StackEntry

namespace CallStack

def empty : CallStack := ⟨[]⟩

def isEmpty (s : CallStack) : Bool := s.entries.isEmpty

def size (s : CallStack) : Nat := s.entries.length

/-- The entries of a frame at rest, the newest first. -/
def frameEntries (f : CallFrame) : List StackEntry :=
  [.name f.output, .value f.fin, .value f.fout, .address f.returnTo]

/-- Push a frame and the name of the argument. -/
def pushCall (f : CallFrame) (arg : String) (s : CallStack) : CallStack :=
  ⟨.name arg :: frameEntries f ++ s.entries⟩

/-- Take the name of the argument off. Whatever stands on top is taken off, even if it is no
name. -/
def popArg (s : CallStack) : CallStack × Option String :=
  match s.entries with
  | [] => (s, none)
  | .name arg :: rest => (⟨rest⟩, some arg)
  | _ :: rest => (⟨rest⟩, none)

/-- Take a frame at rest off. A stack of fewer than four entries stays as it is; otherwise the
entries are taken off one by one up to the first that is not what a frame has there. -/
def popFrame (s : CallStack) : CallStack × Option CallFrame :=
  match s.entries with
  | .name output :: .value fin :: .value fout :: .address returnTo :: rest =>
    (⟨rest⟩, some ⟨returnTo, fout, fin, output⟩)
  | .name _ :: .value _ :: .value _ :: _ :: rest => (⟨rest⟩, none)
  | .name _ :: .value _ :: _ :: fourth :: rest => (⟨fourth :: rest⟩, none)
  | .name _ :: _ :: third :: fourth :: rest => (⟨third :: fourth :: rest⟩, none)
  | _ :: second :: third :: fourth :: rest => (⟨second :: third :: fourth :: rest⟩, none)
  | _ => (s, none)

end CallStack

/-- A running skill and the size of the call stack after its frame was pushed. -/
structure SkillFrame where
  name : String
  depth : Nat
  deriving DecidableEq

/-- The running skills, the newest first. -/
structure SkillStack where
  frames : List SkillFrame
  deriving DecidableEq

namespace SkillStack

def empty : SkillStack := ⟨[]⟩

def isEmpty (s : SkillStack) : Bool := s.frames.isEmpty

def size (s : SkillStack) : Nat := s.frames.length

def push (name : String) (depth : Nat) (s : SkillStack) : SkillStack :=
  ⟨⟨name, depth⟩ :: s.frames⟩

def top? (s : SkillStack) : Option SkillFrame := s.frames.head?

/-- The stack without its newest skill. -/
def pop (s : SkillStack) : SkillStack := ⟨s.frames.tail⟩

/-- The names of the running skills, the oldest first. -/
def names (s : SkillStack) : List String := s.frames.reverse.map (·.name)

end SkillStack

end Deskhand
