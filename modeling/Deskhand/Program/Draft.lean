import Deskhand.Program.Code
import Deskhand.Skill.Library

/-!
# Drafts of programs

A program in the making: the code of the documents taken up so far, with the names that each of them
defines and the references that are still open.
-/

namespace Deskhand

/-- What is known about a document of a draft. -/
structure Section where
  span : DocumentSpan
  /-- The first instruction of every step, by number. -/
  steps : List (Nat × Nat)
  /-- The last place of every tag. -/
  tags : Entries Nat
  /-- The body of every function, and the name of its parameter. -/
  functions : Entries (Nat × String)

/-- A reference that is open: the instruction that has it and the position of its document. -/
structure OpenReference where
  index : Nat
  document : Nat
  refers : Reference

/-- A program in the making. -/
structure Draft where
  instructions : Array Instruction
  sections : Array Section
  skills : Entries Nat
  handlers : Entries Nat
  references : List OpenReference

namespace Draft

def empty : Draft := ⟨#[], #[], [], [], []⟩

/-- The next index. -/
def size (d : Draft) : Nat := d.instructions.size

/-- The text of the address of an instruction. -/
def addressAt (index : Nat) (d : Draft) : String :=
  match d.instructions[index]? with
  | some i => i.address.render
  | none => s!"#{index}"

def push (i : Instruction) (d : Draft) : Draft :=
  { d with instructions := d.instructions.push i }

/-- Change what an instruction does. -/
def modifyOp (index : Nat) (f : Op → Op) (d : Draft) : Draft :=
  { d with instructions := d.instructions.modify index fun i => { i with op := f i.op } }

/-- Replace what an instruction does. -/
def setOp (index : Nat) (op : Op) (d : Draft) : Draft := d.modifyOp index fun _ => op

/-- Change what is known about a document. -/
def modifySection (document : Nat) (f : Section → Section) (d : Draft) : Draft :=
  { d with sections := d.sections.modify document f }

/-- Take up the code of a step of the document at a position. -/
def pushCode (name : String) (document number : Nat) (c : StepCode) (d : Draft) : Draft :=
  let d := match c.setup with
    | some op => d.push ⟨⟨name, number, true⟩, op⟩
    | none => d
  let index := d.size
  let d := d.push ⟨⟨name, number, false⟩, c.op⟩
  let d := match c.refers with
    | some refers => { d with references := d.references ++ [⟨index, document, refers⟩] }
    | none => d
  match c.op with
  | .exceptionHandler .. => { d with handlers := d.handlers.putNew name index }
  | _ => d

/-- Take up steps one after another: the first index of each, and the keys of the skills that they
call. -/
def pushSteps (name : String) (document : Nat) :
    List RawStep → Draft → Except SkillFault (Draft × List (Nat × Nat) × List String)
  | [], d => .ok (d, [], [])
  | s :: rest, d => do
    let c ← s.code document
    let (after, steps, keys) ← pushSteps name document rest (d.pushCode name document s.number c)
    .ok (after, (s.number, d.size) :: steps, c.calledSkill?.toList ++ keys)

/-- Take up a document with an instruction that ends it; the keys of the skills that it calls. -/
def pushDocument (doc : SkillDocument) (last : Op) (d : Draft) :
    Except SkillFault (Draft × List String) := do
  let start := d.size
  let (d, steps, keys) ← pushSteps doc.name d.sections.size doc.steps d
  let number := (doc.steps.getLast?.map (·.number)).getD 0
  let d := d.push ⟨⟨doc.name, number, true⟩, last⟩
  .ok ({ d with
    sections := d.sections.push ⟨⟨doc.name, start, d.size⟩, steps, [], []⟩
    skills := d.skills.putNew doc.name start }, keys)

/-- Take up the documents of a library that are called, in the order in which they are first called.
The fuel bounds how many are taken up; `seen` are the names that need not be looked up any more. -/
def pushCalled (library : SkillLibrary) :
    Nat → List String → List String → Draft → Except SkillFault Draft
  | 0, _, _, d => .ok d
  | fuel + 1, seen, queue, d =>
    match queue.dropWhile (seen.contains ·) with
    | [] => .ok d
    | key :: queue =>
      match library.get? key with
      | none => .error (.missingSkill key)
      | some doc => do
        let (d, keys) ← d.pushDocument doc (.stub (.endSkill doc.name))
        let entry := (d.skills.get? doc.name).getD 0
        let d := { d with skills := d.skills.putNew key entry }
        pushCalled library fuel (seen ++ [key, doc.name]) (queue ++ keys) d

/-- Take up a main document and all documents that are called from it. Every document taken up has
a key of its own among those that steps refer to, so there are no more of them than steps. -/
def ofDocuments (main : SkillDocument) (library : SkillLibrary) : Except SkillFault Draft := do
  let (d, keys) ← empty.pushDocument main .finish
  let title := main.header.name
  let d := if title = "" then d else { d with skills := d.skills.putNew title 0 }
  let seen := main.name :: (if title = "" then [] else [title])
  let steps := library.skills.foldl (fun n skill => n + skill.2.steps.length) main.steps.length
  pushCalled library (steps + 1) seen keys d

end Draft

end Deskhand
