import Deskhand.Program.Basic

/-!
# Listing a program

One line for every instruction: its index, its address and what it does.
-/

namespace Deskhand

/-- A mark, as a listing shows it. -/
def StubKind.shown : StubKind → String
  | startSkill name => named "StartSkill" [("name", name)]
  | endSkill name => named "EndSkill" [("name", name)]
  | startFunction name param => named "StartFunction" [("name", name), ("param", param)]
  | endFunction name => named "EndFunction" [("name", name)]
  | orElse => "Else"
  | endCondition => "EndCondition"
  | endLoop => "EndLoop"
  | breakLoop => "Break"
  | tag name => named "Tag" [("name", name)]
  | label text => s!"'{text}'"
where
  named (mark : String) (fields : List (String × String)) : String :=
    mark ++ " \x7b " ++ ", ".intercalate (fields.map fun f => f.1 ++ ": " ++ Text.shown f.2) ++
      " \x7d"

/-- What an instruction does, in a few words. -/
def Op.summary : Op → String
  | checkCondition condition ifElse ifEnd => s!"if {condition} (else -> {ifElse}, end -> {ifEnd})"
  | loop guard count counter stop =>
    if Text.isBlankText guard then s!"repeat {count} times as {counter} (exit -> {stop})"
    else s!"while {guard} (exit -> {stop})"
  | goto target none => s!"goto {target}"
  | goto target (some counter) => s!"{counter} += 1; goto {target}"
  | stub kind => s!"stub {kind.shown}"
  | callFunction name entry _ _ output => s!"call {name} -> {entry} into '{output}'"
  | giveBack value => s!"return {value}"
  | useSkill name entry _ output => s!"use skill {name} -> {entry} into '{output}'"
  | overloadSkill name entry _ output => s!"use skill {name} -> {entry} into '{output}'"
  | exceptionHandler args stop => s!"exception handler '{args.cause}' (skip -> {stop})"
  | endException => "end exception"
  | finish => "finish"
  | action kind _ => kind

namespace Program

/-- As many blanks as a text is short of a width. -/
def blanksTo (width : Nat) (s : String) : String :=
  String.ofList (List.replicate (width - s.length) ' ')

/-- A line of the listing. -/
def listingLine (index : Nat) (i : Instruction) : String :=
  let position := toString index
  let address := i.address.render
  blanksTo 5 position ++ position ++ "  " ++ address ++ blanksTo 28 address ++ " " ++ i.op.summary

/-- The listing of a program. -/
def listing (p : Program) : List String :=
  s!"{p.name} ({p.size} instructions)" ::
    p.instructions.toList.mapIdx fun index i => listingLine index i

end Program

end Deskhand
