import Deskhand.Json.Printer
import Deskhand.Mission.Run

/-!
# Reporting on a mission

The report on a mission that is over as a few lines to read, and as JSON.
-/

namespace Deskhand

/-- The word that a summary begins with. -/
def MissionStatus.headline : MissionStatus → String
  | completed => "COMPLETED:"
  | failed => "FAILED:"
  | cancelled => "CANCELLED:"

namespace MissionReport

/-- A line of sixty equal characters. -/
def rule (c : Char) : String := String.ofList (List.replicate 60 c)

/-- Milliseconds as seconds with two places. -/
def seconds (millis : Nat) : String :=
  let hundredths := (millis + 5) / 10
  let places := toString (hundredths % 100)
  toString (hundredths / 100) ++ "." ++ (if places.length = 1 then "0" else "") ++ places ++ "s"

/-- The report to read, given how long the mission took. -/
def summary (millis : Nat) (r : MissionReport) : List String :=
  ["", rule '=', r.status.headline ++ " " ++ r.skill, rule '-',
    s!"   Steps executed: {r.stepsExecuted}", "   Duration: " ++ seconds millis] ++
    (r.lastError.map ("   Last error: " ++ ·)).toList ++ [rule '=']

/-- The report as a value, given how long the mission took. -/
def toValue (millis : Nat) (r : MissionReport) : Value :=
  .object [("skill", .text r.skill), ("status", .text r.status.name),
    ("steps_executed", .int r.stepsExecuted),
    ("last_error", (r.lastError.map Value.text).getD .null), ("duration_ms", .int millis)]

end MissionReport

end Deskhand
