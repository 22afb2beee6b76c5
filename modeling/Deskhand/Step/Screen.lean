import Deskhand.Mission.Workspace
import Deskhand.Pattern.Parser

/-!
# Screen steps

Reading the screen, searching what was read, and scrolling to what was found. A search that finds
nothing looks whether the page has failed to load.
-/

namespace Deskhand

/-- The records in a variable; those of the last screen if none is named. -/
def screenRecords (screen : String) : StepM (List ScreenRecord) := do
  let name := if Text.isBlankText screen then Reserved.lastScreen else Text.trim screen
  return ScreenRecord.listOfValue (← StepM.evaluate name)

/-- A text as part of a file name: all but ASCII letters and digits becomes an underscore. -/
def fileNamePart (s : String) : String := s.map fun c => if c.isAlphanum then c else '_'

/-! ## Extract Info -/

/-- Read the screen into a variable. -/
def extractInfo (args : Entries Value) : StepM Unit := do
  let r ← StepM.arguments [.anyOrNull "settings", .text "data_sink", .textOrEmpty "page",
    .textOrEmpty "section", .textOrEmpty "theme", .textOrEmpty "page_data_info",
    .anyOrNull "options", .textOrEmpty "win_title_kw", .textOrEmpty "status"] args
  let context ← read
  let page := fileNamePart (r.text "page")
  let part := fileNamePart (r.text "section")
  let image := Path.join context.config.workDirectory s!"{page}_{part}_{context.index}.png"
  let records ← try
      StepM.act (.captureScreen image)
      match ← StepM.withWorld (·.readScreen) with
      | .ok records => pure records
      | .error fault => throw (.platform fault)
    catch failure =>
      StepM.store (r.text "data_sink") (.list [])
      StepM.store (r.text "status") (.bool false)
      throw failure
  let v := ScreenRecord.listToValue records
  StepM.modifySymbols (·.set Reserved.lastScreen v)
  StepM.store (r.text "data_sink") v
  StepM.store (r.text "status") (.bool !records.isEmpty)

/-! ## Save Html -/

/-- Save the page and store what the scraper makes of it. -/
def saveHtml (args : Entries Value) : StepM Unit := do
  let r ← StepM.arguments [.textOrEmpty "local", .textOrEmpty "template", .text "data_sink"] args
  let context ← read
  let given := r.text "local"
  let path :=
    if Text.isBlankText given then
      Path.join context.config.workDirectory s!"page_{context.index}.html"
    else Text.trim given
  StepM.changeFiles (·.makeParent path)
  StepM.act (.savePage path)
  let data := (← get).world.scraped
  StepM.store (r.text "data_sink") data

/-! ## Search -/

/-- What to search a screen for. -/
structure Search where
  screen : String
  names : Value
  nameType : String
  types : List String
  logic : String
  result : String
  status : String
  site : String

def Search.read (args : Entries Value) : StepM Search := do
  let r ← StepM.arguments [.text "screen", .any "names", .textOr "name_type" "direct",
    .anyOrNull "target_types", .textOr "logic" "any", .text "result", .text "status",
    .textOrEmpty "site"] args
  return {
    screen := r.text "screen"
    names := r.value "names"
    nameType := r.text "name_type"
    types := (r.value "target_types").textList
    logic := r.text "logic"
    result := r.text "result"
    status := r.text "status"
    site := r.text "site" }

/-- The names that are searched for. -/
def Search.targets (s : Search) : StepM (List String) := do
  if s.nameType = "direct" then return s.names.textList
  return (← StepM.valueOf s.names).textList

/-- After a search that found nothing: a record that means a fault, or a site that is not reached,
raises an exception. -/
def checkForFault (records : List ScreenRecord) (site : String) : StepM Unit := do
  let w ← get
  let config := w.recovery.config
  let fault := (records.find? fun r => config.faultNames.contains r.name).map (·.name)
  let site := if Text.isBlankText site then config.referenceSite else Text.trim site
  let reachable ← StepM.withWorld (·.ping)
  StepM.modifySymbols (·.setFlag Reserved.netConnected reachable)
  let cause := fault.or (if reachable then none else some "site_unreachable")
  match cause with
  | none => return ()
  | some cause =>
    let index := (← read).index
    let data := Value.object [("site", .text site), ("reachable", .bool reachable)]
    modify fun w =>
      let (symbols, recovery) := w.recovery.raise ⟨cause, data, index⟩ w.symbols
      { w with symbols, recovery }

/-- Search a screen for records of certain names and types. -/
def search (args : Entries Value) : StepM Unit := do
  let s ← Search.read args
  let records ← screenRecords s.screen
  let names ← s.targets
  let found := records.filter fun r =>
    names.contains r.name && (s.types.isEmpty || s.types.contains r.kind)
  let status :=
    if s.logic = "all" then !names.isEmpty && names.all fun n => found.any (·.name == n)
    else !found.isEmpty
  StepM.store s.result (ScreenRecord.listToValue found)
  StepM.store s.status (.bool status)
  if found.isEmpty then checkForFault records s.site

/-! ## Search Word Line -/

/-- What a record is searched in: its text, or its name if it has none. -/
def ScreenRecord.line (r : ScreenRecord) : String := r.text.getD r.name

/-- The matches of all patterns in a line. -/
def lineMatches (patterns : List Pattern) (line : String) : List String :=
  patterns.flatMap (Pattern.matchesIn line)

/-- Search the lines of a screen for patterns. -/
def searchWordLine (args : Entries Value) : StepM Unit := do
  let r ← StepM.arguments [.text "screen", .any "patterns", .textOr "logic" "any", .text "result",
    .text "status"] args
  let records ← screenRecords (r.text "screen")
  let sources := match r.value "patterns" with
    | .text s => [s]
    | v => v.textList
  let patterns ← sources.mapM fun s =>
    match Pattern.parse? s with
    | some p => pure p
    | none => throw (.badPattern s)
  let hits := records.filterMap fun record =>
    let found := lineMatches patterns record.line
    if found.isEmpty then none
    else some (Value.object [("name", .text record.name), ("loc", record.box.sides),
      ("text", .text record.line), ("matches", .list (found.map .text))])
  let matched := patterns.map fun p => records.any fun record =>
    !(Pattern.matchesIn record.line p).isEmpty
  let status :=
    if r.text "logic" = "all" then !matched.isEmpty && matched.all id else matched.any id
  StepM.store (r.text "result") (.list hits)
  StepM.store (r.text "status") (.bool status)

/-! ## Scrolling to what was found -/

/-- How many pixels a unit of scrolling moves: what the step says, or else what is in the variable;
at least one. -/
def resolutionOf (given : Value) : StepM Binary64 := do
  let known := ((← get).symbols.value Reserved.scrollResolution).real?.getD .one
  return (((← StepM.numberOf given).getD known)).max .one

def searchScrollFields : List Field :=
  [.text "screen", .text "target", .textOr "target_type" "anchor text", .anyOrNull "target_loc",
    .anyOrNull "resolution", .anyOrNull "postwait", .textOrEmpty "flag"]

/-- The height that a percentage of a window's height is. -/
def heightAt (window : WindowRect) (percent : Binary64) : Int :=
  (Binary64.ofInt window.height * percent / .ofInt 100).toInt64

/-- The box of the record that a search scroll is about and the height that it should come to;
nothing if the record is not on the screen. -/
def scrollGoal (r : Entries Value) : StepM (Option (Box × Int)) := do
  let records ← screenRecords (r.text "screen")
  let kind := r.text "target_type"
  let target := records.find? fun record =>
    record.name == r.text "target" && (kind == "" || record.kind == kind)
  match target with
  | none => return none
  | some target =>
    let window ← StepM.topWindow
    let percent ← StepM.numberOr (.ofInt 50) (r.value "target_loc")
    return some (target.box, heightAt window percent)

def calibrateScrollFields : List Field :=
  [.textOrEmpty "screen", .text "marker", .any "amount", .text "last_record",
    .textOrEmpty "data_sink"]

/-- What a calibration starts from: by how much was scrolled, the marker, and what is known of its
last place. -/
def calibrationStart (r : Entries Value) : StepM (Binary64 × String × Value) := do
  let amount ← match ← StepM.numberOf (r.value "amount") with
    | some (.finite x) => if x.isZero then throw .noCalibrationAmount else pure (Binary64.finite x)
    | _ => throw .noCalibrationAmount
  let marker := Text.trim (r.text "marker")
  if marker = "" then throw .noMarker
  let last ← StepM.evaluate (r.text "last_record")
  return (amount, marker, last)

/-- The box of the first record on a screen that a marker names or stands in. -/
def markerBox (marker screen : String) : StepM Box := do
  let records ← screenRecords screen
  match records.find? fun record =>
      record.name == marker || record.text.any (Text.occursIn marker ·) with
  | some found => return found.box
  | none => throw (.markerNotFound marker)

section Arithmetic

variable (plain : Int → StepM Int)

/-- Scroll so that a record comes to a given height of the window. -/
def searchScrollWith (args : Entries Value) : StepM Unit := do
  let r ← StepM.arguments searchScrollFields args
  match ← scrollGoal r with
  | none => StepM.store (r.text "flag") (.bool false)
  | some (box, desired) =>
    let middle ← box.centerWith plain
    let resolution ← resolutionOf (r.value "resolution")
    let distance ← plain (middle.y - desired)
    let units := (-(Binary64.ofInt distance / resolution).round).toInt64
    if units ≠ 0 then StepM.act (.scroll units)
    StepM.pause (← StepM.secondsOf (r.value "postwait"))
    StepM.store (r.text "flag") (.bool true)
    StepM.record

/-- The height at which a value is: a point, a screen record or a box. -/
def heightOf? (v : Value) : StepM (Option Int) :=
  match v with
  | .list [_, y] => return y.real?.map fun y => y.round.toInt64
  | v =>
    match ((ScreenRecord.ofValue? v).map (·.box)).or (Box.ofValue? v) with
    | some box => do return some (← box.centerWith plain).y
    | none => return none

/-- Find out how many pixels a unit of scrolling moves, from how far a marker has moved. -/
def calibrateScrollWith (args : Entries Value) : StepM Unit := do
  let r ← StepM.arguments calibrateScrollFields args
  let (amount, marker, last) ← calibrationStart r
  let before ← match ← heightOf? plain last with
    | some y => pure y
    | none => throw (.noLocation (r.text "last_record"))
  let box ← markerBox marker (r.text "screen")
  let middle ← box.centerWith plain
  let difference ← plain (middle.y - before)
  let moved ← plain difference.natAbs
  let sink := r.text "data_sink"
  let sink := if Text.isBlankText sink then Reserved.scrollResolution else Text.trim sink
  StepM.store sink (.real (.ofInt moved / amount.abs))

end Arithmetic

def searchScroll (args : Entries Value) : StepM Unit := searchScrollWith StepM.machine args

def calibrateScroll (args : Entries Value) : StepM Unit := calibrateScrollWith StepM.machine args

/-! ## Text Line Location Record -/

/-- Store where the first line is that has a text in it. -/
def textLineLocation (args : Entries Value) : StepM Unit := do
  let r ← StepM.arguments [.text "screen", .text "text", .text "to"] args
  let text := r.text "text"
  if Text.isBlankText text then throw .noLineText
  let records ← screenRecords (r.text "screen")
  match records.find? fun record =>
      record.text.any (Text.occursIn text ·) || Text.occursIn text record.name with
  | some record => StepM.store (r.text "to") record.box.sides
  | none =>
    StepM.store (r.text "to") .null
    throw (.lineNotFound text)

end Deskhand
