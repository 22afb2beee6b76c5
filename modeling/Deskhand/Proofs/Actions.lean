import Deskhand.Proofs.Stepwise

/-!
# What every action is made of

One lemma for each action and for each part that actions share, in the order of the modules that
define them; `action_closed` puts them together, and `action_stepwise` follows. The case splits are
those of the definitions.
-/

namespace Deskhand

open StepM

section Actions

variable {R : StepContext → Workspace → Workspace → Prop} [Workspace.Admits R]

/-! ## Data -/

theorem createData_made (args : Entries Value)
    [Workspace.AdmitsDeclare R (Text.trim (args.text "data_name"))] : Made R (createData args) := by
  have hread : Made R (CreateData.read args) := (arguments_made _ _).bind fun r => .pure _
  refine hread.bind_of_result fun d c w w' hd => ?_
  have hname : d.name = Text.trim (args.text "data_name") := by
    unfold CreateData.read at hd
    rw [result_bind] at hd
    split at hd
    · next r _ hr =>
      cases hd
      exact congrArg Text.trim (text_of_arguments hr rfl)
    · cases hd
  split
  · exact .throw _
  · refine .bind ?_ fun v => ?_
    · unfold CreateData.initial
      split
      · split
        · exact evaluate_made _
        · exact .pure _
      · exact .pure _
    · rw [hname]
      exact .declare _ v

namespace FillData

theorem assign_made (f : FillData) : Made R f.assign :=
  (valueOf_made _).bind fun _ => write_made _ _

theorem extend_made (f : FillData) (atEnd : Bool) : Made R (f.extend atEnd) := by
  refine (valueOf_made _).bind fun item => (evaluate_made _).bind fun current => ?_
  split
  · exact write_made _ _
  · exact write_made _ _
  · exact .throw _

theorem merge_made (f : FillData) : Made R f.merge := by
  refine (valueOf_made _).bind fun extra => (evaluate_made _).bind fun current => ?_
  split
  · exact write_made _ _
  · exact write_made _ _
  · exact write_made _ _
  · exact .throw _

theorem clear_made (f : FillData) : Made R f.clear :=
  (evaluate_made _).bind fun _ => write_made _ _

theorem pop_made (f : FillData) : Made R f.pop := by
  refine (evaluate_made _).bind fun current => ?_
  split
  · split
    · exact .throw _
    · refine (numberOf_made _).bind fun index => ?_
      dsimp only
      split
      · exact .throw _
      · exact (write_made _ _).bind fun _ => store_made _ _
  · exact .throw _

theorem popKey_made (f : FillData) : Made R f.popKey := by
  refine (evaluate_made _).bind fun current => ?_
  split
  · exact (write_made _ _).bind fun _ => store_made _ _
  · exact .throw _

end FillData

theorem fillData_made (args : Entries Value) : Made R (fillData args) := by
  unfold fillData FillData.read
  refine .bind ((arguments_made _ _).bind fun r => .pure _) fun f => ?_
  dsimp only
  split
  · exact .throw_bind _ _
  · split
    · exact f.extend_made true
    · exact f.extend_made false
    · exact f.merge_made
    · exact f.clear_made
    · exact f.pop_made
    · exact f.popKey_made
    · exact f.assign_made

theorem textToNumber_made (args : Entries Value) : Made R (textToNumber args) := by
  refine (arguments_made _ _).bind fun r => (evaluate_made _).bind fun v => ?_
  dsimp only
  split
  · exact store_made _ _
  · exact .throw _

/-! ## Waiting -/

theorem wait_made (args : Entries Value) : Made R (wait args) := by
  refine (arguments_made _ _).bind fun r => ?_
  dsimp only
  split
  · exact (secondsOf_made _).bind pause_made
  · exact (numberOr_made _ _).bind fun lo => (numberOr_made _ _).bind fun hi =>
      (randomBetween_made _ _).bind fun x => (durationOf_made x).bind pause_made

theorem eventsHold_made (needAll : Bool) (events : List String) :
    Made R (eventsHold needAll events) :=
  (Made.mapM holds_made events).bind fun _ => .pure _

theorem pollEvents_made (needAll : Bool) (events : List String) (started : Nat)
    (timeOut : Duration) (fuel : Nat) :
    Made R (pollEvents needAll events started timeOut fuel) := by
  induction fuel with
  | zero => exact .pure _
  | succ fuel ih =>
    unfold pollEvents
    refine (eventsHold_made needAll events).bind fun held => ?_
    split
    · exact .pure _
    · refine Made.get.bind fun w => ?_
      dsimp only
      split
      · exact .pure _
      · refine (Made.withWorld fun w => World.nap_passes _ w).bind fun awake => ?_
        split
        · exact ih
        · exact .pure _

theorem waitUntil_made (args : Entries Value) : Made R (waitUntil args) :=
  (arguments_made _ _).bind fun _ => (secondsOf_made _).bind fun _ =>
    Made.get.bind fun _ => (pollEvents_made _ _ _ _ _).bind fun _ =>
      (store_made _ _).bind fun _ => store_made _ _

/-! ## External calls -/

theorem callProgram_made (file : String) (names : List String) :
    Made R (callProgram file names) := by
  refine (Made.mapM (fun name => (evaluate_made name).bind fun _ => .pure _) names).bind
    fun args => Made.read.bind fun c => (fromFiles_made _).bind fun output => ?_
  dsimp only
  split
  · exact .throw_bind _ _
  · exact .pure _

theorem callExtern_made (args : Entries Value) : Made R (callExtern args) := by
  refine (arguments_made _ _).bind fun r => ?_
  dsimp only
  split
  · exact (execute_made _).bind fun _ => store_made _ _
  · exact (callProgram_made _ _).bind fun _ => store_made _ _

theorem runExternal_made (op : ExternalOp) (args : Entries Value) :
    Made R (runExternal op args) := by
  unfold runExternal
  split
  · exact .throw _
  · split
    · split
      · exact .pure _
      · exact .modifySymbols fun t => t.quiet_set _ _
    · exact .pure _

/-! ## Files -/

theorem pathOf_made (raw nameType : String) : Made R (pathOf raw nameType) := by
  unfold pathOf
  split
  · exact .pure _
  · exact (evaluate_made _).bind fun _ => .pure _

omit [Workspace.Admits R] in
theorem loadData_made (args : Entries Value)
    [Workspace.AdmitsDeclare R (Text.trim (args.text "data_name"))] : Made R (loadData args) := by
  refine (arguments_made _ _).bind_of_result fun r c w w' hr => (fromFiles_made _).bind fun text => ?_
  split
  · rw [text_of_arguments hr rfl]
    exact .declare _ _
  · exact .throw _

theorem saveData_made (args : Entries Value) : Made R (saveData args) :=
  (arguments_made _ _).bind fun _ => (evaluate_made _).bind fun _ =>
    (changeFiles_made _).bind fun _ => changeFiles_made _

theorem listDir_made (args : Entries Value) : Made R (listDir args) :=
  (arguments_made _ _).bind fun _ => (numberOf_made _).bind fun _ =>
    (fromFiles_made _).bind fun _ => store_made _ _

theorem checkExistence_made (args : Entries Value) : Made R (checkExistence args) := by
  refine (arguments_made _ _).bind fun r => ?_
  dsimp only
  split
  · exact (evaluate_made _).bind fun _ => .bind (.pure _) fun _ =>
      Made.get.bind fun _ => store_made _ _
  · exact .bind (.pure _) fun _ => Made.get.bind fun _ => store_made _ _

theorem createDir_made (args : Entries Value) : Made R (createDir args) := by
  refine (arguments_made _ _).bind fun r => (pathOf_made _ _).bind fun path =>
    Made.get.bind fun w => ?_
  dsimp only
  split
  · exact (changeFiles_made _).bind fun _ => store_made _ _
  · exact store_made _ _

theorem readFile_made (args : Entries Value) : Made R (readFile args) := by
  refine (arguments_made _ _).bind fun r => (pathOf_made _ _).bind fun path =>
    (store_made _ _).bind fun _ => Made.get.bind fun w => ?_
  dsimp only
  split
  · exact store_made _ _
  · split
    · exact (store_made _ _).bind fun _ => store_made _ _
    · exact (store_made _ _).bind fun _ => .throw _

theorem writeFile_made (args : Entries Value) : Made R (writeFile args) := by
  refine (arguments_made _ _).bind fun r => (pathOf_made _ _).bind fun path =>
    (evaluate_made _).bind fun v => .bind (.tryCatch ?_ fun failure => ?_)
      fun _ => store_made _ _
  · refine (changeFiles_made _).bind fun _ => ?_
    split
    · exact changeFiles_made _
    · exact changeFiles_made _
  · exact (store_made _ _).bind fun _ => .throw _

theorem deleteFile_made (args : Entries Value) : Made R (deleteFile args) := by
  refine (arguments_made _ _).bind fun r => (pathOf_made _ _).bind fun path =>
    Made.get.bind fun w => ?_
  dsimp only
  split
  · exact (changeFiles_made _).bind fun _ => store_made _ _
  · exact store_made _ _

/-! ## The screen -/

theorem screenRecords_made (screen : String) : Made R (screenRecords screen) :=
  (evaluate_made _).bind fun _ => .pure _

theorem extractInfo_made (args : Entries Value) : Made R (extractInfo args) := by
  refine (arguments_made _ _).bind fun r => Made.read.bind fun c =>
    .bind (.tryCatch ?_ fun failure => ?_) fun records => ?_
  · refine (act_made _).bind fun _ =>
      (Made.withWorld World.readScreen_passes).bind fun reading => ?_
    split
    · exact .pure _
    · exact .throw _
  · exact (store_made _ _).bind fun _ => (store_made _ _).bind fun _ => .throw _
  · exact (Made.modifySymbols fun t => t.quiet_set _ _).bind fun _ =>
      (store_made _ _).bind fun _ => store_made _ _

theorem saveHtml_made (args : Entries Value) : Made R (saveHtml args) :=
  (arguments_made _ _).bind fun _ => Made.read.bind fun _ =>
    (changeFiles_made _).bind fun _ => (act_made _).bind fun _ =>
      Made.get.bind fun _ => store_made _ _

theorem checkForFault_closed (records : List ScreenRecord) (site : String) :
    Closed R .raising (checkForFault records site) := by
  refine Made.get.before fun w => (Made.withWorld World.ping_passes).before fun reached =>
    (Made.modifySymbols fun t => t.quiet_set _ _).before fun _ => ?_
  dsimp only
  split
  · exact .of_made (.pure _) (by simp)
  · -- the descriptor bears the index that the step reads from its context
    exact fun c w => ⟨w, .refl, .raised _ rfl⟩

theorem search_closed (args : Entries Value) : Closed R .raising (search args) := by
  unfold search Search.read
  refine Made.before ((arguments_made _ _).bind fun r => .pure _) fun s =>
    (screenRecords_made _).before fun records => Made.before ?_ fun names =>
      (store_made _ _).before fun _ => (store_made _ _).before fun _ => ?_
  · unfold Search.targets
    split
    · exact .pure _
    · exact (valueOf_made _).bind fun _ => .pure _
  · split
    · exact checkForFault_closed _ _
    · exact .of_made (.pure _) (by simp)

theorem searchWordLine_made (args : Entries Value) : Made R (searchWordLine args) := by
  refine (arguments_made _ _).bind fun r => (screenRecords_made _).bind fun records =>
    (Made.mapM (fun s => ?_) _).bind fun patterns =>
      (store_made _ _).bind fun _ => store_made _ _
  split
  · exact .pure _
  · exact .throw _

theorem resolutionOf_made (given : Value) : Made R (resolutionOf given) :=
  Made.get.bind fun _ => (numberOf_made _).bind fun _ => .pure _

omit [Workspace.Admits R] in
theorem machine_made (n : Int) : Made R (machine n) := .pure _

omit [Workspace.Admits R] in
theorem centerWith_made (b : Box) : Made R (b.centerWith machine) :=
  (machine_made _).bind fun _ => (machine_made _).bind fun _ => .pure _

omit [Workspace.Admits R] in
theorem offset_made (dx dy : Int) (p : Point) : Made R (p.offset machine dx dy) :=
  (machine_made _).bind fun _ => (machine_made _).bind fun _ => .pure _

theorem scrollGoal_made (r : Entries Value) : Made R (scrollGoal r) := by
  refine (screenRecords_made _).bind fun records => ?_
  dsimp only
  split
  · exact .pure _
  · exact topWindow_made.bind fun _ => (numberOr_made _ _).bind fun _ => .pure _

/-- A scroll that cannot find its records completes without a rollback point. -/
theorem searchScroll_closed (args : Entries Value) :
    Closed R (.recording false) (searchScroll args) := by
  refine (arguments_made _ _).before fun r => (scrollGoal_made r).before fun goal => ?_
  split
  · exact .of_made (store_made _ _) (by simp)
  · refine (centerWith_made _).before fun middle => (resolutionOf_made _).before fun resolution =>
      (machine_made _).before fun distance => ?_
    have hrest : ∀ d, Closed R (.recording false)
        (do pause d; store (r.text "flag") (.bool true); record) :=
      fun d => (pause_made d).before fun _ => (store_made _ _).before fun _ => .record
    dsimp only
    split
    · exact (act_made _).before fun _ => (secondsOf_made _).before hrest
    · exact (secondsOf_made _).before hrest

omit [Workspace.Admits R] in
theorem heightOf?_made (v : Value) : Made R (heightOf? machine v) := by
  unfold heightOf?
  split
  · exact .pure _
  · split
    · exact (centerWith_made _).bind fun _ => .pure _
    · exact .pure _

theorem calibrationStart_made (r : Entries Value) : Made R (calibrationStart r) := by
  refine (numberOf_made _).bind fun amount => ?_
  dsimp only
  split
  · split
    · exact .throw_bind _ _
    · refine .bind (.pure _) fun amount => ?_
      split
      · exact .throw_bind _ _
      · exact (evaluate_made _).bind fun _ => .pure _
  · exact .throw_bind _ _

theorem markerBox_made (marker screen : String) : Made R (markerBox marker screen) := by
  refine (screenRecords_made _).bind fun records => ?_
  split
  · exact .pure _
  · exact .throw _

theorem calibrateScroll_made (args : Entries Value) : Made R (calibrateScroll args) := by
  refine (arguments_made _ _).bind fun r => (calibrationStart_made r).bind fun start =>
    (heightOf?_made _).bind fun before => ?_
  have hrest : ∀ y, Made R (do
      let box ← markerBox start.2.1 (r.text "screen")
      let middle ← box.centerWith machine
      let difference ← machine (middle.y - y)
      let moved ← machine difference.natAbs
      let sink := r.text "data_sink"
      let sink := if Text.isBlankText sink then Reserved.scrollResolution else Text.trim sink
      store sink (.real (.ofInt moved / start.1.abs))) := fun y =>
    (markerBox_made _ _).bind fun box => (centerWith_made _).bind fun middle =>
      (machine_made _).bind fun _ => (machine_made _).bind fun _ => store_made _ _
  split
  · exact .bind (.pure _) hrest
  · exact .throw_bind _ _

theorem textLineLocation_made (args : Entries Value) : Made R (textLineLocation args) := by
  refine (arguments_made _ _).bind fun r => ?_
  dsimp only
  split
  · exact .throw_bind _ _
  · refine (screenRecords_made _).bind fun records => ?_
    split
    · exact store_made _ _
    · exact (store_made _ _).bind fun _ => .throw _

/-! ## The pointer -/

namespace MouseClick

theorem aim_made (c : MouseClick) : Made R c.aim := by
  refine (numberOr_made _ _).bind fun nth => ?_
  dsimp only
  split
  · exact .bind (.pure _) (.option (fun box => .pure box) (.throw _))
  · exact (evaluate_made _).bind fun _ =>
      .bind (.pure _) (.option (fun box => .pure box) (.throw _))
  · exact (valueOf_made _).bind fun _ =>
      .bind (.pure _) (.option (fun box => .pure box) (.throw _))
  · refine (evaluate_made _).bind fun v => ?_
    split
    · exact .bind (.pure _) (.option (fun box => .pure box) (.throw _))
    · exact .bind (.pure _) (.option (fun box => .pure box) (.throw _))
  · exact (screenRecords_made _).bind fun _ =>
      .bind (.pure _) (.option (fun box => .pure box) (.throw _))

omit [Workspace.Admits R] in
theorem shift_made (c : MouseClick) (box : Box) : Made R (c.shift machine box) := by
  unfold shift
  dsimp only
  split
  · exact (machine_made _).bind fun _ => (machine_made _).bind fun _ => .pure _
  · exact .pure _

omit [Workspace.Admits R] in
theorem point_made (c : MouseClick) (box : Box) (shift : Int × Int) (window : WindowRect) :
    Made R (c.point machine box shift window) :=
  (centerWith_made _).bind fun _ => (offset_made _ _ _).bind fun _ => offset_made _ _ _

omit [Workspace.Admits R] in
theorem destination?_made (c : MouseClick) (start : Point) (window : WindowRect) :
    Made R (c.destination? machine start window) := by
  unfold destination?
  split
  · exact (centerWith_made _).bind fun _ => (offset_made _ _ _).bind fun _ => .pure _
  · split
    · exact (offset_made _ _ _).bind fun _ => .pure _
    · exact .pure _

theorem perform_made (c : MouseClick) (place : Point) (window : WindowRect) :
    Made R (c.perform machine place window) := by
  unfold perform
  dsimp only
  split
  · refine (destination?_made _ _ _).bind fun target => ?_
    split
    · exact act_made _
    · exact .throw _
  · refine (numberOr_made _ _).bind fun interval => ?_
    split
    · exact act_made _
    · exact .throw _

theorem moveOn_made (c : MouseClick) (place : Point) : Made R (c.moveOn machine place) := by
  unfold moveOn
  split
  · exact (offset_made _ _ _).bind fun _ => act_made _
  · exact .pure _

end MouseClick

theorem mouseClick_closed (args : Entries Value) :
    Closed R (.recording true) (mouseClick args) :=
  (arguments_made _ _).before fun _ => (MouseClick.aim_made _).before fun _ =>
    (MouseClick.shift_made _ _).before fun _ => topWindow_made.before fun _ =>
      (MouseClick.point_made _ _ _ _).before fun _ => (act_made _).before fun _ =>
        (secondsOf_made _).before fun _ => (pause_made _).before fun _ =>
          (MouseClick.perform_made _ _ _).before fun _ => (MouseClick.moveOn_made _ _).before
            fun _ => (secondsOf_made _).before fun _ => (pause_made _).before fun _ => .record

theorem mouseMove_made (args : Entries Value) : Made R (mouseMove args) := by
  refine (arguments_made _ _).bind fun r => (numberOf_made _).bind fun x =>
    (numberOf_made _).bind fun y => ?_
  have hrest : Made R (do pause (← secondsOf (r.value "postwait"))) :=
    (secondsOf_made _).bind pause_made
  dsimp only
  split
  · exact (numberOr_made _ _).bind fun _ => (numberOr_made _ _).bind fun _ =>
      (act_made _).bind fun _ => hrest
  · exact (act_made _).bind fun _ => hrest
  · exact .throw_bind _ _

theorem scrollJitter_made (lo hi : Option Binary64) : Made R (scrollJitter lo hi) := by
  unfold scrollJitter
  split
  · split
    · exact randomBetween_made _ _
    · exact .pure _
  · exact .pure _

theorem scrollUnits_made (r : Entries Value) : Made R (scrollUnits r) := by
  refine (numberOf_made _).bind fun amount => ?_
  have hjitter : ∀ units, Made R (do
      let lo ← numberOf (r.value "random_min")
      let hi ← numberOf (r.value "random_max")
      let jitter ← scrollJitter lo hi
      return (units + jitter).round.toInt64) := fun units =>
    (numberOf_made _).bind fun lo => (numberOf_made _).bind fun hi =>
      (scrollJitter_made lo hi).bind fun _ => .pure _
  dsimp only
  split
  · refine .bind (.pure _) fun amount => (resolutionOf_made _).bind fun resolution => ?_
    split
    · exact topWindow_made.bind fun _ => .bind (.pure _) hjitter
    · exact .bind (.pure _) hjitter
  · exact .throw_bind _ _

theorem mouseScroll_made (args : Entries Value) : Made R (mouseScroll args) := by
  refine (arguments_made _ _).bind fun r => (scrollUnits_made r).bind fun units => ?_
  have hrest : ∀ n, Made R (do act (.scroll n); pause (← secondsOf (r.value "postwait"))) :=
    fun n => (act_made _).bind fun _ => (secondsOf_made _).bind pause_made
  dsimp only
  split
  · exact .bind ((machine_made _).bind fun _ => machine_made _) hrest
  · exact .bind (.pure _) hrest

/-! ## The keyboard and the windows -/

theorem keyInput_closed (args : Entries Value) : Closed R (.recording true) (keyInput args) := by
  refine (arguments_made _ _).before fun r => ?_
  have hrest : Closed R (.recording true) (do pause (← secondsOf (r.value "wait_after")); record) :=
    (secondsOf_made _).before fun d => (pause_made d).before fun _ => .record
  dsimp only
  split
  · exact .throw_bind _ _
  · exact (act_made _).before fun _ => hrest
  · split
    · exact (act_made _).before fun _ => hrest
    · exact .throw_bind _ _

theorem typedValue_made (kind : String) (v : Value) : Made R (typedValue kind v) := by
  unfold typedValue
  split
  · exact evaluate_made _
  · split
    · exact valueOf_made _
    · exact .pure _

theorem textInput_closed (args : Entries Value) : Closed R (.recording true) (textInput args) := by
  refine (arguments_made _ _).before fun r => (typedValue_made _ _).before fun v =>
    (secondsOf_made _).before fun speed => (act_made _).before fun _ => ?_
  have hrest : ∀ d, Closed R (.recording true) (do pause d; record) :=
    fun d => (pause_made d).before fun _ => .record
  dsimp only
  split
  · exact (act_made _).before fun _ => (secondsOf_made _).before hrest
  · exact (secondsOf_made _).before hrest

theorem openApp_made (args : Entries Value) : Made R (openApp args) := by
  refine (arguments_made _ _).bind fun r => ?_
  dsimp only
  split
  · exact .bind (.pure _) fun _ => (act_made _).bind fun _ => (secondsOf_made _).bind
      fun d => (pause_made d).bind fun _ => store_made _ _
  · exact (Made.mapM (fun name => (evaluate_made name).bind fun _ => .pure _) _).bind
      fun _ => (act_made _).bind fun _ => (secondsOf_made _).bind
        fun d => (pause_made d).bind fun _ => store_made _ _

theorem failWithFlag_made {α : Type} (flag : String) (failure : Failure) :
    Made R (failWithFlag flag failure : StepM α) :=
  (store_made _ _).bind fun _ => .throw _

theorem getWindowsInfo_made (args : Entries Value) : Made R (getWindowsInfo args) := by
  refine (arguments_made _ _).bind fun r => (numberOf_made _).bind fun nth =>
    Made.get.bind fun w => ?_
  split
  · exact failWithFlag_made _ _
  · split
    · exact failWithFlag_made _ _
    · exact (store_made _ _).bind fun _ => store_made _ _

theorem bringWindowToFront_made (args : Entries Value) :
    Made R (bringWindowToFront args) :=
  (arguments_made _ _).bind fun _ => (evaluate_made _).bind fun _ =>
    .bind (.tryCatch (act_made _) fun _ => failWithFlag_made _ _)
      fun _ => store_made _ _

/-! ## All of them -/

omit [Workspace.Admits R] in
theorem halt_made (args : Entries Value) : Made R (halt args) :=
  (arguments_made _ _).bind fun _ => .pure _

/-- The name that an action makes a mission variable, if it is one that does so. -/
def declaredBy? (args : Entries Value) : String → Option String
  | "Create Data" | "Load Data" => some (Text.trim (args.text "data_name"))
  | _ => none

/-- How an action ends. -/
def closingOf : String → Closing
  | "Mouse Click" | "Key Input" | "Text Input" => .recording true
  | "Search Scroll" => .recording false
  | "Search" | "Search Anchor Info" => .raising
  | _ => .none

theorem builtinAction_closed {kind : String} {act : Entries Value → StepM Unit}
    (h : builtinAction? kind = some act) (args : Entries Value)
    (hdeclare : ∀ name ∈ declaredBy? args kind, Workspace.AdmitsDeclare R name) :
    Closed R (closingOf kind) (act args) := by
  have hmade {k : Closing} {step : StepM Unit} (hstep : Made R step) (hk : k = .none) :
      Closed R k step := .of_made hstep (by rw [hk]; simp)
  unfold builtinAction? at h
  split at h <;> cases h
  · exact hmade (halt_made args) rfl
  · have := hdeclare _ rfl
    exact hmade (createData_made args) rfl
  · exact hmade (fillData_made args) rfl
  · have := hdeclare _ rfl
    exact hmade (loadData_made args) rfl
  · exact hmade (saveData_made args) rfl
  · exact hmade (listDir_made args) rfl
  · exact hmade (checkExistence_made args) rfl
  · exact hmade (textToNumber_made args) rfl
  · exact hmade (callExtern_made args) rfl
  · exact hmade (wait_made args) rfl
  · exact hmade (waitUntil_made args) rfl
  · exact hmade (createDir_made args) rfl
  · exact hmade (readFile_made args) rfl
  · exact hmade (writeFile_made args) rfl
  · exact hmade (deleteFile_made args) rfl
  · exact hmade (extractInfo_made args) rfl
  · exact hmade (saveHtml_made args) rfl
  · exact search_closed args
  · exact search_closed args
  · exact hmade (searchWordLine_made args) rfl
  · exact searchScroll_closed args
  · exact hmade (textLineLocation_made args) rfl
  · exact hmade (calibrateScroll_made args) rfl
  · exact mouseClick_closed args
  · exact hmade (mouseMove_made args) rfl
  · exact hmade (mouseScroll_made args) rfl
  · exact keyInput_closed args
  · exact textInput_closed args
  · exact hmade (openApp_made args) rfl
  · exact hmade (openApp_made args) rfl
  · exact hmade (getWindowsInfo_made args) rfl
  · exact hmade (bringWindowToFront_made args) rfl

/-- Only actions that are built in end in more than their changes. -/
theorem closingOf_of_builtin_none {kind : String} (h : builtinAction? kind = none) :
    closingOf kind = .none := by
  unfold closingOf
  split
  · cases h
  · cases h
  · cases h
  · cases h
  · cases h
  · cases h
  · rfl

/-- Every action is done with its changes when it puts down a rollback point or raises an
exception. -/
theorem action_closed {external : Entries ExternalOp} {kind : String} {args : Entries Value}
    {act : StepM Unit} (h : action? external kind args = some act)
    (hdeclare : ∀ name ∈ declaredBy? args kind, Workspace.AdmitsDeclare R name) :
    Closed R (closingOf kind) act := by
  unfold action? at h
  split at h
  · next hb =>
    cases h
    exact builtinAction_closed hb args hdeclare
  · next hb =>
    obtain ⟨op, _, rfl⟩ := Option.map_eq_some_iff.1 h
    rw [closingOf_of_builtin_none hb]
    exact .of_made (runExternal_made op args) (by simp)

end Actions

/-- Every action does nothing to its workspace but one change after another. -/
theorem action_stepwise {external : Entries ExternalOp} {kind : String} {args : Entries Value}
    {act : StepM Unit} (h : action? external kind args = some act) : Stepwise act :=
  (action_closed h fun _ _ => inferInstance).stepwise

end Deskhand
