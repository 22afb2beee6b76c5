import Deskhand.Proofs.Actions
import Deskhand.Proofs.Documents
import Deskhand.Proofs.Identifiers
import Deskhand.Proofs.Misses
import Deskhand.Proofs.Reach

/-!
# Names that steps miss

A step fails for an undefined name only where it writes to a target with a path that it has not
evaluated before, and the name is one that the target needs (`Mission.missing_only_in_targets`); such a
step there is (`Mission.not_missing_bound`). There is one lemma for each action, in the order of the
modules that define them; the case splits are those of the definitions.
-/

namespace Deskhand

open StepM

/-! ## The texts that actions take as targets -/

/-- The fields of an action other than Fill Data that hold targets. -/
def targetFields : String → List String
  | "List Dir" | "Check Existence" | "Create Dir" | "Write File" | "Delete File" | "Open App"
  | "App Open" => ["result"]
  | "Text To Number" => ["numvar"]
  | "Call Extern" => ["output"]
  | "Wait Until" => ["result", "flag"]
  | "Read File" => ["datasink", "flag"]
  | "Extract Info" => ["data_sink", "status"]
  | "Save Html" | "Calibrate Scroll" => ["data_sink"]
  | "Search" | "Search Anchor Info" | "Search Word Line" => ["result", "status"]
  | "Search Scroll" => ["flag"]
  | "Text Line Location Record" => ["to"]
  | "Get Windows Info" => ["results_var", "flag_var"]
  | "Bring Window To Front" => ["flag_var"]
  | _ => []

/-- The targets that Fill Data writes to without evaluating them, by how it fills. -/
def filledTargets (args : Entries Value) : String → List String
  | "append" | "prepend" | "merge" | "clear" => []
  | "pop" | "pop_key" => [args.text "result"]
  | _ => [args.text "to"]

/-- The targets that an action writes to without evaluating them. -/
def assignedTargets (kind : String) (args : Entries Value) : List String :=
  if kind = "Fill Data" then filledTargets args (args.text "fill_type")
  else (targetFields kind).map args.text

section Actions

variable {targets : List String} (args : Entries Value)

/-! ## Data -/

theorem createData_misses : Calm (createData args) := by
  unfold createData CreateData.read
  refine .bind (arguments_misses fun r _ => .pure _) fun d => ?_
  dsimp only
  split
  · exact .throw_bind rfl _
  · refine .bind ?_ fun v => .modifySymbols fun t => .declare _ _
    unfold CreateData.initial
    split
    · split
      · exact evaluate_misses _
      · exact .pure _
    · exact .pure _

namespace FillData

variable {f : FillData} {raw : String} (hf : f.target = Text.trim raw)

include hf

theorem assign_misses : Misses [raw] f.assign := by
  unfold assign
  rw [hf]
  exact (valueOf_misses _).bind fun v => write_misses List.mem_cons_self v

theorem extend_misses (atEnd : Bool) : Calm (f.extend atEnd) := by
  unfold extend
  rw [hf]
  refine (valueOf_misses _).bind fun item => evaluate_target_misses fun current => ?_
  split
  · exact write_misses List.mem_cons_self _
  · exact write_misses List.mem_cons_self _
  · exact .throw rfl

theorem merge_misses : Calm f.merge := by
  unfold merge
  rw [hf]
  refine (valueOf_misses _).bind fun extra => evaluate_target_misses fun current => ?_
  split
  · exact write_misses List.mem_cons_self _
  · exact write_misses List.mem_cons_self _
  · exact write_misses List.mem_cons_self _
  · exact .throw rfl

theorem clear_misses : Calm f.clear := by
  unfold clear
  rw [hf]
  exact evaluate_target_misses fun _ => write_misses List.mem_cons_self _

theorem pop_misses (hresult : f.result ∈ targets) : Misses targets f.pop := by
  unfold pop
  rw [hf]
  refine evaluate_target_misses fun current => ?_
  split
  · split
    · exact .throw_bind rfl _
    · refine (numberOf_misses _).bind fun index => ?_
      dsimp only
      split
      · exact .throw rfl
      · exact (write_misses List.mem_cons_self _).bind fun _ =>
          store_misses (List.mem_cons_of_mem _ hresult) _
  · exact .throw rfl

theorem popKey_misses (hresult : f.result ∈ targets) : Misses targets f.popKey := by
  unfold popKey
  rw [hf]
  refine evaluate_target_misses fun current => ?_
  split
  · exact (write_misses List.mem_cons_self _).bind fun _ =>
      store_misses (List.mem_cons_of_mem _ hresult) _
  · exact .throw rfl

end FillData

/-- What is to be filled is read from the arguments, and an absent way of filling is one of the ways
that assign. -/
theorem FillData.read_misses {k : FillData → StepM Unit}
    (hk : ∀ f : FillData, f.target = Text.trim (args.text "to") →
      f.result = args.text "result" → Misses (filledTargets args f.how) (k f)) :
    Misses (filledTargets args (args.text "fill_type")) (FillData.read args >>= k) := by
  unfold FillData.read
  rw [bind_assoc]
  refine arguments_misses_of fun r hread => ?_
  have hhow : filledTargets args (args.text "fill_type") =
      filledTargets args (r.text "fill_type") := by
    have hfield : r.text "fill_type" = args.text "fill_type" ∨
        args.get? "fill_type" = none ∧ r.text "fill_type" = "direct" :=
      Shape.text_of_textOr hread rfl
    rcases hfield with hsame | ⟨hnone, hdirect⟩
    · rw [hsame]
    · have hempty : args.text "fill_type" = "" := by
        simp [Entries.text, Entries.value, hnone, Value.text?]
      rw [hdirect, hempty]
      rfl
  have hto : r.text "to" = args.text "to" := Shape.text_of_isText hread (.inl rfl)
  have hresult : r.text "result" = args.text "result" := Shape.text_of_isText hread (.inr rfl)
  rw [hhow, pure_bind]
  exact hk ⟨r.text "fill_type", r.value "from", Text.trim (r.text "to"), r.text "result"⟩
    (congrArg Text.trim hto) hresult

theorem fillData_misses :
    Misses (filledTargets args (args.text "fill_type")) (fillData args) := by
  refine FillData.read_misses args fun f hf hresult => ?_
  have hmem : f.result ∈ [args.text "result"] := by
    rw [hresult]
    exact List.mem_cons_self
  dsimp only
  split
  · exact .throw_bind rfl _
  · split
    · next h => exact h ▸ f.extend_misses hf true
    · next h => exact h ▸ f.extend_misses hf false
    · next h => exact h ▸ f.merge_misses hf
    · next h => exact h ▸ f.clear_misses hf
    · next h => exact h ▸ f.pop_misses hf hmem
    · next h => exact h ▸ f.popKey_misses hf hmem
    · have hassigns : filledTargets args f.how = [args.text "to"] := by
        rw [filledTargets] <;> assumption
      rw [hassigns]
      exact f.assign_misses hf

theorem textToNumber_misses : Misses [args.text "numvar"] (textToNumber args) := by
  refine arguments_misses fun r hr => (evaluate_misses _).bind fun v => ?_
  rw [hr "numvar" (.inl rfl)]
  dsimp only
  split
  · exact store_misses List.mem_cons_self _
  · exact .throw rfl

/-! ## Waiting -/

theorem wait_misses : Calm (wait args) := by
  refine arguments_misses fun r _ => ?_
  dsimp only
  split
  · exact (secondsOf_misses _).bind pause_misses
  · exact (numberOr_misses _ _).bind fun lo => (numberOr_misses _ _).bind fun hi =>
      (randomBetween_misses _ _).bind fun x => (durationOf_misses x).bind pause_misses

theorem eventsHold_misses (needAll : Bool) (events : List String) :
    Misses targets (eventsHold needAll events) :=
  (Misses.mapM holds_misses events).bind fun _ => .pure _

theorem pollEvents_misses (needAll : Bool) (events : List String) (started : Nat)
    (timeOut : Duration) (fuel : Nat) :
    Misses targets (pollEvents needAll events started timeOut fuel) := by
  induction fuel with
  | zero => exact .pure _
  | succ fuel ih =>
    unfold pollEvents
    refine (eventsHold_misses needAll events).bind fun held => ?_
    split
    · exact .pure _
    · refine Misses.get.bind fun w => ?_
      dsimp only
      split
      · exact .pure _
      · refine (Misses.withWorld fun w => World.nap_passes _ w).bind fun awake => ?_
        split
        · exact ih
        · exact .pure _

theorem waitUntil_misses :
    Misses [args.text "result", args.text "flag"] (waitUntil args) := by
  refine arguments_misses fun r hr => ?_
  rw [hr "result" (.inr rfl), hr "flag" (.inr rfl)]
  exact (secondsOf_misses _).bind fun _ => Misses.get.bind fun _ =>
    (pollEvents_misses _ _ _ _ _).bind fun _ => (store_misses (by simp) _).bind fun _ =>
      store_misses (by simp) _

/-! ## External calls -/

theorem callProgram_misses (file : String) (names : List String) :
    Misses targets (callProgram file names) := by
  refine (Misses.mapM (fun name => (evaluate_misses name).bind fun _ => .pure _) names).bind
    fun args => Misses.read.bind fun c => (fromFiles_misses _).bind fun output => ?_
  dsimp only
  split
  · exact .throw_bind rfl _
  · exact .pure _

theorem callExtern_misses : Misses [args.text "output"] (callExtern args) := by
  refine arguments_misses fun r hr => ?_
  rw [hr "output" (.inr rfl)]
  dsimp only
  split
  · exact (execute_misses _).bind fun _ => store_misses List.mem_cons_self _
  · exact (callProgram_misses _ _).bind fun _ => store_misses List.mem_cons_self _

theorem runExternal_misses (op : ExternalOp) : Calm (runExternal op args) := by
  unfold runExternal
  split
  · exact .throw rfl
  · split
    · split
      · exact .pure _
      · exact .modifySymbols fun t => .set _ _
    · exact .pure _

/-! ## Files -/

theorem pathOf_misses (raw nameType : String) : Misses targets (pathOf raw nameType) := by
  unfold pathOf
  split
  · exact .pure _
  · exact (evaluate_misses _).bind fun _ => .pure _

theorem loadData_misses : Calm (loadData args) := by
  refine arguments_misses fun r _ => (fromFiles_misses _).bind fun text => ?_
  split
  · exact .modifySymbols fun t => .declare _ _
  · exact .throw rfl

theorem saveData_misses : Calm (saveData args) :=
  arguments_misses fun _ _ => (evaluate_misses _).bind fun _ =>
    (changeFiles_misses _).bind fun _ => changeFiles_misses _

theorem listDir_misses : Misses [args.text "result"] (listDir args) := by
  refine arguments_misses fun r hr => ?_
  rw [hr "result" (.inl rfl)]
  exact (numberOf_misses _).bind fun _ => (fromFiles_misses _).bind fun _ =>
    store_misses List.mem_cons_self _

theorem checkExistence_misses : Misses [args.text "result"] (checkExistence args) := by
  refine arguments_misses fun r hr => ?_
  rw [hr "result" (.inl rfl)]
  dsimp only
  split
  · exact (evaluate_misses _).bind fun _ => .bind (.pure _) fun _ =>
      Misses.get.bind fun _ => store_misses List.mem_cons_self _
  · exact .bind (.pure _) fun _ => Misses.get.bind fun _ => store_misses List.mem_cons_self _

theorem createDir_misses : Misses [args.text "result"] (createDir args) := by
  refine arguments_misses fun r hr => ?_
  rw [hr "result" (.inr rfl)]
  refine (pathOf_misses _ _).bind fun path => Misses.get.bind fun w => ?_
  dsimp only
  split
  · exact (changeFiles_misses _).bind fun _ => store_misses List.mem_cons_self _
  · exact store_misses List.mem_cons_self _

theorem readFile_misses : Misses [args.text "datasink", args.text "flag"] (readFile args) := by
  refine arguments_misses fun r hr => ?_
  rw [hr "datasink" (.inl rfl), hr "flag" (.inr rfl)]
  have hsink (v : Value) : Misses [args.text "datasink", args.text "flag"]
      (store (args.text "datasink") v) := store_misses (by simp) v
  have hflag (v : Value) : Misses [args.text "datasink", args.text "flag"]
      (store (args.text "flag") v) := store_misses (by simp) v
  refine (pathOf_misses _ _).bind fun path => (hsink _).bind fun _ => Misses.get.bind fun w => ?_
  dsimp only
  split
  · exact hflag _
  · split
    · exact (hsink _).bind fun _ => hflag _
    · next failure hfailure =>
      refine (hflag _).bind fun _ => .throw ?_
      -- Only the file and its format are to blame here.
      split at hfailure
      · cases hfailure
        rfl
      · split at hfailure
        · split at hfailure
          · cases hfailure
          · cases hfailure
            rfl
        · cases hfailure

theorem writeFile_misses : Misses [args.text "result"] (writeFile args) := by
  refine arguments_misses fun r hr => ?_
  rw [hr "result" (.inr rfl)]
  refine (pathOf_misses _ _).bind fun path => (evaluate_misses _).bind fun v =>
    .bind (.tryCatch ?_ fun failure hfailure => ?_) fun _ => store_misses List.mem_cons_self _
  · refine (changeFiles_misses _).bind fun _ => ?_
    split
    · exact changeFiles_misses _
    · exact changeFiles_misses _
  · exact (store_misses List.mem_cons_self _).bind fun _ => .throw hfailure

theorem deleteFile_misses : Misses [args.text "result"] (deleteFile args) := by
  refine arguments_misses fun r hr => ?_
  rw [hr "result" (.inr rfl)]
  refine (pathOf_misses _ _).bind fun path => Misses.get.bind fun w => ?_
  dsimp only
  split
  · exact (changeFiles_misses _).bind fun _ => store_misses List.mem_cons_self _
  · exact store_misses List.mem_cons_self _

/-! ## The screen -/

theorem screenRecords_misses (screen : String) : Misses targets (screenRecords screen) :=
  (evaluate_misses _).bind fun _ => .pure _

theorem extractInfo_misses :
    Misses [args.text "data_sink", args.text "status"] (extractInfo args) := by
  refine arguments_misses fun r hr => ?_
  rw [hr "data_sink" (.inl rfl), hr "status" (.inr rfl)]
  refine Misses.read.bind fun c => .bind (.tryCatch ?_ fun failure hfailure => ?_)
    fun records => ?_
  · refine (act_misses _).bind fun _ =>
      (Misses.withWorld World.readScreen_passes).bind fun reading => ?_
    split
    · exact .pure _
    · exact .throw rfl
  · exact (store_misses (by simp) _).bind fun _ => (store_misses (by simp) _).bind fun _ =>
      .throw hfailure
  · exact (Misses.modifySymbols fun t => .set _ _).bind fun _ =>
      (store_misses (by simp) _).bind fun _ => store_misses (by simp) _

theorem saveHtml_misses : Misses [args.text "data_sink"] (saveHtml args) := by
  refine arguments_misses fun r hr => ?_
  rw [hr "data_sink" (.inl rfl)]
  exact Misses.read.bind fun _ => (changeFiles_misses _).bind fun _ =>
    (act_misses _).bind fun _ => Misses.get.bind fun _ => store_misses List.mem_cons_self _

theorem checkForFault_misses (records : List ScreenRecord) (site : String) :
    Misses targets (checkForFault records site) := by
  refine Misses.get.bind fun w => (Misses.withWorld World.ping_passes).bind fun reached =>
    (Misses.modifySymbols fun t => .set _ _).bind fun _ => ?_
  dsimp only
  split
  · exact .pure _
  · exact .of_ok (fun _ _ => .single (.raise rfl)) fun _ _ => ⟨⟨⟩, rfl⟩

theorem search_misses : Misses [args.text "result", args.text "status"] (search args) := by
  unfold search Search.read
  rw [bind_assoc]
  refine arguments_misses fun r hr => ?_
  rw [hr "result" (.inl rfl), hr "status" (.inl rfl), pure_bind]
  refine (screenRecords_misses _).bind fun records => .bind ?_ fun names =>
    (store_misses (by simp) _).bind fun _ => (store_misses (by simp) _).bind fun _ => ?_
  · unfold Search.targets
    split
    · exact .pure _
    · exact (valueOf_misses _).bind fun _ => .pure _
  · split
    · exact checkForFault_misses _ _
    · exact .pure _

theorem searchWordLine_misses :
    Misses [args.text "result", args.text "status"] (searchWordLine args) := by
  refine arguments_misses fun r hr => ?_
  rw [hr "result" (.inl rfl), hr "status" (.inl rfl)]
  refine (screenRecords_misses _).bind fun records => (Misses.mapM (fun s => ?_) _).bind
    fun patterns => (store_misses (by simp) _).bind fun _ => store_misses (by simp) _
  split
  · exact .pure _
  · exact .throw rfl

theorem resolutionOf_misses (given : Value) : Misses targets (resolutionOf given) :=
  Misses.get.bind fun _ => (numberOf_misses _).bind fun _ => .pure _

theorem machine_misses (n : Int) : Misses targets (machine n) := .pure _

theorem centerWith_misses (b : Box) : Misses targets (b.centerWith machine) :=
  (machine_misses _).bind fun _ => (machine_misses _).bind fun _ => .pure _

theorem offset_misses (dx dy : Int) (p : Point) : Misses targets (p.offset machine dx dy) :=
  (machine_misses _).bind fun _ => (machine_misses _).bind fun _ => .pure _

theorem scrollGoal_misses (r : Entries Value) : Misses targets (scrollGoal r) := by
  refine (screenRecords_misses _).bind fun records => ?_
  dsimp only
  split
  · exact .pure _
  · exact topWindow_misses.bind fun _ => (numberOr_misses _ _).bind fun _ => .pure _

theorem searchScroll_misses : Misses [args.text "flag"] (searchScroll args) := by
  refine arguments_misses fun r hr => ?_
  rw [hr "flag" (.inr rfl)]
  refine (scrollGoal_misses r).bind fun goal => ?_
  split
  · exact store_misses List.mem_cons_self _
  · refine (centerWith_misses _).bind fun middle => (resolutionOf_misses _).bind fun resolution =>
      (machine_misses _).bind fun distance => ?_
    have hrest : ∀ d, Misses [args.text "flag"]
        (do pause d; store (args.text "flag") (.bool true); record) :=
      fun d => (pause_misses d).bind fun _ => (store_misses List.mem_cons_self _).bind
        fun _ => record_misses
    dsimp only
    split
    · exact (act_misses _).bind fun _ => (secondsOf_misses _).bind hrest
    · exact (secondsOf_misses _).bind hrest

/-- What a calibration is stored in if no target is given needs no name. -/
theorem sink_misses (raw : String) (v : Value) : Misses [raw]
    (store (if Text.isBlankText raw then Reserved.scrollResolution else Text.trim raw) v) := by
  have hchars : "croll_resolution".toList.all (fun d => d.isAlphanum || d == '_') = true := by
    decide
  have hname : Expr.IsIdentifier Reserved.scrollResolution :=
    ⟨⟨'s', "croll_resolution".toList, rfl, by decide,
      fun d hd => .of_ascii (by simpa using List.all_eq_true.1 hchars d hd)⟩,
      Expr.ofWord_eq_name (by decide)⟩
  split
  · have hstore : Misses [Reserved.scrollResolution] (store Reserved.scrollResolution v) :=
      store_misses List.mem_cons_self v
    refine ⟨hstore.keeps, fun c w name h => ?_⟩
    obtain ⟨⟨target, hmem, target', hread, hneeds⟩, -⟩ := hstore.needs c w name h
    rw [List.mem_singleton.1 hmem, hname.trim_eq, Expr.readTarget_identifier hname] at hread
    cases hread
    cases hneeds
  · have hstore : Misses [Text.trim raw] (store (Text.trim raw) v) :=
      store_misses List.mem_cons_self v
    refine ⟨hstore.keeps, fun c w name h => ?_⟩
    obtain ⟨⟨target, hmem, hneeds⟩, hnone⟩ := hstore.needs c w name h
    rw [List.mem_singleton.1 hmem, Text.trim_trim] at hneeds
    exact ⟨⟨raw, List.mem_cons_self, hneeds⟩, hnone⟩

theorem heightOf?_misses (v : Value) : Misses targets (heightOf? machine v) := by
  unfold heightOf?
  split
  · exact .pure _
  · split
    · exact (centerWith_misses _).bind fun _ => .pure _
    · exact .pure _

theorem calibrationStart_misses (r : Entries Value) : Misses targets (calibrationStart r) := by
  refine (numberOf_misses _).bind fun amount => ?_
  dsimp only
  split
  · split
    · exact .throw_bind rfl _
    · refine .bind (.pure _) fun amount => ?_
      split
      · exact .throw_bind rfl _
      · exact (evaluate_misses _).bind fun _ => .pure _
  · exact .throw_bind rfl _

theorem markerBox_misses (marker screen : String) : Misses targets (markerBox marker screen) := by
  refine (screenRecords_misses _).bind fun records => ?_
  split
  · exact .pure _
  · exact .throw rfl

theorem calibrateScroll_misses : Misses [args.text "data_sink"] (calibrateScroll args) := by
  refine arguments_misses fun r hr => ?_
  rw [hr "data_sink" (.inr rfl)]
  refine (calibrationStart_misses r).bind fun start => (heightOf?_misses _).bind fun before => ?_
  have hrest : ∀ y, Misses [args.text "data_sink"] (do
      let box ← markerBox start.2.1 (r.text "screen")
      let middle ← box.centerWith machine
      let difference ← machine (middle.y - y)
      let moved ← machine difference.natAbs
      let sink := args.text "data_sink"
      let sink := if Text.isBlankText sink then Reserved.scrollResolution else Text.trim sink
      store sink (.real (.ofInt moved / start.1.abs))) := fun y =>
    (markerBox_misses _ _).bind fun box => (centerWith_misses _).bind fun middle =>
      (machine_misses _).bind fun _ => (machine_misses _).bind fun _ => sink_misses _ _
  split
  · exact .bind (.pure _) hrest
  · exact .throw_bind rfl _

theorem textLineLocation_misses : Misses [args.text "to"] (textLineLocation args) := by
  refine arguments_misses fun r hr => ?_
  rw [hr "to" (.inl rfl)]
  dsimp only
  split
  · exact .throw_bind rfl _
  · refine (screenRecords_misses _).bind fun records => ?_
    split
    · exact store_misses List.mem_cons_self _
    · exact (store_misses List.mem_cons_self _).bind fun _ => .throw rfl

/-! ## The pointer -/

namespace MouseClick

theorem aim_misses (c : MouseClick) : Misses targets c.aim := by
  refine (numberOr_misses _ _).bind fun nth => ?_
  dsimp only
  split
  · exact .bind (.pure _) (.option (fun box => .pure box) (.throw rfl))
  · exact (evaluate_misses _).bind fun _ =>
      .bind (.pure _) (.option (fun box => .pure box) (.throw rfl))
  · exact (valueOf_misses _).bind fun _ =>
      .bind (.pure _) (.option (fun box => .pure box) (.throw rfl))
  · refine (evaluate_misses _).bind fun v => ?_
    split
    · exact .bind (.pure _) (.option (fun box => .pure box) (.throw rfl))
    · exact .bind (.pure _) (.option (fun box => .pure box) (.throw rfl))
  · exact (screenRecords_misses _).bind fun _ =>
      .bind (.pure _) (.option (fun box => .pure box) (.throw rfl))

theorem shift_misses (c : MouseClick) (box : Box) : Misses targets (c.shift machine box) := by
  unfold shift
  dsimp only
  split
  · exact (machine_misses _).bind fun _ => (machine_misses _).bind fun _ => .pure _
  · exact .pure _

theorem point_misses (c : MouseClick) (box : Box) (shift : Int × Int) (window : WindowRect) :
    Misses targets (c.point machine box shift window) :=
  (centerWith_misses _).bind fun _ => (offset_misses _ _ _).bind fun _ => offset_misses _ _ _

theorem destination?_misses (c : MouseClick) (start : Point) (window : WindowRect) :
    Misses targets (c.destination? machine start window) := by
  unfold destination?
  split
  · exact (centerWith_misses _).bind fun _ => (offset_misses _ _ _).bind fun _ => .pure _
  · split
    · exact (offset_misses _ _ _).bind fun _ => .pure _
    · exact .pure _

theorem perform_misses (c : MouseClick) (place : Point) (window : WindowRect) :
    Misses targets (c.perform machine place window) := by
  unfold perform
  dsimp only
  split
  · refine (destination?_misses _ _ _).bind fun target => ?_
    split
    · exact act_misses _
    · exact .throw rfl
  · refine (numberOr_misses _ _).bind fun interval => ?_
    split
    · exact act_misses _
    · exact .throw rfl

theorem moveOn_misses (c : MouseClick) (place : Point) :
    Misses targets (c.moveOn machine place) := by
  unfold moveOn
  split
  · exact (offset_misses _ _ _).bind fun _ => act_misses _
  · exact .pure _

end MouseClick

theorem mouseClick_misses : Calm (mouseClick args) :=
  arguments_misses fun _ _ => (MouseClick.aim_misses _).bind fun _ =>
    (MouseClick.shift_misses _ _).bind fun _ => topWindow_misses.bind fun _ =>
      (MouseClick.point_misses _ _ _ _).bind fun _ => (act_misses _).bind fun _ =>
        (secondsOf_misses _).bind fun _ => (pause_misses _).bind fun _ =>
          (MouseClick.perform_misses _ _ _).bind fun _ => (MouseClick.moveOn_misses _ _).bind
            fun _ => (secondsOf_misses _).bind fun _ => (pause_misses _).bind fun _ =>
              record_misses

theorem mouseMove_misses : Calm (mouseMove args) := by
  refine arguments_misses fun r _ => (numberOf_misses _).bind fun x =>
    (numberOf_misses _).bind fun y => ?_
  have hrest : Calm (do pause (← secondsOf (r.value "postwait"))) :=
    (secondsOf_misses _).bind pause_misses
  dsimp only
  split
  · exact (numberOr_misses _ _).bind fun _ => (numberOr_misses _ _).bind fun _ =>
      (act_misses _).bind fun _ => hrest
  · exact (act_misses _).bind fun _ => hrest
  · exact .throw_bind rfl _

theorem scrollJitter_misses (lo hi : Option Binary64) : Misses targets (scrollJitter lo hi) := by
  unfold scrollJitter
  split
  · split
    · exact randomBetween_misses _ _
    · exact .pure _
  · exact .pure _

theorem scrollUnits_misses (r : Entries Value) : Misses targets (scrollUnits r) := by
  refine (numberOf_misses _).bind fun amount => ?_
  have hjitter : ∀ units, Misses targets (do
      let lo ← numberOf (r.value "random_min")
      let hi ← numberOf (r.value "random_max")
      let jitter ← scrollJitter lo hi
      return (units + jitter).round.toInt64) := fun units =>
    (numberOf_misses _).bind fun lo => (numberOf_misses _).bind fun hi =>
      (scrollJitter_misses lo hi).bind fun _ => .pure _
  dsimp only
  split
  · refine .bind (.pure _) fun amount => (resolutionOf_misses _).bind fun resolution => ?_
    split
    · exact topWindow_misses.bind fun _ => .bind (.pure _) hjitter
    · exact .bind (.pure _) hjitter
  · exact .throw_bind rfl _

theorem mouseScroll_misses : Calm (mouseScroll args) := by
  refine arguments_misses fun r _ => (scrollUnits_misses r).bind fun units => ?_
  have hrest : ∀ n, Calm (do act (.scroll n); pause (← secondsOf (r.value "postwait"))) :=
    fun n => (act_misses _).bind fun _ => (secondsOf_misses _).bind pause_misses
  dsimp only
  split
  · exact .bind ((machine_misses _).bind fun _ => machine_misses _) hrest
  · exact .bind (.pure _) hrest

/-! ## The keyboard and the windows -/

theorem keyInput_misses : Calm (keyInput args) := by
  refine arguments_misses fun r _ => ?_
  have hrest : Calm (do pause (← secondsOf (r.value "wait_after")); record) :=
    (secondsOf_misses _).bind fun d => (pause_misses d).bind fun _ => record_misses
  dsimp only
  split
  · exact .throw_bind rfl _
  · exact (act_misses _).bind fun _ => hrest
  · split
    · exact (act_misses _).bind fun _ => hrest
    · exact .throw_bind rfl _

theorem typedValue_misses (kind : String) (v : Value) : Misses targets (typedValue kind v) := by
  unfold typedValue
  split
  · exact evaluate_misses _
  · split
    · exact valueOf_misses _
    · exact .pure _

theorem textInput_misses : Calm (textInput args) := by
  refine arguments_misses fun r _ => (typedValue_misses _ _).bind fun v =>
    (secondsOf_misses _).bind fun speed => (act_misses _).bind fun _ => ?_
  have hrest : ∀ d, Calm (do pause d; record) :=
    fun d => (pause_misses d).bind fun _ => record_misses
  dsimp only
  split
  · exact (act_misses _).bind fun _ => (secondsOf_misses _).bind hrest
  · exact (secondsOf_misses _).bind hrest

theorem openApp_misses : Misses [args.text "result"] (openApp args) := by
  refine arguments_misses fun r hr => ?_
  rw [hr "result" (.inr rfl)]
  dsimp only
  split
  · exact .bind (.pure _) fun _ => (act_misses _).bind fun _ => (secondsOf_misses _).bind
      fun d => (pause_misses d).bind fun _ => store_misses List.mem_cons_self _
  · exact (Misses.mapM (fun name => (evaluate_misses name).bind fun _ => .pure _) _).bind
      fun _ => (act_misses _).bind fun _ => (secondsOf_misses _).bind
        fun d => (pause_misses d).bind fun _ => store_misses List.mem_cons_self _

theorem failWithFlag_misses {α : Type} {flag : String} {failure : Failure} (h : flag ∈ targets)
    (hfailure : failure.missing? = none) : Misses targets (failWithFlag flag failure : StepM α) :=
  (store_misses h _).bind fun _ => .throw hfailure

theorem getWindowsInfo_misses :
    Misses [args.text "results_var", args.text "flag_var"] (getWindowsInfo args) := by
  refine arguments_misses fun r hr => ?_
  rw [hr "results_var" (.inl rfl), hr "flag_var" (.inr rfl)]
  refine (numberOf_misses _).bind fun nth => Misses.get.bind fun w => ?_
  split
  · exact failWithFlag_misses (by simp) rfl
  · split
    · exact failWithFlag_misses (by simp) rfl
    · exact (store_misses (by simp) _).bind fun _ => store_misses (by simp) _

theorem bringWindowToFront_misses : Misses [args.text "flag_var"] (bringWindowToFront args) := by
  refine arguments_misses fun r hr => ?_
  rw [hr "flag_var" (.inr rfl)]
  exact (evaluate_misses _).bind fun _ =>
    .bind (.tryCatch (act_misses _) fun _ h => failWithFlag_misses List.mem_cons_self h)
      fun _ => store_misses List.mem_cons_self _

/-! ## All of them -/

theorem halt_misses : Calm (halt args) := arguments_misses fun _ _ => .pure _

theorem builtinAction_misses {kind : String} {act : Entries Value → StepM Unit}
    (h : builtinAction? kind = some act) : Misses (assignedTargets kind args) (act args) := by
  unfold builtinAction? at h
  split at h <;> cases h
  · exact halt_misses args
  · exact createData_misses args
  · exact fillData_misses args
  · exact loadData_misses args
  · exact saveData_misses args
  · exact listDir_misses args
  · exact checkExistence_misses args
  · exact textToNumber_misses args
  · exact callExtern_misses args
  · exact wait_misses args
  · exact waitUntil_misses args
  · exact createDir_misses args
  · exact readFile_misses args
  · exact writeFile_misses args
  · exact deleteFile_misses args
  · exact extractInfo_misses args
  · exact saveHtml_misses args
  · exact search_misses args
  · exact search_misses args
  · exact searchWordLine_misses args
  · exact searchScroll_misses args
  · exact textLineLocation_misses args
  · exact calibrateScroll_misses args
  · exact mouseClick_misses args
  · exact mouseMove_misses args
  · exact mouseScroll_misses args
  · exact keyInput_misses args
  · exact textInput_misses args
  · exact openApp_misses args
  · exact openApp_misses args
  · exact getWindowsInfo_misses args
  · exact bringWindowToFront_misses args

theorem action_misses {external : Entries ExternalOp} {kind : String} {act : StepM Unit}
    (h : action? external kind args = some act) : Misses (assignedTargets kind args) act := by
  unfold action? at h
  split at h
  · next hb =>
    cases h
    exact builtinAction_misses args hb
  · obtain ⟨op, _, rfl⟩ := Option.map_eq_some_iff.1 h
    exact .of_calm (runExternal_misses args op)

end Actions

namespace Mission

/-! ## Instructions -/

section Instructions

variable {m : Mission} {name : String}

/-- The instruction fails because the name is undefined. -/
def FailsFor (name : String) (r : Outcome × Mission) : Prop :=
  r.1 = .failed (.expression (.undefinedName name))

theorem not_failsFor_leave (v : Value) : ¬ FailsFor name (m.leave v) :=
  leave_ne_failed v _ m

theorem follow_misses {targets : List String} {step : StepM Nat} (hstep : Misses targets step)
    (h : FailsFor name (m.follow step)) :
    (∃ target ∈ targets, Expr.TargetNeeds (Text.trim target) name) ∧
      m.symbols.get? name = none ∧ (m.follow step).2.symbols.get? name = none := by
  have hneeds := hstep.needs ⟨m.config, m.index⟩ m.work name
  have hkeeps := hstep.keeps ⟨m.config, m.index⟩ m.work name
  unfold FailsFor follow runStep at h
  unfold follow runStep
  rcases hr : step.result ⟨m.config, m.index⟩ m.work with ⟨failure | index, work⟩
  · rw [hr] at h hneeds hkeeps
    cases h
    obtain ⟨htarget, hnone⟩ := hneeds rfl
    refine ⟨htarget, ?_, hnone⟩
    rw [hnone] at hkeeps
    exact Option.not_isSome_iff_eq_none.1 fun hbound => by cases hkeeps hbound
  · rw [hr] at h
    cases h

theorem not_failsFor_follow {step : StepM Nat} (hstep : StepM.Calm step) :
    ¬ FailsFor name (m.follow step) := by
  intro h
  obtain ⟨⟨target, hmem, -⟩, -⟩ := follow_misses hstep h
  cases hmem

theorem countsOn_misses {targets : List String} (count counter : String) :
    Misses targets (countsOn count counter) := by
  refine (numberOr_misses _ _).bind fun limit => .bind (.bind .get fun _ => .pure _) fun v => ?_
  split
  · exact .pure _
  · exact .throw rfl

theorem not_failsFor_enterLoop (guard count counter : String) (stop : Nat) :
    ¬ FailsFor name (m.enterLoop guard count counter stop) := by
  refine not_failsFor_follow ?_
  split
  · exact (countsOn_misses _ _).bind fun _ => .pure _
  · exact (holds_misses _).bind fun _ => .pure _

theorem not_failsFor_giveBack (source : String) : ¬ FailsFor name (m.giveBack source) := by
  rw [giveBack_eq]
  split
  · exact not_failsFor_leave _
  · split
    · exact not_failsFor_leave _
    · next t e he =>
      intro h
      cases h
      exact m.symbols.blameless_evaluate source name (congrArg Prod.snd he)

theorem not_failsFor_passStub (kind : StubKind) : ¬ FailsFor name (m.passStub kind) := by
  unfold passStub
  split
  · exact not_failsFor_leave _
  · split
    · nofun
    · exact not_failsFor_leave _
  · nofun

theorem not_failsFor_handleException (args : HandlerArgs) (stop : Nat) :
    ¬ FailsFor name (m.handleException args stop) := by
  unfold handleException
  split
  · nofun
  · dsimp only
    split
    · split <;> nofun
    · nofun

theorem not_failsFor_endException : ¬ FailsFor name m.endException := by
  unfold endException
  split
  · nofun
  · split <;> nofun

/-- Only actions fail for undefined names. -/
theorem action_of_failsFor {op : Op} (h : FailsFor name (m.perform op)) :
    ∃ kind args, op = .action kind args := by
  cases op with
  | action kind args => exact ⟨kind, args, rfl⟩
  | checkCondition condition ifElse close =>
    exact absurd h (not_failsFor_follow ((holds_misses condition).bind fun _ => .pure _))
  | loop guard count counter stop => exact absurd h (not_failsFor_enterLoop guard count counter stop)
  | goto target increment => cases increment <;> cases h
  | stub kind => exact absurd h (not_failsFor_passStub kind)
  | callFunction f entry param arg output => cases h
  | giveBack source => exact absurd h (not_failsFor_giveBack source)
  | useSkill skill entry arg output => cases h
  | overloadSkill skill entry arg output => cases h
  | exceptionHandler args stop => exact absurd h (not_failsFor_handleException args stop)
  | endException => exact absurd h not_failsFor_endException
  | finish => cases h

end Instructions

/-- A step fails for an undefined name only if it is an action, and one of the targets that it writes
to without evaluating it has a path and needs that name, which has no binding before and after the
step. What is evaluated as an expression, a condition or a snippet binds the names that it reads, to
null if they are missing; but nothing is written at the end of a path as long as the name in front of
it is missing. -/
theorem missing_only_in_targets (m : Mission) (t : SymbolTable) :
    (∀ (op : Op) (name : String),
      (m.perform op).1 = .failed (.expression (.undefinedName name)) →
      ∃ kind args, op = .action kind args ∧
        (∃ target ∈ assignedTargets kind args, Expr.TargetNeeds (Text.trim target) name) ∧
        m.symbols.get? name = none ∧ (m.perform op).2.symbols.get? name = none) ∧
    (∀ (source name : String) (e : Expr),
      Expr.parse source = .ok e → name ∈ Expr.freeNames e →
      (t.evaluate source).1.get? name = some (t.value name) ∧
        ((t.evaluateCondition source).1.get? name).isSome) ∧
    (∀ (source name : String) (statements : List Expr.Statement),
      Expr.parseStatements source = .ok statements → name ∈ Expr.freeNamesOfAll statements →
      ((t.execute source).1.get? name).isSome) ∧
    ∀ (source : String) (target : Expr.Target) (v : Value),
      Expr.readTarget source = .ok target → target.path ≠ [] → t.get? target.name = none →
      (t.write source v).1 = t ∧ ∃ e, (t.write source v).2 = .error e := by
  refine ⟨?_, ?_, ?_, ?_⟩
  · intro op name h
    obtain ⟨kind, args, rfl⟩ := action_of_failsFor h
    refine ⟨kind, args, rfl, ?_⟩
    change FailsFor name (m.doAction kind args) at h
    change _ ∧ _ ∧ (m.doAction kind args).2.symbols.get? name = none
    unfold doAction at h ⊢
    split
    · next hnone =>
      rw [hnone] at h
      cases h
    · next act hact =>
      rw [hact] at h
      exact follow_misses ((action_misses args hact).bind fun _ => .pure _) h
  · intro source name e he hname
    exact ⟨SymbolTable.get?_of_evaluate he hname, SymbolTable.bound_of_condition he hname⟩
  · intro source name statements hs hname
    exact SymbolTable.bound_of_execute hs hname
  · intro source target v htarget hpath hnone
    exact SymbolTable.write_of_unbound htarget hpath hnone

/-! ## A list that is filled at a missing name -/

/-- A step that fills a list at a place that a missing name stands for. -/
def fillAtK : Op := .action "Fill Data" [("from", .int 5), ("to", .text "items[k or 0]")]

/-- A document that makes a list and fills it there. -/
def fillingDocument : SkillDocument where
  name := "main"
  header := .empty
  steps := [
    ⟨"step 1", 1, "Create Data", [("data_name", .text "items"), ("key_value", .list [.int 1])]⟩,
    ⟨"step 2", 2, "Fill Data", [("from", .int 5), ("to", .text "items[k or 0]")]⟩]

/-- The program of `fillingDocument`. -/
def fillingProgram : Program where
  name := "main"
  skid := ""
  instructions :=
    #[⟨⟨"main", 1, false⟩,
        .action "Create Data" [("data_name", .text "items"), ("key_value", .list [.int 1])]⟩,
      ⟨⟨"main", 2, false⟩, fillAtK⟩, ⟨⟨"main", 2, true⟩, .finish⟩]
  functions := []
  skills := [("main", 0)]
  handlers := []
  documents := [⟨"main", 0, 3⟩]

theorem resolve_fillingDocument : resolve fillingDocument .empty = .ok fillingProgram :=
  resolve_of_sorted rfl (by decide) (by decide) (by decide)

/-- A mission of `fillingProgram`. -/
def fillingMission : Mission := .initial fillingProgram (.plain 0 .empty) RunConfig.usual

theorem fillingMission_begins : fillingMission.Begins fillingProgram :=
  ⟨.plain 0 .empty, RunConfig.usual, fillingMission, fillingMission.symbols, rfl, rfl⟩

/-- The list is there by then, but the name in the subscript is not. -/
theorem perform_fillAtK : ((fillingMission.after 1).perform fillAtK).1 =
    .failed (.expression (.undefinedName "k")) := by
  cbv

theorem missing_only_in_targets_filling :
    (∃ target ∈ ["items[k or 0]"], Expr.TargetNeeds (Text.trim target) "k") ∧
    (fillingMission.symbols.evaluate "k or 0").1.get? "k" = some .null ∧
    ((fillingMission.symbols.execute "k").1.get? "k").isSome ∧
    (fillingMission.symbols.write "cart.n" .null).1 = fillingMission.symbols := by
  obtain ⟨hfails, hevaluates, hexecutes, hwrites⟩ :=
    missing_only_in_targets (fillingMission.after 1) fillingMission.symbols
  have hvalue : Expr.parse "k or 0" = .ok (.or (.name "k") (.int 0)) := by cbv
  have hsnippet : Expr.parseStatements "k" = .ok [.expr (.name "k")] := by cbv
  have htarget : Expr.readTarget "cart.n" = .ok ⟨"cart", [.key "n"]⟩ := by cbv
  obtain ⟨kind, args, hop, hneeds, -⟩ := hfails _ _ perform_fillAtK
  cases hop
  exact ⟨hneeds, (hevaluates _ "k" _ hvalue (by decide)).1,
    hexecutes _ "k" _ hsnippet (by decide),
    (hwrites _ _ .null htarget (List.cons_ne_nil _ _) rfl).1⟩

/-- Steps do fail for names that are missing. -/
theorem not_missing_bound : ¬ ∀ (main : SkillDocument) (library : SkillLibrary) (p : Program)
    (m : Mission), resolve main library = .ok p → m.Begins p → ∀ (n : Nat) (op : Op) (name : String),
      p.op? (m.after n).index = some op →
      ((m.after n).perform op).1 ≠ .failed (.expression (.undefinedName name)) := by
  intro h
  have hindex : (fillingMission.after 1).index = 1 := by cbv
  refine h _ _ _ _ resolve_fillingDocument fillingMission_begins 1 fillAtK "k" ?_ perform_fillAtK
  rw [hindex]
  rfl

end Mission

end Deskhand
