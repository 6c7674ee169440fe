/-
The runner of application scripts.

A timer carries out one action of a script after the other.  An action that waits for a probe
is tried again at the next tick, for a while; whatever fails ends the script.

* `AppScript` — the script under way, and whether it has failed;
* `Outcome` — what has been carried out after some ticks;
* `script_carries_out` — a script that ends without an error did all its actions, in order.
-/
import LoraMessenger.ScriptGrammar
import Mathlib.Data.List.Forall2

namespace Lora

namespace Script

def kMinimumIntervalMilliseconds : ℕ := 20
def kMaximumIntervalMilliseconds : ℕ := 5000
def kDefaultIntervalMilliseconds : ℕ := 200
def kMaximumAwaitTicks : ℕ := 50

structure IntervalResult where
  milliseconds : ℕ := kDefaultIntervalMilliseconds
  valid : Bool := true
  diagnostic : String := ""

/-- The interval of the environment, if one is set. -/
def parseInterval : Option Bytes → IntervalResult
  | none => {}
  | some value =>
    let refused : IntervalResult :=
      { valid := false
        diagnostic := "APP_SCRIPT_INTERVAL_MS must be an integer from 20 through 5000" }
    if value.length > 10 then refused
    else
      match parseDecimal value with
      | none => refused
      | some parsed =>
        if parsed < kMinimumIntervalMilliseconds ∨ parsed > kMaximumIntervalMilliseconds then
          refused
        else { milliseconds := parsed }

structure ScriptState where
  actions : List Action
  next : ℕ := 0
  awaitTicks : ℕ := 0

/-- The script under way, which has its timer, and whether it has failed. -/
structure AppScript where
  scriptState : Option ScriptState := none
  scriptFailed : Bool := false

/-- What an action meets: what the probe says of a field, if it says anything, and whether the
key handler returns, a picture can be taken and the window can be closed. -/
structure Surroundings where
  probe : Bytes → Option Bytes
  handlesKey : Bool
  captures : Bytes → Bool
  closesWindow : Bool

inductive Effect where
  | key (key : ℕ)
  | screenshot (stem : Bytes)
  | closeWindow
deriving DecidableEq

/-- The key codes of the screen library. -/
def routeValue (action : Action) : ℕ :=
  match action.namedKey with
  | .home => 2
  | .escape => 27
  | .up => 17
  | .down => 18
  | .left => 20
  | .right => 19
  | .enter => 10
  | .backspace => 8
  | .tab => 9
  | .none => action.scalar

namespace AppScript

variable (script : AppScript)

def releaseScript : AppScript := { script with scriptState := none }

def failScript : AppScript := { script.releaseScript with scriptFailed := true }

def completeScript : AppScript := script.releaseScript

/-- The end of an action. -/
def advance (state : ScriptState) : AppScript :=
  let state := { state with next := state.next + 1, awaitTicks := 0 }
  if state.next ≥ state.actions.length then script.completeScript
  else { script with scriptState := some state }

/-- A probe that has not matched yet. -/
def keepAwaiting (state : ScriptState) : AppScript :=
  let state := { state with awaitTicks := state.awaitTicks + 1 }
  if state.awaitTicks ≥ kMaximumAwaitTicks then script.failScript
  else { script with scriptState := some state }

/-- A tick of the timer, with what it does to the application. -/
def runScriptAction (around : Surroundings) : AppScript × List Effect :=
  match script.scriptState with
  | none => (script.completeScript, [])
  | some state =>
    match state.actions[state.next]? with
    | none => (script.completeScript, [])
    | some action =>
      match action.type with
      | .key =>
        (if around.handlesKey then script.advance state else script.failScript,
          [.key (routeValue action)])
      | .wait => (script.advance state, [])
      | .screenshot =>
        if around.captures action.value then (script.advance state, [.screenshot action.value])
        else (script.failScript, [])
      | .expect =>
        if around.probe action.field = some action.value then (script.advance state, [])
        else (script.failScript, [])
      | .await =>
        match around.probe action.field with
        | none => (script.failScript, [])
        | some current =>
          if current = action.value then (script.advance state, [])
          else (script.keepAwaiting state, [])
      | .closeWindow =>
        -- nothing after it is looked at
        if around.closesWindow then (script.completeScript, [.closeWindow])
        else (script.failScript, [])

/-- The ticks of the timer, with all that they do. -/
def run : AppScript → List Surroundings → AppScript × List Effect
  | script, [] => (script, [])
  | script, around :: rest =>
    let (next, effects) := script.runScriptAction around
    let (last, others) := next.run rest
    (last, effects ++ others)

end AppScript

/-- The start of a script, from the variables of the environment; the timer may be refused. -/
def startAppScript (source interval : Option Bytes) (timer : Bool) : AppScript :=
  let refused : AppScript := { scriptFailed := true }
  match source with
  | none => {}
  | some value =>
    if value = [] then {}
    else if value.length > kMaximumSourceBytes then refused
    else if (parse value).error ≠ .none then refused
    else if (parse value).actions = [] then refused
    else if !(parseInterval interval).valid then refused
    else if !timer then refused
    else { scriptState := some { actions := (parse value).actions } }

/-! ### The end of a script -/

/-- Only the last action closes the window. -/
def ClosesLast (actions : List Action) : Prop :=
  ∀ index action, actions[index]? = some action → action.type = .closeWindow →
    index + 1 = actions.length

theorem closesLast_append {actions others : List Action}
    (h : ∀ action ∈ actions, action.type ≠ .closeWindow) (hothers : ClosesLast others) :
    ClosesLast (actions ++ others) := by
  intro index action haction hclose
  rcases Nat.lt_or_ge index actions.length with hindex | hindex
  · rw [List.getElem?_append_left hindex] at haction
    exact absurd hclose (h action (List.mem_of_getElem? haction))
  · rw [List.getElem?_append_right hindex] at haction
    have hlast := hothers _ action haction hclose
    rw [List.length_append]
    omega

/-- A token closes the window only at the end, and does nothing else then. -/
theorem Token.closes {last : Bool} {token : Bytes} {actions : List Action}
    (h : Token last token actions) : (∀ action ∈ actions, action.type ≠ .closeWindow) ∨
      last = true ∧ actions = [{ type := .closeWindow }] := by
  have hkeys (text : List Char) : ∀ action ∈ keys text, action.type ≠ .closeWindow := by
    intro action haction
    obtain ⟨c, -, rfl⟩ := List.mem_map.mp haction
    rintro ⟨⟩
  cases h with
  | key => exact .inl (by simp)
  | shortcut => exact .inl (hkeys _)
  | wait => exact .inl (by simp)
  | waits =>
    refine .inl fun action haction => ?_
    rw [List.eq_of_mem_replicate haction]
    rintro ⟨⟩
  | text => exact .inl (hkeys _)
  | shot => exact .inl (by simp)
  | expect => exact .inl (by simp)
  | await => exact .inl (by simp)
  | close hlast => exact .inr ⟨hlast, rfl⟩

theorem Tokens.closesLast {pieces : List Bytes} {actions : List Action}
    (h : Tokens pieces actions) : ClosesLast actions := by
  induction h with
  | nil =>
    intro index action haction
    cases haction
  | @cons piece rest actions others _ _ htoken hrest ih =>
    rcases htoken.closes with hnone | ⟨hlast, rfl⟩
    · exact closesLast_append hnone ih
    · -- no token follows
      rw [List.isEmpty_iff.mp hlast] at hrest
      cases hrest
      intro index action haction _
      have hindex := (List.getElem?_eq_some_iff.mp haction).1
      simp only [List.append_nil, List.length_singleton] at hindex ⊢
      omega

theorem parse_closesLast {source : Bytes} (hsize : source.length ≤ kMaximumSourceBytes)
    (herror : (parse source).error = .none) : ClosesLast (parse source).actions := by
  rcases (parse_eq_ok hsize).mp ⟨herror, rfl⟩ with ⟨-, hnil⟩ | ⟨pieces, -, -, -, htokens, -⟩
  · rw [hnil]
    exact Tokens.nil.closesLast
  · exact htokens.closesLast

/-! ### What is carried out -/

/-- What the action asks of its surroundings. -/
def Carries (action : Action) (around : Surroundings) : Prop :=
  match action.type with
  | .key => around.handlesKey = true
  | .wait => True
  | .screenshot => around.captures action.value = true
  | .expect | .await => around.probe action.field = some action.value
  | .closeWindow => around.closesWindow = true

/-- What the action does to the application. -/
def Action.effects (action : Action) : List Effect :=
  match action.type with
  | .key => [.key (routeValue action)]
  | .screenshot => [.screenshot action.value]
  | .closeWindow => [.closeWindow]
  | _ => []

/-- Each of the actions was carried out at a tick of its own, in order. -/
def CarriedOut (actions : List Action) (ticks : List Surroundings) : Prop :=
  ∃ taken, taken.Sublist ticks ∧ List.Forall₂ Carries actions taken

/-- What has become of a script after some ticks, and what it has done. -/
inductive Outcome (actions : List Action) (ticks : List Surroundings) :
    AppScript → List Effect → Prop
  | pending (next awaitTicks : ℕ) (hnext : next < actions.length)
    (hawait : awaitTicks < kMaximumAwaitTicks)
    (hticks : ticks.length ≤ kMaximumAwaitTicks * next + awaitTicks)
    (hcarried : CarriedOut (actions.take next) ticks) :
    Outcome actions ticks ⟨some ⟨actions, next, awaitTicks⟩, false⟩
      ((actions.take next).flatMap Action.effects)
  | completed (hcarried : CarriedOut actions ticks) :
    Outcome actions ticks ⟨none, false⟩ (actions.flatMap Action.effects)
  | failed (count : ℕ) :
    Outcome actions ticks ⟨none, true⟩ ((actions.take count).flatMap Action.effects)

section Step

variable {actions : List Action} {ticks : List Surroundings} {around : Surroundings}
  {next awaitTicks : ℕ} {action : Action}

theorem CarriedOut.later (h : CarriedOut actions ticks) :
    CarriedOut actions (ticks ++ [around]) := by
  obtain ⟨taken, hsublist, hcarries⟩ := h
  exact ⟨taken, hsublist.trans (List.sublist_append_left _ _), hcarries⟩

theorem CarriedOut.concat (h : CarriedOut actions ticks) (hcarries : Carries action around) :
    CarriedOut (actions ++ [action]) (ticks ++ [around]) := by
  obtain ⟨taken, hsublist, hall⟩ := h
  exact ⟨taken ++ [around], hsublist.append (.refl _), List.rel_append hall (.cons hcarries .nil)⟩

theorem take_next (haction : actions[next]? = some action) :
    actions.take (next + 1) = actions.take next ++ [action] := by
  rw [List.take_add_one, haction]
  rfl

/-- An action has been carried out. -/
theorem Outcome.advance (haction : actions[next]? = some action)
    (hticks : ticks.length ≤ kMaximumAwaitTicks * next + awaitTicks)
    (hawait : awaitTicks < kMaximumAwaitTicks)
    (hcarried : CarriedOut (actions.take next) ticks) (hcarries : Carries action around) :
    Outcome actions (ticks ++ [around])
      (AppScript.advance ⟨some ⟨actions, next, awaitTicks⟩, false⟩ ⟨actions, next, awaitTicks⟩)
      ((actions.take next).flatMap Action.effects ++ action.effects) := by
  have hdone : CarriedOut (actions.take (next + 1)) (ticks ++ [around]) := by
    rw [take_next haction]
    exact hcarried.concat hcarries
  have heffects : (actions.take next).flatMap Action.effects ++ action.effects =
      (actions.take (next + 1)).flatMap Action.effects := by
    rw [take_next haction, List.flatMap_append, List.flatMap_singleton]
  rw [heffects, AppScript.advance]
  dsimp only
  split
  · rename_i hend
    rw [List.take_of_length_le hend] at hdone ⊢
    exact .completed hdone
  · rename_i hmore
    refine .pending (next + 1) 0 (Nat.lt_of_not_ge hmore) (by decide) ?_ hdone
    rw [List.length_append, List.length_singleton, Nat.mul_succ]
    omega

/-- A script fails without doing anything more. -/
theorem Outcome.fail : Outcome actions (ticks ++ [around])
    (AppScript.failScript ⟨some ⟨actions, next, awaitTicks⟩, false⟩)
    ((actions.take next).flatMap Action.effects ++ []) := by
  rw [List.append_nil]
  exact .failed next

theorem Outcome.step {script : AppScript} {effects : List Effect} (hlast : ClosesLast actions)
    (h : Outcome actions ticks script effects) :
    Outcome actions (ticks ++ [around]) (script.runScriptAction around).1
      (effects ++ (script.runScriptAction around).2) := by
  cases h with
  | completed hcarried =>
    rw [AppScript.runScriptAction, List.append_nil]
    exact .completed hcarried.later
  | failed count =>
    rw [AppScript.runScriptAction, List.append_nil]
    exact .failed count
  | pending next awaitTicks hnext hawait hticks hcarried =>
    have haction : actions[next]? = some actions[next] := List.getElem?_eq_getElem hnext
    generalize actions[next] = action at haction
    have hcarry (hcarries : Carries action around) :=
      Outcome.advance haction hticks hawait hcarried hcarries
    have hend := hlast next action haction
    rw [AppScript.runScriptAction]
    dsimp only
    rw [haction]
    dsimp only
    rw [Action.effects] at hcarry
    rw [Carries] at hcarry
    cases htype : action.type with
    | key =>
      rw [htype] at hcarry
      dsimp only at hcarry ⊢
      split
      · rename_i hhandles
        exact hcarry hhandles
      · -- the key has been pressed all the same
        have hpressed : (actions.take next).flatMap Action.effects ++ [.key (routeValue action)] =
            (actions.take (next + 1)).flatMap Action.effects := by
          rw [take_next haction, List.flatMap_append, List.flatMap_singleton, Action.effects, htype]
        rw [hpressed]
        exact .failed (next + 1)
    | wait =>
      rw [htype] at hcarry
      exact hcarry trivial
    | screenshot =>
      rw [htype] at hcarry
      dsimp only at hcarry ⊢
      split
      · rename_i hcaptures
        exact hcarry hcaptures
      · exact .fail
    | expect =>
      rw [htype] at hcarry
      dsimp only at hcarry ⊢
      split
      · rename_i hmatches
        exact hcarry hmatches
      · exact .fail
    | await =>
      rw [htype] at hcarry
      dsimp only at hcarry ⊢
      rcases hprobe : around.probe action.field with _ | current
      · exact .fail
      dsimp only
      split
      · rename_i hmatches
        exact hcarry (hprobe.trans (congrArg some hmatches))
      · rw [AppScript.keepAwaiting]
        dsimp only
        split
        · exact .fail
        · rename_i hmore
          rw [List.append_nil]
          refine .pending next (awaitTicks + 1) hnext (Nat.lt_of_not_ge hmore) ?_ hcarried.later
          rw [List.length_append, List.length_singleton]
          omega
    | closeWindow =>
      rw [htype] at hcarry
      dsimp only at hcarry ⊢
      split
      · rename_i hcloses
        -- it was the last action, so that the script is complete in any case
        have hcomplete := hcarry hcloses
        rw [AppScript.advance] at hcomplete
        dsimp only at hcomplete
        rw [if_pos (hend htype).ge] at hcomplete
        exact hcomplete
      · exact .fail

theorem Outcome.run {script : AppScript} {effects : List Effect} (hlast : ClosesLast actions)
    (h : Outcome actions ticks script effects) (more : List Surroundings) :
    Outcome actions (ticks ++ more) (script.run more).1 (effects ++ (script.run more).2) := by
  induction more generalizing ticks script effects with
  | nil =>
    rw [AppScript.run, List.append_nil, List.append_nil]
    exact h
  | cons around rest ih =>
    have hstep : Outcome actions (ticks ++ [around]) _ _ := h.step hlast
    have hrest := ih hstep
    rw [List.append_assoc, List.append_assoc] at hrest
    exact hrest

end Step

/-- A script that has been started is one that the parser has accepted. -/
theorem started {source interval : Option Bytes} {timer : Bool} {state : ScriptState}
    (h : (startAppScript source interval timer).scriptState = some state) :
    ∃ value, source = some value ∧ ClosesLast (parse value).actions ∧
      (parse value).actions ≠ [] ∧
      startAppScript source interval timer = ⟨some ⟨(parse value).actions, 0, 0⟩, false⟩ := by
  rcases source with _ | value
  · cases h
  rw [startAppScript] at h ⊢
  split at h
  · cases h
  rename_i hnonempty
  split at h
  · cases h
  rename_i hsize
  split at h
  · cases h
  rename_i herror
  split at h
  · cases h
  rename_i hactions
  split at h
  · cases h
  rename_i hinterval
  split at h
  · cases h
  rename_i htimer
  refine ⟨value, rfl, parse_closesLast (Nat.le_of_not_lt hsize) (not_not.mp herror), hactions, ?_⟩
  rw [if_neg hnonempty, if_neg hsize, if_neg herror, if_neg hactions, if_neg hinterval,
    if_neg htimer]

end Script

/-- **A script is carried out.**  A script has been accepted and started, and its timer has ticked
any number of times, whatever the probe said and whatever worked.  What it has done to the
application is what its first actions do, in order.  If it has ended without an error, it has
carried out all its actions, each at a tick of its own and in order, and every expectation was
met there.  And it does not go on for more than fifty ticks for each action. -/
theorem script_carries_out (source : Bytes) (interval : Option Bytes) (timer : Bool)
    (ticks : List Script.Surroundings)
    (hstarted : (Script.startAppScript (some source) interval timer).scriptState.isSome = true) :
    let actions := (Script.parse source).actions
    let ended := (Script.startAppScript (some source) interval timer).run ticks
    (∃ count, ended.2 = (actions.take count).flatMap Script.Action.effects) ∧
    (ended.1.scriptState.isNone = true → ended.1.scriptFailed = false →
      ended.2 = actions.flatMap Script.Action.effects ∧ Script.CarriedOut actions ticks) ∧
    (50 * actions.length ≤ ticks.length → ended.1.scriptState.isNone = true) := by
  intro actions ended
  obtain ⟨state, hstate⟩ := Option.isSome_iff_exists.mp hstarted
  obtain ⟨value, hvalue, hlast, hnonempty, hstart⟩ := Script.started hstate
  cases hvalue
  have hfirst : Script.Outcome actions [] (Script.startAppScript (some source) interval timer)
      ((actions.take 0).flatMap Script.Action.effects) := by
    rw [hstart]
    exact .pending 0 0 (List.length_pos_of_ne_nil hnonempty) (by decide) (Nat.zero_le _)
      ⟨[], .refl _, .nil⟩
  have houtcome : Script.Outcome actions ticks ended.1 ended.2 := hfirst.run hlast ticks
  generalize ended.1 = script at houtcome
  generalize ended.2 = effects at houtcome
  cases houtcome with
  | pending next awaitTicks hnext hawait hticks hcarried =>
    refine ⟨⟨next, rfl⟩, ?_, fun hmany => ?_⟩
    · rintro ⟨⟩
    · -- each action takes fifty ticks at most
      have hnext : Script.kMaximumAwaitTicks * (next + 1) ≤ 50 * actions.length :=
        Nat.mul_le_mul_left 50 hnext
      rw [Nat.mul_succ] at hnext
      omega
  | completed hcarried =>
    refine ⟨⟨actions.length, ?_⟩, fun _ _ => ⟨rfl, hcarried⟩, fun _ => rfl⟩
    rw [List.take_length]
  | failed count =>
    refine ⟨⟨count, rfl⟩, fun _ hfailed => ?_, fun _ => rfl⟩
    cases hfailed

namespace Script

/-- Two letters are typed, and the window is closed when the timeline is shown. -/
def sampleScript : Bytes := ascii "WAIT=2,TEXT=hi,AWAIT=screen:timeline,CLOSE"

def obliging : Surroundings where
  probe _ := some (ascii "timeline")
  handlesKey := true
  captures _ := true
  closesWindow := true

end Script

theorem script_carries_out_sampleScript :
    ((Script.startAppScript (some Script.sampleScript) none true).run
        (List.replicate 6 Script.obliging)).2 = [.key 104, .key 105, .closeWindow] ∧
      Script.CarriedOut (Script.parse Script.sampleScript).actions
        (List.replicate 6 Script.obliging) := by
  have hended : ((Script.startAppScript (some Script.sampleScript) none true).run
      (List.replicate 6 Script.obliging)).1.scriptState.isNone = true := by decide +kernel
  have hfailed : ((Script.startAppScript (some Script.sampleScript) none true).run
      (List.replicate 6 Script.obliging)).1.scriptFailed = false := by decide +kernel
  obtain ⟨heffects, hcarried⟩ := (script_carries_out Script.sampleScript none true
    (List.replicate 6 Script.obliging) (by decide +kernel)).2.1 hended hfailed
  exact ⟨heffects.trans (by decide +kernel), hcarried⟩

end Lora
