import Kovert.Matching
import Kovert.Foundations.Execution
import Kovert.Foundations.FirstWins
import Mathlib.Data.List.Sort
import Mathlib.Data.String.Basic
import Mathlib.Tactic.Linarith

/-!
# The policy engine

`PolicyEngine` of `kovert-core/src/engine.rs`. Indexing `steps` out of bounds
is a panic, which aborts the daemon, so the functions that can reach it return
`none`. The body of the rule loop in `handle` is `evalRule`: besides the next
per-rule record it says which of the loop's exits was taken, and the candidate
plans are read off that outcome.
-/

namespace Kovert

structure RuleRuntime where
  lastFired : Option Timestamp
  armedAt : Option Timestamp
  firedOnce : Bool
  sequenceIndex : ℕ
  sequenceStarted : Option Timestamp
  deriving DecidableEq, Repr

def RuleRuntime.default : RuleRuntime where
  lastFired := none
  armedAt := none
  firedOnce := false
  sequenceIndex := 0
  sequenceStarted := none

/-- One action selected after priority and conflict resolution. -/
structure ActionPlan where
  ruleId : String
  priority : ℤ
  eventId : Uuid
  action : ActionSpec
  deriving DecidableEq, Repr

abbrev RuntimeMap := String → Option RuleRuntime

/-- `entry(id).or_default()`. -/
def RuntimeMap.get (runtime : RuntimeMap) (id : String) : RuleRuntime :=
  (runtime id).getD .default

/-- `(later - earlier).to_std().unwrap_or_default()`: a negative difference is zero. -/
def elapsed (later earlier : Timestamp) : Duration := (later - earlier).toNat

theorem le_elapsed_iff {later earlier : Timestamp} {duration : Duration} (h : 0 < duration) :
    duration ≤ elapsed later earlier ↔ earlier + duration ≤ later := by
  rw [elapsed, ← not_lt, Int.toNat_lt_of_ne_zero h.ne']
  constructor <;> intro hle <;> linarith

theorem elapsed_le_iff {later earlier : Timestamp} {duration : Duration} :
    elapsed later earlier ≤ duration ↔ later ≤ earlier + duration := by
  rw [elapsed, Int.toNat_le]
  constructor <;> intro hle <;> linarith

/-! ## Sequences -/

def expireSequence (runtime : RuleRuntime) (within : Duration) (event : Event) : RuleRuntime :=
  if runtime.sequenceStarted.any (fun start => within < elapsed event.timestamp start) then
    { runtime with sequenceIndex := 0, sequenceStarted := none }
  else runtime

/-- `sequence_matches`; `none` is the out-of-bounds panic at `steps[runtime.sequence_index]`. -/
def sequenceMatches (runtime : RuleRuntime) (steps : List TriggerSpec) (within : Duration)
    (event : Event) : Option (Bool × RuleRuntime) :=
  match steps with
  | [] => some (false, runtime)
  | first :: _ =>
    let runtime := expireSequence runtime within event
    match steps[runtime.sequenceIndex]? with
    | none => none
    | some expected =>
      if !triggerMatches expected event then
        if triggerMatches first event then
          some (false,
            { runtime with sequenceIndex := 1, sequenceStarted := some event.timestamp })
        else some (false, runtime)
      else
        let runtime :=
          if runtime.sequenceIndex = 0 then
            { runtime with sequenceStarted := some event.timestamp }
          else runtime
        let runtime := { runtime with sequenceIndex := runtime.sequenceIndex + 1 }
        if runtime.sequenceIndex = steps.length then
          some (true, { runtime with sequenceIndex := 0, sequenceStarted := none })
        else some (false, runtime)

/-! ## One rule -/

/-- How the loop body of `handle` leaves a rule. Only `fired` is a firing on
the trigger path; `skipped` covers every `continue` without a candidate. -/
inductive RuleOutcome where
  | skipped
  | alerted (sensor message : String)
  | failedClosed
  | fired
  deriving DecidableEq, Repr

def ActionPlan.of (rule : Rule) (event : Event) (action : ActionSpec) : ActionPlan where
  ruleId := rule.id
  priority := rule.priority
  eventId := event.id
  action := action

def failClosedAction : ActionSpec → Bool
  | .lockVault _ | .networkIsolation true | .setMode _ => true
  | _ => false

def appendActions (rule : Rule) (event : Event) : List ActionPlan :=
  rule.actions.map (ActionPlan.of rule event)

/-- The candidates pushed for a rule that leaves the loop body with this outcome. -/
def RuleOutcome.plans (rule : Rule) (event : Event) : RuleOutcome → List ActionPlan
  | .skipped => []
  | .alerted sensor message =>
    [ActionPlan.of rule event
      (.notify "Kovert sensor failure" (sensor ++ ": " ++ message) .critical)]
  | .failedClosed => (rule.actions.filter failClosedAction).map (ActionPlan.of rule event)
  | .fired => appendActions rule event

def rateLimited (rule : Rule) (runtime : RuleRuntime) (event : Event) : Bool :=
  (rule.oncePerBoot && runtime.firedOnce) ||
    runtime.lastFired.any (fun last => elapsed event.timestamp last < rule.cooldown)

/-- The sensor-failure branch: `none` when the event is not a failure of a
sensor the trigger uses. -/
def sensorFailureOutcome (rule : Rule) (event : Event) : Option RuleOutcome :=
  match event.kind with
  | .sensorFailure sensor message =>
    if triggerUsesSensor rule.trigger sensor then
      match rule.onSensorFailure with
      | .ignore => some .skipped
      | .alert => some (.alerted sensor message)
      | .failClosed => some .failedClosed
    else none
  | _ => none

def Rule.conditionsMatch (rule : Rule) (host : Host) (snapshot : SystemSnapshot) : Bool :=
  rule.when.all (fun condition => conditionMatches host condition snapshot)

/-- Matching of the root trigger, where a sequence advances the rule's progress. -/
def Rule.triggerStep (rule : Rule) (runtime : RuleRuntime) (event : Event) :
    Option (Bool × RuleRuntime) :=
  match rule.trigger with
  | .sequence steps within => sequenceMatches runtime steps within event
  | trigger => some (triggerMatches trigger event, runtime)

def RuleRuntime.markFired (runtime : RuleRuntime) (event : Event) : RuleRuntime :=
  { runtime with lastFired := some event.timestamp, firedOnce := true }

/-- The loop body of `handle` for one rule and its runtime record. -/
def evalRule (host : Host) (snapshot : SystemSnapshot) (event : Event) (rule : Rule)
    (runtime : RuleRuntime) : Option (RuleRuntime × RuleOutcome) :=
  if !rule.enabled || rateLimited rule runtime event then some (runtime, .skipped) else
  match sensorFailureOutcome rule event with
  | some outcome => some (runtime, outcome)
  | none =>
    match runtime.armedAt with
    | some armedAt =>
      if !rule.conditionsMatch host snapshot then
        some ({ runtime with armedAt := none }, .skipped)
      else if elapsed event.timestamp armedAt < rule.sustainFor then some (runtime, .skipped)
      else some (RuleRuntime.markFired { runtime with armedAt := none } event, .fired)
    | none =>
      match rule.triggerStep runtime event with
      | none => none
      | some (matched, runtime) =>
        if !matched || !rule.conditionsMatch host snapshot then some (runtime, .skipped)
        else if rule.sustainFor = 0 then some (runtime.markFired event, .fired)
        else some ({ runtime with armedAt := some event.timestamp }, .skipped)

/-- The rule loop. A disabled rule gets no entry in the runtime table. -/
def evalRules (host : Host) (snapshot : SystemSnapshot) (event : Event) :
    List Rule → RuntimeMap → Option (RuntimeMap × List (Rule × RuleOutcome))
  | [], runtime => some (runtime, [])
  | rule :: rules, runtime =>
    match evalRule host snapshot event rule (runtime.get rule.id) with
    | none => none
    | some (state, outcome) =>
      let runtime :=
        if rule.enabled then Function.update runtime rule.id (some state) else runtime
      (evalRules host snapshot event rules runtime).map
        (fun result => (result.1, (rule, outcome) :: result.2))

def candidates (event : Event) (outcomes : List (Rule × RuleOutcome)) : List ActionPlan :=
  outcomes.flatMap (fun entry => entry.2.plans entry.1 event)

/-! ## Sorting and conflict resolution -/

/-- `right.priority.cmp(&left.priority).then_with(|| left.id.cmp(&right.id))`. -/
def ruleCmp (left right : Rule) : Ordering :=
  (compare right.priority left.priority).then (compare left.id right.id)

/-- `Vec::sort_by` is stable, and so is insertion sort. -/
def sortRules (rules : List Rule) : List Rule :=
  rules.insertionSort (fun left right => (ruleCmp left right).isLE)

def resolveConflicts (plans : List ActionPlan) : List ActionPlan :=
  FirstWins.firstWins (fun plan => plan.action.conflictKey) []
    (plans.insertionSort (fun left right => (compare right.priority left.priority).isLE))

theorem ruleCmp_isLE {left right : Rule} :
    (ruleCmp left right).isLE ↔ right.priority < left.priority ∨
      right.priority = left.priority ∧ left.id ≤ right.id := by
  have hid : (compare left.id right.id).isLE ↔ left.id ≤ right.id := by
    rw [← Ordering.ne_gt_iff_isLE]
    exact compare_le_iff_le
  rw [ruleCmp, Ordering.isLE_then_iff_or, compare_lt_iff_lt, compare_eq_iff_eq, hid]

instance : Std.Total (fun left right : Rule => (ruleCmp left right).isLE = true) where
  total left right := by
    simp only [ruleCmp_isLE]
    rcases lt_trichotomy left.priority right.priority with h | h | h
    · exact Or.inr (Or.inl h)
    · rcases le_total left.id right.id with hid | hid
      · exact Or.inl (Or.inr ⟨h.symm, hid⟩)
      · exact Or.inr (Or.inr ⟨h, hid⟩)
    · exact Or.inl (Or.inl h)

instance : IsTrans Rule (fun left right => (ruleCmp left right).isLE = true) where
  trans a b c := by
    simp only [ruleCmp_isLE]
    rintro (hab | ⟨hab, hid⟩) (hbc | ⟨hbc, hid'⟩)
    · exact Or.inl (hbc.trans hab)
    · exact Or.inl (hbc ▸ hab)
    · exact Or.inl (hab ▸ hbc)
    · exact Or.inr ⟨hbc.trans hab, hid.trans hid'⟩

/-! ## The engine -/

/-- Stateful event-condition-action evaluator. Its rules are always in
descending priority and, within a priority, in ascending id. -/
structure PolicyEngine where
  rules : List Rule
  runtime : RuntimeMap
  snapshot : SystemSnapshot
  recoveryMode : Bool
  sorted : rules.Pairwise (fun left right => (ruleCmp left right).isLE)

namespace PolicyEngine

/-- `PolicyEngine::new`; `now` is the instant `SystemSnapshot::default` reads. -/
def new (rules : List Rule) (initialMode : String) (now : Timestamp) : PolicyEngine where
  rules := sortRules rules
  runtime := fun id => if id ∈ rules.map (·.id) then some .default else none
  snapshot := { SystemSnapshot.default now with mode := initialMode }
  recoveryMode := false
  sorted := List.pairwise_insertionSort _ rules

def clearProgress (state : RuleRuntime) : RuleRuntime :=
  { state with armedAt := none, sequenceIndex := 0, sequenceStarted := none }

def setRecoveryMode (engine : PolicyEngine) (enabled : Bool) : PolicyEngine :=
  { engine with
    recoveryMode := enabled
    runtime := if enabled then fun id => (engine.runtime id).map clearProgress
      else engine.runtime }

def setMode (engine : PolicyEngine) (mode : String) : PolicyEngine :=
  { engine with snapshot := { engine.snapshot with mode := mode } }

/-- The loop of `replace_rules`: each entry is moved out of the old table, so a
second rule with the same id finds nothing there. -/
def moveRuntime : List Rule → RuntimeMap → RuntimeMap → RuntimeMap
  | [], _, next => next
  | rule :: rules, old, next =>
    moveRuntime rules (Function.update old rule.id none)
      (Function.update next rule.id (some (old.get rule.id)))

def replaceRules (engine : PolicyEngine) (rules : List Rule) : PolicyEngine :=
  { engine with
    rules := sortRules rules
    runtime := moveRuntime (sortRules rules) engine.runtime (fun _ => none)
    sorted := List.pairwise_insertionSort _ rules }

/-- The outcome of every rule on an event handled outside recovery, with the
runtime table it leaves. -/
def outcomes (engine : PolicyEngine) (host : Host) (event : Event) :
    Option (RuntimeMap × List (Rule × RuleOutcome)) :=
  evalRules host (engine.snapshot.apply event) event engine.rules engine.runtime

/-- Evaluate one event and return a conflict-free plan. -/
def handle (engine : PolicyEngine) (host : Host) (event : Event) :
    Option (PolicyEngine × List ActionPlan) :=
  if engine.recoveryMode then
    some ({ engine with snapshot := engine.snapshot.apply event }, [])
  else
    match engine.outcomes host event with
    | none => none
    | some (runtime, outcomes) =>
      some ({ engine with snapshot := engine.snapshot.apply event, runtime := runtime },
        resolveConflicts (candidates event outcomes))

/-- The rule fires on the trigger path when the event is handled. -/
def Fires (engine : PolicyEngine) (host : Host) (event : Event) (rule : Rule) : Prop :=
  engine.recoveryMode = false ∧
    ∃ runtime outcomes, engine.outcomes host event = some (runtime, outcomes) ∧
      (rule, RuleOutcome.fired) ∈ outcomes

end PolicyEngine

/-! ## The fixtures of the engine's own tests -/

def eventAt (kind : EventKind) (second : ℤ) : Event where
  id := 0
  timestamp := second
  source := "test"
  kind := kind

def testRule (trigger : TriggerSpec) : Rule where
  id := "test"
  enabled := true
  priority := 10
  cooldown := 0
  sustainFor := 0
  oncePerBoot := false
  onSensorFailure := .ignore
  trigger := trigger
  when := none
  actions := [.notify "test" "matched" .normal]

/-- A host on which no time parses and no path exists. -/
def bareHost : Host where
  parseTime := fun _ => none
  localTime := fun _ => (0, .mon)
  pathExists := fun _ => false

/-- The operations of the engine's public interface. -/
inductive EngineOp where
  | handle (host : Host) (event : Event)
  | setMode (mode : String)
  | setRecoveryMode (enabled : Bool)
  | replaceRules (rules : List Rule)

def PolicyEngine.step (engine : PolicyEngine) : EngineOp → Option PolicyEngine
  | .handle host event => (engine.handle host event).map Prod.fst
  | .setMode mode => some (engine.setMode mode)
  | .setRecoveryMode enabled => some (engine.setRecoveryMode enabled)
  | .replaceRules rules => some (engine.replaceRules rules)

end Kovert
