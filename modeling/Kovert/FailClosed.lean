import Kovert.FailurePath
import Kovert.Requirements

/-!
# Fail-closed coverage

A rule with `on_sensor_failure = fail_closed` answers the failure of a sensor
with its containment actions when its trigger uses the sensor. A sensor that
only the condition reads is not looked at: the event then takes the trigger
path, where the rule fires with all its actions or does nothing.
-/

namespace Kovert

/-- The candidates of one rule before conflict resolution; `none` is the index panic. -/
def PolicyEngine.candidatesOf (engine : PolicyEngine) (host : Host) (event : Event) (rule : Rule) :
    Option (List ActionPlan) :=
  (engine.outcomes host event).map (fun result =>
    (candidates event result.2).filter (fun plan => plan.ruleId = rule.id))

/-- The candidates of the rule are its containment actions, in order. -/
def FailsClosed (engine : PolicyEngine) (host : Host) (event : Event) (rule : Rule) : Prop :=
  engine.candidatesOf host event rule =
    some ((rule.actions.filter failClosedAction).map (ActionPlan.of rule event))

/-- No active sequence rule reads past the end of its steps on this event. -/
def SequencesReadable (engine : PolicyEngine) (event : Event) : Prop :=
  ∀ rule ∈ engine.rules, ∀ steps within, rule.trigger = .sequence steps within →
    Active rule (engine.ruleRuntime rule.id) event →
    (engine.ruleRuntime rule.id).armedAt = none → steps ≠ [] →
    (expireSequence (engine.ruleRuntime rule.id) within event).sequenceIndex < steps.length

/-- What the trigger path asks of a rule before it fires: its condition, and
either an arming that is old enough or an immediate match. -/
def TriggerPathReady (engine : PolicyEngine) (host : Host) (event : Event) (rule : Rule) : Prop :=
  rule.conditionsMatch host (engine.snapshot.apply event) = true ∧
    ((∃ armedAt, (engine.ruleRuntime rule.id).armedAt = some armedAt ∧
        rule.sustainFor ≤ elapsed event.timestamp armedAt) ∨
      (engine.ruleRuntime rule.id).armedAt = none ∧ rule.sustainFor = 0 ∧
        ∃ next, rule.triggerStep (engine.ruleRuntime rule.id) event = some (true, next))

/-! ## The candidates of one rule -/

theorem RuleOutcome.plans_ruleId {rule : Rule} {event : Event} {outcome : RuleOutcome}
    {plan : ActionPlan} (h : plan ∈ outcome.plans rule event) : plan.ruleId = rule.id := by
  cases outcome with
  | skipped => cases h
  | alerted sensor message =>
      rw [List.mem_singleton.mp h]
      rfl
  | failedClosed =>
      obtain ⟨action, _, rfl⟩ := List.mem_map.mp h
      rfl
  | fired =>
      obtain ⟨action, _, rfl⟩ := List.mem_map.mp h
      rfl

theorem plans_filter_other {rule other : Rule} {event : Event} (outcome : RuleOutcome)
    (hne : other.id ≠ rule.id) :
    (outcome.plans other event).filter (fun plan => plan.ruleId = rule.id) = [] := by
  rw [List.filter_eq_nil_iff]
  intro plan hplan
  simpa [RuleOutcome.plans_ruleId hplan] using hne

/-- With distinct ids the candidates that carry the id of a rule are its own. -/
theorem candidates_filter {outcomes : List (Rule × RuleOutcome)} {event : Event} {rule : Rule}
    {outcome : RuleOutcome} (hd : DistinctIds (outcomes.map Prod.fst))
    (hmem : (rule, outcome) ∈ outcomes) :
    (candidates event outcomes).filter (fun plan => plan.ruleId = rule.id) =
      outcome.plans rule event := by
  induction outcomes with
  | nil => cases hmem
  | cons head outcomes ih =>
      obtain ⟨hfresh, hd⟩ := List.nodup_cons.mp hd
      rw [candidates, List.flatMap_cons, List.filter_append]
      rcases List.mem_cons.mp hmem with rfl | hmem
      · have hself : (outcome.plans rule event).filter (fun plan => plan.ruleId = rule.id) =
            outcome.plans rule event := by
          rw [List.filter_eq_self]
          intro plan hplan
          simpa using RuleOutcome.plans_ruleId hplan
        have hrest : (candidates event outcomes).filter (fun plan => plan.ruleId = rule.id) =
            [] := by
          rw [List.filter_eq_nil_iff]
          intro plan hplan
          obtain ⟨entry, hentry, hplan⟩ := List.mem_flatMap.mp hplan
          have hne : entry.1.id ≠ rule.id :=
            id_ne_of_fresh hfresh (List.mem_map.mpr ⟨entry, hentry, rfl⟩)
          simpa [RuleOutcome.plans_ruleId hplan] using hne
        rw [hself, ← candidates, hrest, List.append_nil]
      · have hne : rule.id ≠ head.1.id :=
          id_ne_of_fresh hfresh (List.mem_map.mpr ⟨_, hmem, rfl⟩)
        rw [plans_filter_other head.2 hne.symm, List.nil_append]
        exact ih hd hmem

/-- An active rule leaves the loop body as fired or as skipped, and fires
exactly when the trigger path is ready. -/
theorem RuleStep.outcome_of_active {engine : PolicyEngine} {host : Host} {event : Event}
    {rule : Rule} {next : RuleRuntime} {outcome : RuleOutcome}
    (h : RuleStep host (engine.snapshot.apply event) event rule (engine.ruleRuntime rule.id) next
      outcome) (hactive : Active rule (engine.ruleRuntime rule.id) event) :
    outcome = .fired ∧ TriggerPathReady engine host event rule ∨
      outcome = .skipped ∧ ¬ TriggerPathReady engine host event rule := by
  cases h with
  | blocked hidle => exact absurd hactive hidle
  | disarmed _ harmed hcond =>
      refine Or.inr ⟨rfl, ?_⟩
      rintro ⟨hyes, _⟩
      rw [hcond] at hyes
      cases hyes
  | waiting _ harmed hcond helapsed =>
      refine Or.inr ⟨rfl, ?_⟩
      rintro ⟨_, ⟨armedAt, harmed', hle⟩ | ⟨hunarmed, _⟩⟩
      · cases harmed.symm.trans harmed'
        exact absurd helapsed (not_lt.mpr hle)
      · cases harmed.symm.trans hunarmed
  | sustained _ harmed hcond helapsed =>
      exact Or.inl ⟨rfl, hcond, Or.inl ⟨_, harmed, helapsed⟩⟩
  | progressed _ hunarmed htrigger hno =>
      refine Or.inr ⟨rfl, ?_⟩
      rintro ⟨hcond, ⟨armedAt, harmed, _⟩ | ⟨_, _, after, hmatch⟩⟩
      · cases hunarmed.symm.trans harmed
      · cases htrigger.symm.trans hmatch
        rcases hno with hno | hno
        · cases hno
        · cases hno.symm.trans hcond
  | immediate _ hunarmed htrigger hcond hsustain =>
      exact Or.inl ⟨rfl, hcond, Or.inr ⟨hunarmed, hsustain, _, htrigger⟩⟩
  | armed _ hunarmed htrigger hcond hsustain =>
      refine Or.inr ⟨rfl, ?_⟩
      rintro ⟨_, ⟨armedAt, harmed, _⟩ | ⟨_, hzero, _⟩⟩
      · cases hunarmed.symm.trans harmed
      · exact hsustain hzero

theorem ActionPlan.of_injective (rule : Rule) (event : Event) :
    Function.Injective (ActionPlan.of rule event) := by
  intro left right h
  exact congrArg ActionPlan.action h

/-! ## Coverage -/

theorem outcomes_isSome_iff {engine : PolicyEngine} {event : Event}
    (hd : DistinctIds engine.rules) (hrec : engine.recoveryMode = false) (host : Host) :
    (∃ result, engine.outcomes host event = some result) ↔ SequencesReadable engine event := by
  have hnone : engine.outcomes host event = none ↔ ¬ SequencesReadable engine event := by
    have hiff : engine.handle host event = none ↔ _ := PolicyEngine.handle_eq_none_iff hd
    rw [PolicyEngine.handle_eq_none] at hiff
    simp only [hrec, true_and] at hiff
    rw [hiff]
    unfold SequencesReadable
    push Not
    rfl
  rw [← Option.isSome_iff_exists, Option.isSome_iff_ne_none, Ne, hnone, not_not]

theorem candidatesOf_eq {engine : PolicyEngine} {host : Host} {event : Event}
    {runtime : RuntimeMap} {outcomes : List (Rule × RuleOutcome)} {rule : Rule}
    (hd : DistinctIds engine.rules)
    (hout : engine.outcomes host event = some (runtime, outcomes)) (hr : rule ∈ engine.rules) :
    ∃ outcome, evalRule host (engine.snapshot.apply event) event rule
        (engine.ruleRuntime rule.id) = some (runtime.get rule.id, outcome) ∧
      engine.candidatesOf host event rule = some (outcome.plans rule event) := by
  obtain ⟨outcome, hmem, heval⟩ := PolicyEngine.outcomes_evalRule hd hout hr
  refine ⟨outcome, heval, ?_⟩
  have hfst := evalRules_map_fst hout
  rw [PolicyEngine.candidatesOf, hout, Option.map_some, candidates_filter (hfst ▸ hd) hmem]

/-- A fail-closed rule answers a sensor failure with exactly its containment
actions when its trigger uses the sensor; otherwise only when the trigger path
happens to give the same candidates. -/
theorem fails_closed_iff (engine : PolicyEngine) (host : Host) (event : Event) (rule : Rule)
    (sensor message : String) (hd : DistinctIds engine.rules)
    (hrec : engine.recoveryMode = false) (hr : rule ∈ engine.rules)
    (henabled : rule.enabled = true)
    (hfree : rateLimited rule (engine.ruleRuntime rule.id) event = false)
    (hpolicy : rule.onSensorFailure = .failClosed)
    (hkind : event.kind = .sensorFailure sensor message) (_hdepends : rule.DependsOn sensor) :
    FailsClosed engine host event rule ↔
      SequencesReadable engine event ∧
        (triggerUsesSensor rule.trigger sensor = true ∨
          (TriggerPathReady engine host event rule ∧
            ∀ action ∈ rule.actions, failClosedAction action = true) ∨
          (¬ TriggerPathReady engine host event rule ∧
            ∀ action ∈ rule.actions, failClosedAction action = false)) := by
  by_cases hreadable : SequencesReadable engine event
  · obtain ⟨⟨runtime, outcomes⟩, hout⟩ := (outcomes_isSome_iff hd hrec host).mpr hreadable
    obtain ⟨outcome, heval, hplans⟩ := candidatesOf_eq hd hout hr
    simp only [FailsClosed, hplans, Option.some.injEq, hreadable, true_and]
    cases huses : triggerUsesSensor rule.trigger sensor with
    | true =>
        have hs : sensorFailureOutcome rule event = some .failedClosed := by
          simp only [sensorFailureOutcome, hkind, huses, if_true, hpolicy]
        rw [evalRule_of_not_limited henabled hfree hs] at heval
        obtain ⟨_, rfl⟩ := Prod.mk.inj (Option.some.inj heval)
        simp [RuleOutcome.plans]
    | false =>
        have hs : sensorFailureOutcome rule event = none := by
          simp only [sensorFailureOutcome, hkind, huses, Bool.false_eq_true, if_false]
        have hinj := List.map_injective_iff.mpr (ActionPlan.of_injective rule event)
        rcases (evalRule_ruleStep heval).outcome_of_active ⟨henabled, hfree, hs⟩ with
          ⟨rfl, hready⟩ | ⟨rfl, hready⟩
        · simp only [RuleOutcome.plans, appendActions, hinj.eq_iff, hready]
          rw [eq_comm, List.filter_eq_self]
          simp
        · simp only [RuleOutcome.plans, hready]
          rw [eq_comm, List.map_eq_nil_iff, List.filter_eq_nil_iff]
          simp
  · have hnone : ¬ ∃ result, engine.outcomes host event = some result := by
      rw [outcomes_isSome_iff hd hrec host]
      exact hreadable
    have hout : engine.outcomes host event = none := by
      rw [Option.eq_none_iff_forall_ne_some]
      exact fun result hresult => hnone ⟨result, hresult⟩
    simp [FailsClosed, PolicyEngine.candidatesOf, hout, hreadable]

/-- Isolates the network on the trigger, as long as the Wi-Fi is connected. -/
def isolatingRule (trigger : TriggerSpec) : Rule :=
  { testRule trigger with
    onSensorFailure := .failClosed
    when := some (.wifi none none (some true))
    actions := [.notify "test" "matched" .normal, .networkIsolation true] }

def roamingRule : Rule := isolatingRule (.any [.tick, .wifiChanged none none none])

def panicRule : Rule := isolatingRule (.manual "panic")

def wifiFailure : Event := eventAt (.sensorFailure "wifi" "probe failed") 1

theorem fails_closed_roaming :
    roamingRule.DependsOn "wifi" ∧
      FailsClosed (.new [roamingRule] "normal" 0) bareHost wifiFailure roamingRule ∧
      (PolicyEngine.new [roamingRule] "normal" 0).candidatesOf bareHost wifiFailure roamingRule =
        some [ActionPlan.of roamingRule wifiFailure (.networkIsolation true)] := by
  have hdepends : roamingRule.DependsOn "wifi" := Or.inl (by decide)
  refine ⟨hdepends, ?_, rfl⟩
  refine (fails_closed_iff _ bareHost wifiFailure roamingRule "wifi" "probe failed"
    (new_distinctIds (by simp [DistinctIds]) _ _) rfl (mem_sortRules.mpr (by simp)) rfl rfl rfl rfl
    hdepends).mpr ⟨?_, Or.inl (by decide)⟩
  intro other hother steps within ht
  rw [List.mem_singleton.mp (mem_sortRules.mp hother)] at ht
  cases ht

/-- The condition reads the failed sensor and the trigger does not: nothing is isolated. -/
theorem condition_sensor_failure_ignored :
    Accepted (fun _ => none) [panicRule] ∧
      panicRule ∈ (PolicyEngine.new [panicRule] "normal" 0).rules ∧ panicRule.enabled = true ∧
      rateLimited panicRule .default wifiFailure = false ∧
      panicRule.onSensorFailure = .failClosed ∧ panicRule.DependsOn "wifi" ∧
      (PolicyEngine.new [panicRule] "normal" 0).candidatesOf bareHost wifiFailure panicRule =
        some [] ∧
      ¬ FailsClosed (.new [panicRule] "normal" 0) bareHost wifiFailure panicRule := by
  have hempty : (PolicyEngine.new [panicRule] "normal" 0).candidatesOf bareHost wifiFailure
      panicRule = some [] := rfl
  refine ⟨⟨testConfig _, rfl, rfl⟩, mem_sortRules.mpr (by simp), rfl, rfl, rfl,
    Or.inr ⟨_, rfl, by decide⟩, hempty, ?_⟩
  rw [FailsClosed, hempty]
  simp [panicRule, isolatingRule, failClosedAction]

end Kovert
