import Kovert.FailClosed

/-!
# Sensor-failure triggers

A rule may name the failure of a sensor as its trigger. `trigger_uses_sensor`
counts such a trigger as a use of the sensor, and on exactly the events that
the trigger matches: the failure policy of the rule is consulted first, and the
trigger is never looked at.
-/

namespace Kovert

/-- A `sensor_failure` trigger, or an `any` of such triggers. -/
inductive FailureTrigger : TriggerSpec → Prop where
  | leaf (sensor : Option String) : FailureTrigger (.sensorFailure sensor)
  | any (triggers : List TriggerSpec) (h : ∀ item ∈ triggers, FailureTrigger item) :
      FailureTrigger (.any triggers)

/-- Every action of the rule is among the candidates that the rule contributes. -/
def ContributesActions (engine : PolicyEngine) (host : Host) (event : Event) (rule : Rule) : Prop :=
  ∃ plans, engine.candidatesOf host event rule = some plans ∧ appendActions rule event ⊆ plans

/-- The failure policy lets all actions of the rule through on a failure of the sensor. -/
def PolicyKeepsActions (rule : Rule) (sensor message : String) : Prop :=
  match rule.onSensorFailure with
  | .ignore => rule.actions = []
  | .alert => ∀ action ∈ rule.actions,
      action = .notify "Kovert sensor failure" (sensor ++ ": " ++ message) .critical
  | .failClosed => ∀ action ∈ rule.actions, failClosedAction action = true

@[simp] theorem anyTriggerUsesSensor_eq (triggers : List TriggerSpec) (sensor : String) :
    anyTriggerUsesSensor triggers sensor =
      triggers.any (fun item => triggerUsesSensor item sensor) := by
  induction triggers with
  | nil => rfl
  | cons item items ih => simp only [anyTriggerUsesSensor, List.any_cons, ih]

/-- A failure trigger matches the failures of the sensors that it uses. -/
theorem FailureTrigger.matches_eq_uses {trigger : TriggerSpec} (h : FailureTrigger trigger)
    {event : Event} {sensor message : String}
    (hkind : event.kind = .sensorFailure sensor message) :
    triggerMatches trigger event = triggerUsesSensor trigger sensor := by
  induction h with
  | leaf expected => simp only [triggerMatches, hkind, triggerUsesSensor]
  | any triggers _ ih =>
      simp only [triggerMatches, anyTriggerMatches_eq, triggerUsesSensor, anyTriggerUsesSensor_eq]
      rw [Bool.eq_iff_iff, List.any_eq_true, List.any_eq_true]
      constructor
      · rintro ⟨item, hitem, hmatch⟩
        exact ⟨item, hitem, ih item hitem ▸ hmatch⟩
      · rintro ⟨item, hitem, huses⟩
        exact ⟨item, hitem, (ih item hitem).symm ▸ huses⟩

/-- The exit of the loop body that the failure policy chooses. -/
def policyOutcome (rule : Rule) (sensor message : String) : RuleOutcome :=
  match rule.onSensorFailure with
  | .ignore => .skipped
  | .alert => .alerted sensor message
  | .failClosed => .failedClosed

theorem sensorFailureOutcome_of_uses {rule : Rule} {event : Event} {sensor message : String}
    (hkind : event.kind = .sensorFailure sensor message)
    (huses : triggerUsesSensor rule.trigger sensor = true) :
    sensorFailureOutcome rule event = some (policyOutcome rule sensor message) := by
  simp only [sensorFailureOutcome, hkind, huses, if_true, policyOutcome]
  cases rule.onSensorFailure <;> rfl

theorem actions_subset_plans {rule : Rule} {event : Event} {sensor message : String} :
    appendActions rule event ⊆ (policyOutcome rule sensor message).plans rule event ↔
      PolicyKeepsActions rule sensor message := by
  have hinj := ActionPlan.of_injective rule event
  have hsubset : ∀ plans, appendActions rule event ⊆ plans ↔
      ∀ action ∈ rule.actions, ActionPlan.of rule event action ∈ plans := by
    intro plans
    simp [appendActions, List.subset_def]
  rw [hsubset]
  unfold policyOutcome PolicyKeepsActions
  cases rule.onSensorFailure with
  | ignore => simp [RuleOutcome.plans, List.eq_nil_iff_forall_not_mem]
  | alert => simp [RuleOutcome.plans, hinj.eq_iff]
  | failClosed => simp +contextual [RuleOutcome.plans, hinj.eq_iff]

/-- A rule whose failure trigger matches contributes its actions exactly when
the failure policy lets all of them through. -/
theorem failure_trigger_contributes_iff (engine : PolicyEngine) (host : Host) (event : Event)
    (rule : Rule) (sensor message : String) (hd : DistinctIds engine.rules)
    (hrec : engine.recoveryMode = false) (hr : rule ∈ engine.rules)
    (hkind : event.kind = .sensorFailure sensor message) (henabled : rule.enabled = true)
    (hfree : rateLimited rule (engine.ruleRuntime rule.id) event = false)
    (_hunarmed : (engine.ruleRuntime rule.id).armedAt = none) (_hsustain : rule.sustainFor = 0)
    (htrigger : FailureTrigger rule.trigger) (hmatch : triggerMatches rule.trigger event = true)
    (_hcond : rule.conditionsMatch host (engine.snapshot.apply event) = true) :
    ContributesActions engine host event rule ↔
      SequencesReadable engine event ∧ PolicyKeepsActions rule sensor message := by
  have huses : triggerUsesSensor rule.trigger sensor = true :=
    htrigger.matches_eq_uses hkind ▸ hmatch
  have hs := sensorFailureOutcome_of_uses hkind huses
  rw [← outcomes_isSome_iff hd hrec host]
  constructor
  · rintro ⟨plans, hplans, hsubset⟩
    obtain ⟨⟨runtime, outcomes⟩, hout, _⟩ := Option.map_eq_some_iff.mp hplans
    obtain ⟨outcome, heval, hown⟩ := candidatesOf_eq hd hout hr
    rw [evalRule_of_not_limited henabled hfree hs] at heval
    obtain ⟨_, rfl⟩ := Prod.mk.inj (Option.some.inj heval)
    rw [hplans] at hown
    exact ⟨⟨_, hout⟩, actions_subset_plans.mp (Option.some.inj hown ▸ hsubset)⟩
  · rintro ⟨⟨⟨runtime, outcomes⟩, hout⟩, hkeeps⟩
    obtain ⟨outcome, heval, hown⟩ := candidatesOf_eq hd hout hr
    rw [evalRule_of_not_limited henabled hfree hs] at heval
    obtain ⟨_, rfl⟩ := Prod.mk.inj (Option.some.inj heval)
    exact ⟨_, hown, actions_subset_plans.mpr hkeeps⟩

/-- Isolates the network when the Wi-Fi sensor fails. -/
def blindRule (policy : SensorFailurePolicy) : Rule :=
  { testRule (.any [.sensorFailure (some "wifi"), .sensorFailure (some "network")]) with
    onSensorFailure := policy
    actions := [.networkIsolation true] }

def blindEngine (policy : SensorFailurePolicy) : PolicyEngine := .new [blindRule policy] "normal" 0

theorem blindRule_failureTrigger (policy : SensorFailurePolicy) :
    FailureTrigger (blindRule policy).trigger := by
  refine .any _ ?_
  intro item hitem
  obtain rfl | rfl : item = _ ∨ item = _ := by simpa using hitem
  · exact .leaf _
  · exact .leaf _

/-- The only action is a containment action, which `fail_closed` lets through. -/
theorem failure_trigger_contributes_blind :
    ContributesActions (blindEngine .failClosed) bareHost wifiFailure (blindRule .failClosed) := by
  refine (failure_trigger_contributes_iff _ bareHost wifiFailure (blindRule .failClosed) "wifi"
    "probe failed" (new_distinctIds (by simp [DistinctIds]) _ _) rfl
    (mem_sortRules.mpr (by simp)) rfl rfl rfl rfl rfl (blindRule_failureTrigger _) (by decide)
    rfl).mpr ⟨?_, ?_⟩
  · intro other hother steps within ht
    rw [List.mem_singleton.mp (mem_sortRules.mp hother)] at ht
    cases ht
  · intro action haction
    rw [List.mem_singleton.mp haction]
    rfl

/-- Under the default policy the rule that waits for the failure only alerts. -/
theorem failure_trigger_only_alerts :
    Accepted (fun _ => none) [blindRule .alert] ∧
      blindRule .alert ∈ (blindEngine .alert).rules ∧
      (blindEngine .alert).recoveryMode = false ∧ (blindRule .alert).enabled = true ∧
      rateLimited (blindRule .alert) ((blindEngine .alert).ruleRuntime "test") wifiFailure =
        false ∧
      ((blindEngine .alert).ruleRuntime "test").armedAt = none ∧
      (blindRule .alert).sustainFor = 0 ∧ FailureTrigger (blindRule .alert).trigger ∧
      triggerMatches (blindRule .alert).trigger wifiFailure = true ∧
      (blindRule .alert).conditionsMatch bareHost
        ((blindEngine .alert).snapshot.apply wifiFailure) = true ∧
      (blindEngine .alert).candidatesOf bareHost wifiFailure (blindRule .alert) =
        some [ActionPlan.of (blindRule .alert) wifiFailure
          (.notify "Kovert sensor failure" "wifi: probe failed" .critical)] ∧
      ¬ ContributesActions (blindEngine .alert) bareHost wifiFailure (blindRule .alert) := by
  have hplans : (blindEngine .alert).candidatesOf bareHost wifiFailure (blindRule .alert) =
      some [ActionPlan.of (blindRule .alert) wifiFailure
        (.notify "Kovert sensor failure" "wifi: probe failed" .critical)] := by decide +kernel
  refine ⟨⟨testConfig _, rfl, by decide +kernel⟩, mem_sortRules.mpr (by simp), rfl, rfl, rfl, rfl,
    rfl, blindRule_failureTrigger _, by decide, rfl, hplans, ?_⟩
  rintro ⟨plans, hcandidates, hsubset⟩
  rw [hplans] at hcandidates
  cases hcandidates
  have hin := hsubset (List.mem_map.mpr ⟨.networkIsolation true, List.mem_singleton_self _, rfl⟩)
  cases congrArg ActionPlan.action (List.mem_singleton.mp hin)

end Kovert
