import Kovert.Runs

/-!
# Rate limits on the sensor-failure path

The sensor-failure branch of `handle` respects the marks left by trigger-path
firings and leaves none of its own. The contributions of a rule's policy are
therefore spaced exactly as far as the failures that reach the policy are.
-/

namespace Kovert

open Execution

/-- The sensor-failure policy of the rule pushes at least one candidate when
the event is handled. -/
def PolicyEngine.Contributes (engine : PolicyEngine) (host : Host) (event : Event) (rule : Rule) :
    Prop :=
  engine.recoveryMode = false ∧
    ∃ runtime outcomes outcome, engine.outcomes host event = some (runtime, outcomes) ∧
      (rule, outcome) ∈ outcomes ∧ outcome ≠ .fired ∧ outcome.plans rule event ≠ []

def ContributesAt (start : PolicyEngine) (ops : List EngineOp) (n : ℕ) (rule : Rule)
    (event : Event) : Prop :=
  ∃ engine host, Visits PolicyEngine.step start ops n engine (.handle host event) ∧
    engine.Contributes host event rule

/-- The event is a failure of a sensor that the rule's trigger uses. -/
def Rule.LosesSensor (rule : Rule) (event : Event) : Prop :=
  ∃ sensor message, event.kind = .sensorFailure sensor message ∧
    triggerUsesSensor rule.trigger sensor = true

/-- The policy has something to do about a failure. -/
def Rule.ActsOnFailure (rule : Rule) : Prop :=
  rule.onSensorFailure = .alert ∨
    rule.onSensorFailure = .failClosed ∧ ∃ action ∈ rule.actions, failClosedAction action = true

/-- A failure that reaches the policy of a rule: outside recovery, enabled, and
not limited by the trigger-path firings its record remembers. -/
structure Exposed (engine : PolicyEngine) (rule : Rule) (event : Event) : Prop where
  awake : engine.recoveryMode = false
  enabled : rule.enabled = true
  unlimited : rateLimited rule (engine.ruleRuntime rule.id) event = false
  loses : rule.LosesSensor event
  acts : rule.ActsOnFailure

/-! ## One event -/

theorem sensorFailureOutcome_plans {rule : Rule} {event : Event} :
    (∃ outcome, sensorFailureOutcome rule event = some outcome ∧
        outcome.plans rule event ≠ []) ↔ rule.LosesSensor event ∧ rule.ActsOnFailure := by
  constructor
  · rintro ⟨outcome, houtcome, hplans⟩
    unfold sensorFailureOutcome at houtcome
    split at houtcome
    · next sensor message hkind =>
      split_ifs at houtcome with huses
      refine ⟨⟨sensor, message, hkind, huses⟩, ?_⟩
      split at houtcome
      · cases houtcome
        exact absurd rfl hplans
      · next halert => exact Or.inl halert
      · next hclosed =>
        cases houtcome
        obtain ⟨plan, hplan⟩ := List.exists_mem_of_ne_nil _ hplans
        obtain ⟨action, haction, _⟩ := List.mem_map.mp hplan
        exact Or.inr ⟨hclosed, action, List.mem_filter.mp haction⟩
    · cases houtcome
  · rintro ⟨⟨sensor, message, hkind, huses⟩, hacts⟩
    rcases hacts with halert | ⟨hclosed, action, haction, hcontains⟩
    · refine ⟨.alerted sensor message, ?_, by simp [RuleOutcome.plans]⟩
      simp only [sensorFailureOutcome, hkind, huses, if_true, halert]
    · refine ⟨.failedClosed, ?_, ?_⟩
      · simp only [sensorFailureOutcome, hkind, huses, if_true, hclosed]
      · have hmem : ActionPlan.of rule event action ∈
            RuleOutcome.plans rule event .failedClosed :=
          List.mem_map.mpr ⟨action, List.mem_filter.mpr ⟨haction, hcontains⟩, rfl⟩
        exact List.ne_nil_of_mem hmem

theorem evalRule_of_not_limited {host : Host} {snapshot : SystemSnapshot} {event : Event}
    {rule : Rule} {runtime : RuleRuntime} {outcome : RuleOutcome} (henabled : rule.enabled = true)
    (hfree : rateLimited rule runtime event = false)
    (hs : sensorFailureOutcome rule event = some outcome) :
    evalRule host snapshot event rule runtime = some (runtime, outcome) := by
  simp [evalRule, henabled, hfree, hs]

/-- An outcome with candidates that is not a firing comes from the
sensor-failure branch. -/
theorem evalRule_contributing {host : Host} {snapshot : SystemSnapshot} {event : Event}
    {rule : Rule} {runtime next : RuleRuntime} {outcome : RuleOutcome}
    (h : evalRule host snapshot event rule runtime = some (next, outcome))
    (hne : outcome ≠ .fired) (hplans : outcome.plans rule event ≠ []) :
    rule.enabled = true ∧ rateLimited rule runtime event = false ∧
      sensorFailureOutcome rule event = some outcome := by
  have hskipped : outcome ≠ .skipped := by
    rintro rfl
    exact hplans rfl
  by_cases hguard : (!rule.enabled || rateLimited rule runtime event) = true
  · rw [evalRule, if_pos hguard] at h
    cases h
    exact absurd rfl hskipped
  · have hopen : rule.enabled = true ∧ rateLimited rule runtime event = false := by
      simpa using hguard
    refine ⟨hopen.1, hopen.2, ?_⟩
    cases hs : sensorFailureOutcome rule event with
    | some diverted =>
        rw [evalRule_of_not_limited hopen.1 hopen.2 hs] at h
        cases h
        rfl
    | none =>
        have hactive : Active rule runtime event := ⟨hopen.1, hopen.2, hs⟩
        cases evalRule_ruleStep h with
        | blocked hidle => exact absurd hactive hidle
        | sustained => exact absurd rfl hne
        | immediate => exact absurd rfl hne
        | _ => exact absurd rfl hskipped

/-- In a call that returns, the policy contributes exactly when the failure
reaches it. -/
theorem contributes_iff_exposed {engine engine' : PolicyEngine} {host : Host} {event : Event}
    {plans : List ActionPlan} {rule : Rule} (hd : DistinctIds engine.rules)
    (hr : rule ∈ engine.rules) (hh : engine.handle host event = some (engine', plans)) :
    engine.Contributes host event rule ↔ Exposed engine rule event := by
  constructor
  · rintro ⟨hrec, runtime, outcomes, outcome, hout, hmem, hne, hplans⟩
    obtain ⟨henabled, hfree, hs⟩ :=
      evalRule_contributing (evalRules_mem hd hout hmem) hne hplans
    obtain ⟨hloses, hacts⟩ := sensorFailureOutcome_plans.mp ⟨outcome, hs, hplans⟩
    exact ⟨hrec, henabled, hfree, hloses, hacts⟩
  · rintro ⟨hrec, henabled, hfree, hloses, hacts⟩
    obtain ⟨outcomes, hout, _⟩ := PolicyEngine.handle_active hrec hh
    obtain ⟨outcome, hmem, heval⟩ := PolicyEngine.outcomes_evalRule hd hout hr
    obtain ⟨diverted, hs, hplans⟩ := sensorFailureOutcome_plans.mpr ⟨hloses, hacts⟩
    rw [evalRule_of_not_limited henabled hfree hs] at heval
    obtain ⟨_, rfl⟩ := Prod.mk.inj (Option.some.inj heval)
    exact ⟨hrec, _, outcomes, _, hout, hmem, sensorFailureOutcome_ne_fired hs, hplans⟩

/-! ## Runs with fixed rules -/

/-- What the rate limits promise of the sensor-failure path. -/
structure FailurePathLimited (start : PolicyEngine) (ops : List EngineOp) (rule : Rule) :
    Prop where
  once : rule.oncePerBoot = true → ∀ i j event event',
    ContributesAt start ops i rule event → ContributesAt start ops j rule event' → i = j
  cooled : 0 < rule.cooldown → ∀ i j event event', ContributesAt start ops i rule event →
    ContributesAt start ops j rule event' → i < j →
    (∀ k event'', ContributesAt start ops k rule event'' → k ≤ i ∨ j ≤ k) →
    event.timestamp + rule.cooldown ≤ event'.timestamp

/-- The failures that reach the policy arrive one at a time: a second one never
under `once_per_boot`, and none sooner than `cooldown` after any earlier one. -/
def FailuresSpaced (start : PolicyEngine) (ops : List EngineOp) (rule : Rule) : Prop :=
  ∀ i j engine engine' host host' event event', i < j →
    Visits PolicyEngine.step start ops i engine (.handle host event) →
    Visits PolicyEngine.step start ops j engine' (.handle host' event') →
    Exposed engine rule event → Exposed engine' rule event' →
    rule.oncePerBoot = false ∧
      (0 < rule.cooldown → event.timestamp + rule.cooldown ≤ event'.timestamp)

theorem contributesAt_iff {start final : PolicyEngine} {ops : List EngineOp} {rule : Rule}
    (hd : DistinctIds start.rules) (hr : rule ∈ start.rules)
    (hops : ∀ op ∈ ops, op.KeepsRules) (hrun : run PolicyEngine.step start ops = some final)
    {n : ℕ} {event : Event} :
    ContributesAt start ops n rule event ↔ ∃ engine host,
      Visits PolicyEngine.step start ops n engine (.handle host event) ∧
        Exposed engine rule event := by
  have hiff : ∀ engine host, Visits PolicyEngine.step start ops n engine (.handle host event) →
      (engine.Contributes host event rule ↔ Exposed engine rule event) := by
    intro engine host hv
    have hrules : engine.rules = start.rules := by
      refine run_invariant (C := fun _ op => op.KeepsRules)
        (P := fun engine => engine.rules = start.rules) rfl ?_ hv.2
        (allSteps_of_forall_mem fun op hop => hops op (List.mem_of_mem_take hop))
      intro m op t hop hm hs
      rw [step_rules hop hs, hm]
    have hreturns : ∃ next, engine.step (.handle host event) = some next := by
      rw [hv.split, List.append_assoc, run_append, hv.2, Option.bind_some, List.singleton_append,
        run_cons] at hrun
      exact Option.isSome_iff_exists.mp (Option.isSome_of_isSome_bind (by rw [hrun]; rfl))
    obtain ⟨next, hs⟩ := hreturns
    obtain ⟨plans, hh⟩ := step_handle hs
    exact contributes_iff_exposed (hrules ▸ hd) (hrules ▸ hr) hh
  constructor
  · rintro ⟨engine, host, hv, hc⟩
    exact ⟨engine, host, hv, (hiff engine host hv).mp hc⟩
  · rintro ⟨engine, host, hv, he⟩
    exact ⟨engine, host, hv, (hiff engine host hv).mpr he⟩

/-- Spacing of successive contributions adds up to spacing of any two. -/
theorem FailurePathLimited.spaced {start : PolicyEngine} {ops : List EngineOp} {rule : Rule}
    (h : FailurePathLimited start ops rule) (hcool : 0 < rule.cooldown) {i j : ℕ}
    {event event' : Event} (hi : ContributesAt start ops i rule event)
    (hj : ContributesAt start ops j rule event') (hij : i < j) :
    event.timestamp + rule.cooldown ≤ event'.timestamp := by
  induction hn : j - i using Nat.strong_induction_on generalizing i j event event' with
  | _ n ih =>
      by_cases hbetween : ∃ k middle, ContributesAt start ops k rule middle ∧ i < k ∧ k < j
      · obtain ⟨k, middle, hk, hik, hkj⟩ := hbetween
        have hleft := ih (k - i) (by omega) hi hk hik rfl
        have hright := ih (j - k) (by omega) hk hj hkj rfl
        have hpos : (0 : ℤ) ≤ rule.cooldown := Int.natCast_nonneg _
        linarith
      · apply h.cooled hcool i j event event' hi hj hij
        intro k middle hk
        by_contra hno
        exact hbetween ⟨k, middle, hk, by omega, by omega⟩

/-- The sensor-failure path keeps the rate limits exactly in the runs in which
the failures that reach the policy are spaced by themselves. -/
theorem failure_path_limited_iff (start final : PolicyEngine) (ops : List EngineOp) (rule : Rule)
    (hd : DistinctIds start.rules) (hr : rule ∈ start.rules)
    (hops : ∀ op ∈ ops, op.KeepsRules) (hrun : run PolicyEngine.step start ops = some final) :
    FailurePathLimited start ops rule ↔ FailuresSpaced start ops rule := by
  constructor
  · intro hlimited i j engine engine' host host' event event' hij hvi hvj hei hej
    have hi := (contributesAt_iff hd hr hops hrun).mpr ⟨engine, host, hvi, hei⟩
    have hj := (contributesAt_iff hd hr hops hrun).mpr ⟨engine', host', hvj, hej⟩
    refine ⟨?_, fun hcool => hlimited.spaced hcool hi hj hij⟩
    by_contra honce
    have heq := hlimited.once (by simpa using honce) i j event event' hi hj
    omega
  · intro hspaced
    have hpair : ∀ i j event event', ContributesAt start ops i rule event →
        ContributesAt start ops j rule event' → i < j → rule.oncePerBoot = false ∧
          (0 < rule.cooldown → event.timestamp + rule.cooldown ≤ event'.timestamp) := by
      intro i j event event' hi hj hij
      obtain ⟨engine, host, hvi, hei⟩ := (contributesAt_iff hd hr hops hrun).mp hi
      obtain ⟨engine', host', hvj, hej⟩ := (contributesAt_iff hd hr hops hrun).mp hj
      exact hspaced i j engine engine' host host' event event' hij hvi hvj hei hej
    constructor
    · intro honce i j event event' hi hj
      rcases Nat.lt_trichotomy i j with hij | heq | hji
      · have hno := (hpair i j event event' hi hj hij).1
        rw [honce] at hno
        cases hno
      · exact heq
      · have hno := (hpair j i event' event hj hi hji).1
        rw [honce] at hno
        cases hno
    · intro hcool i j event event' hi hj hij _
      exact (hpair i j event event' hi hj hij).2 hcool

def alertingRule (cooldown : Duration) (oncePerBoot : Bool) : Rule :=
  { testRule (.wifiChanged none none none) with
    cooldown := cooldown
    oncePerBoot := oncePerBoot
    onSensorFailure := .alert }

def wifiFailureAt (second : ℤ) : EngineOp :=
  .handle bareHost (eventAt (.sensorFailure "wifi" "probe failed") second)

/-- A failure inside the cooldown of a trigger-path firing does not reach the policy. -/
def spacedFailures : List EngineOp :=
  [wifiFailureAt 0, .handle bareHost (eventAt (.wifi true none none) 2), wifiFailureAt 4,
    wifiFailureAt 6]

theorem failure_path_limited_spaced :
    ContributesAt (.new [alertingRule 3 false] "normal" 0) spacedFailures 0 (alertingRule 3 false)
        (eventAt (.sensorFailure "wifi" "probe failed") 0) ∧
      ContributesAt (.new [alertingRule 3 false] "normal" 0) spacedFailures 3
        (alertingRule 3 false) (eventAt (.sensorFailure "wifi" "probe failed") 6) ∧
      FailurePathLimited (.new [alertingRule 3 false] "normal" 0) spacedFailures
        (alertingRule 3 false) := by
  refine ⟨⟨_, bareHost, ⟨rfl, rfl⟩, rfl, _, _, _, rfl, List.mem_singleton.mpr rfl, by decide,
    by decide⟩, ⟨_, bareHost, ⟨rfl, rfl⟩, rfl, _, _, _, rfl, List.mem_singleton.mpr rfl, by decide,
    by decide⟩, ?_⟩
  refine (failure_path_limited_iff _ _ spacedFailures (alertingRule 3 false)
    (new_distinctIds (by simp [DistinctIds]) _ _) (mem_sortRules.mpr (by simp))
    (by simp [spacedFailures, wifiFailureAt, EngineOp.KeepsRules]) rfl).mpr ?_
  have hreach : ∀ n engine host event,
      Visits PolicyEngine.step (.new [alertingRule 3 false] "normal" 0) spacedFailures n engine
        (.handle host event) → Exposed engine (alertingRule 3 false) event →
      n = 0 ∧ event.timestamp = 0 ∨ n = 3 ∧ event.timestamp = 6 := by
    rintro (_ | _ | _ | _ | n) engine host event ⟨hop, hrun⟩ hexposed <;> cases hop <;> cases hrun
    · exact Or.inl ⟨rfl, rfl⟩
    · obtain ⟨_, _, hkind, _⟩ := hexposed.loses
      cases hkind
    · exact absurd hexposed.unlimited (by decide)
    · exact Or.inr ⟨rfl, rfl⟩
  intro i j engine engine' host host' event event' hij hvi hvj hei hej
  refine ⟨rfl, fun _ => ?_⟩
  rcases hreach i engine host event hvi hei with ⟨rfl, hi⟩ | ⟨rfl, hi⟩
  · rcases hreach j engine' host' event' hvj hej with ⟨rfl, hj⟩ | ⟨rfl, hj⟩
    · exact absurd hij (lt_irrefl 0)
    · rw [hi, hj]
      decide
  · rcases hreach j engine' host' event' hvj hej with ⟨rfl, hj⟩ | ⟨rfl, hj⟩
    · exact absurd hij (by decide)
    · exact absurd hij (lt_irrefl 3)

/-- A storm of failures: every one of them is alerted. -/
theorem failure_storm_unlimited :
    Accepted (fun _ => none) [alertingRule 3 true] ∧
      ContributesAt (.new [alertingRule 3 true] "normal" 0) [wifiFailureAt 0, wifiFailureAt 1] 0
        (alertingRule 3 true) (eventAt (.sensorFailure "wifi" "probe failed") 0) ∧
      ContributesAt (.new [alertingRule 3 true] "normal" 0) [wifiFailureAt 0, wifiFailureAt 1] 1
        (alertingRule 3 true) (eventAt (.sensorFailure "wifi" "probe failed") 1) ∧
      ¬ FailurePathLimited (.new [alertingRule 3 true] "normal" 0)
        [wifiFailureAt 0, wifiFailureAt 1] (alertingRule 3 true) := by
  have hfirst : ContributesAt (.new [alertingRule 3 true] "normal" 0)
      [wifiFailureAt 0, wifiFailureAt 1] 0 (alertingRule 3 true)
      (eventAt (.sensorFailure "wifi" "probe failed") 0) :=
    ⟨_, bareHost, ⟨rfl, rfl⟩, rfl, _, _, _, rfl, List.mem_singleton.mpr rfl, by decide, by decide⟩
  have hsecond : ContributesAt (.new [alertingRule 3 true] "normal" 0)
      [wifiFailureAt 0, wifiFailureAt 1] 1 (alertingRule 3 true)
      (eventAt (.sensorFailure "wifi" "probe failed") 1) :=
    ⟨_, bareHost, ⟨rfl, rfl⟩, rfl, _, _, _, rfl, List.mem_singleton.mpr rfl, by decide, by decide⟩
  refine ⟨⟨testConfig _, rfl, rfl⟩, hfirst, hsecond, ?_⟩
  intro hlimited
  have heq := hlimited.once rfl 0 1 _ _ hfirst hsecond
  cases heq

end Kovert
