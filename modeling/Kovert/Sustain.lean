import Kovert.Runs

/-!
# Sustained conditions

A rule with a positive `sustain_for` is armed by a match of its trigger and
fires later from the armed state. Along runs with fixed rules and nondecreasing
timestamps the condition has held at every event since the arming one, provided
no failure of a sensor the trigger uses is handled while the rule is armed and
its condition is false: the sensor-failure branch leaves the loop body before
the condition is looked at.
-/

namespace Kovert

open Execution

/-- The root trigger matches in this state; a sequence matches when it completes. -/
def TriggerMatched (engine : PolicyEngine) (event : Event) (rule : Rule) : Prop :=
  ∃ next, rule.triggerStep (engine.ruleRuntime rule.id) event = some (true, next)

/-- The condition holds in the snapshot after every event handled in positions
`i` to `n`. -/
def HeldBetween (start : PolicyEngine) (ops : List EngineOp) (rule : Rule) (i n : ℕ) : Prop :=
  ∀ k engine host event, i ≤ k → k ≤ n →
    Visits PolicyEngine.step start ops k engine (.handle host event) →
      rule.conditionsMatch host (engine.snapshot.apply event) = true

/-- No failure of a sensor the trigger uses is handled while the rule is armed
and its condition is false. -/
def FailureSparesArmed (rule : Rule) : PolicyEngine → EngineOp → Prop
  | engine, .handle host event =>
      (engine.ruleRuntime rule.id).armedAt ≠ none → sensorFailureOutcome rule event ≠ none →
        rule.conditionsMatch host (engine.snapshot.apply event) = true
  | _, _ => True

/-- The rule was armed at position `i` with timestamp `armedAt`, and its
condition has held since. -/
structure ArmedSince (start : PolicyEngine) (ops : List EngineOp) (rule : Rule)
    (armedAt : Timestamp) (i : ℕ) : Prop where
  armed : ∃ engine host event, Visits PolicyEngine.step start ops i engine (.handle host event) ∧
    engine.recoveryMode = false ∧ TriggerMatched engine event rule ∧ event.timestamp = armedAt
  held : HeldBetween start ops rule i ops.length

/-- Marks that do not rate-limit an event at `time`, nor any later one. -/
def UnlimitedFrom (rule : Rule) (runtime : RuleRuntime) (time : Timestamp) : Prop :=
  (rule.oncePerBoot && runtime.firedOnce) = false ∧
    ∀ last, runtime.lastFired = some last → rule.cooldown ≤ elapsed time last

structure ArmedExplained (start : PolicyEngine) (rule : Rule) (ops : List EngineOp)
    (engine : PolicyEngine) : Prop where
  distinct : DistinctIds engine.rules
  mem : rule ∈ engine.rules
  recovery : engine.recoveryMode = true → (engine.ruleRuntime rule.id).armedAt = none
  since : ∀ armedAt, (engine.ruleRuntime rule.id).armedAt = some armedAt →
    rule.enabled = true ∧ UnlimitedFrom rule (engine.ruleRuntime rule.id) armedAt ∧
      ∃ i, ArmedSince start ops rule armedAt i

theorem HeldBetween.snoc {start : PolicyEngine} {ops : List EngineOp} {rule : Rule} {i : ℕ}
    {op : EngineOp} (h : HeldBetween start ops rule i ops.length)
    (hlast : ∀ engine host event, op = .handle host event →
      run PolicyEngine.step start ops = some engine →
        rule.conditionsMatch host (engine.snapshot.apply event) = true) :
    HeldBetween start (ops ++ [op]) rule i (ops ++ [op]).length := by
  intro k engine host event hik _ hv
  rcases visits_snoc.mp hv with hv | ⟨rfl, hop, hrun⟩
  · exact h k engine host event hik hv.lt_length.le hv
  · exact hlast engine host event hop hrun

theorem ArmedSince.snoc {start : PolicyEngine} {ops : List EngineOp} {rule : Rule}
    {armedAt : Timestamp} {i : ℕ} {op : EngineOp} (h : ArmedSince start ops rule armedAt i)
    (hlast : ∀ engine host event, op = .handle host event →
      run PolicyEngine.step start ops = some engine →
        rule.conditionsMatch host (engine.snapshot.apply event) = true) :
    ArmedSince start (ops ++ [op]) rule armedAt i := by
  obtain ⟨engine, host, event, hv, hmatch⟩ := h.armed
  exact ⟨⟨engine, host, event, visits_snoc.mpr (Or.inl hv), hmatch⟩, h.held.snoc hlast⟩

theorem elapsed_mono {later time earlier : Timestamp} (h : time ≤ later) :
    elapsed time earlier ≤ elapsed later earlier := by
  have hsub : time - earlier ≤ later - earlier := sub_le_sub_right h earlier
  exact Int.toNat_le_toNat hsub

theorem UnlimitedFrom.rateLimited_eq_false {rule : Rule} {runtime : RuleRuntime}
    {time : Timestamp} {event : Event} (h : UnlimitedFrom rule runtime time)
    (hle : time ≤ event.timestamp) : rateLimited rule runtime event = false := by
  rw [rateLimited, h.1, Bool.false_or, Option.any_eq_false]
  intro last hlast
  have hcool := (h.2 last hlast).trans (elapsed_mono hle)
  simpa using hcool

theorem unlimitedFrom_of_active {rule : Rule} {runtime : RuleRuntime} {event : Event}
    (h : Active rule runtime event) : UnlimitedFrom rule runtime event.timestamp := by
  have hfree := h.unlimited
  rw [rateLimited, Bool.or_eq_false_iff, Option.any_eq_false] at hfree
  refine ⟨hfree.1, ?_⟩
  intro last hlast
  simpa using hfree.2 last hlast

/-- The condition at the last event of a run, as the engine before it sees it. -/
theorem conditionsMatch_last {start engine : PolicyEngine} {ops : List EngineOp} {rule : Rule}
    {host : Host} {event : Event} (hrun : run PolicyEngine.step start ops = some engine)
    (hcond : rule.conditionsMatch host (engine.snapshot.apply event) = true) :
    ∀ engine₁ host₁ event₁, EngineOp.handle host event = .handle host₁ event₁ →
      run PolicyEngine.step start ops = some engine₁ →
        rule.conditionsMatch host₁ (engine₁.snapshot.apply event₁) = true := by
  intro engine₁ host₁ event₁ hop hrun₁
  cases hop
  cases hrun.symm.trans hrun₁
  exact hcond

/-- One evaluated event keeps an armed rule explained. -/
theorem ruleStep_armed {start engine engine' : PolicyEngine} {ops : List EngineOp} {rule : Rule}
    {host : Host} {event : Event} {outcome : RuleOutcome}
    (hrun : run PolicyEngine.step start ops = some engine)
    (hrec : engine.recoveryMode = false)
    (htime : Nondecreasing (ops ++ [.handle host event]))
    (hspare : FailureSparesArmed rule engine (.handle host event))
    (hinv : ArmedExplained start rule ops engine)
    (hstep : RuleStep host (engine.snapshot.apply event) event rule
      (engine.ruleRuntime rule.id) (engine'.ruleRuntime rule.id) outcome)
    {armedAt : Timestamp} (harmed : (engine'.ruleRuntime rule.id).armedAt = some armedAt) :
    rule.enabled = true ∧ UnlimitedFrom rule (engine'.ruleRuntime rule.id) armedAt ∧
      ∃ i, ArmedSince start (ops ++ [.handle host event]) rule armedAt i := by
  generalize hnext : engine'.ruleRuntime rule.id = next at hstep harmed ⊢
  cases hstep with
  | blocked hidle hne =>
      obtain ⟨henabled, hfree, i, hsince⟩ := hinv.since armedAt harmed
      refine ⟨henabled, hfree, i, hsince.snoc (conditionsMatch_last hrun ?_)⟩
      obtain ⟨_, _, event₀, hv, _, _, rfl⟩ := hsince.armed
      have hunlimited := hfree.rateLimited_eq_false (htime.timestamp_le hv.1)
      apply hspare
      · simp [harmed]
      · intro hdiverted
        exact hidle ⟨henabled, hunlimited, hdiverted⟩
  | disarmed => cases harmed
  | waiting hactive hbefore hcond =>
      obtain ⟨henabled, hfree, i, hsince⟩ := hinv.since armedAt harmed
      exact ⟨henabled, hfree, i, hsince.snoc (conditionsMatch_last hrun hcond)⟩
  | sustained => cases harmed
  | progressed hactive hunarmed htrigger =>
      rw [(triggerStep_frame htrigger).2.2, hunarmed] at harmed
      cases harmed
  | immediate hactive hunarmed htrigger =>
      have hframe : _ = some armedAt := harmed
      simp only [RuleRuntime.markFired, (triggerStep_frame htrigger).2.2, hunarmed] at hframe
      cases hframe
  | armed hactive hunarmed htrigger hcond =>
      have hstamp : event.timestamp = armedAt := Option.some.inj harmed
      obtain ⟨hlast, honce, _⟩ := triggerStep_frame htrigger
      refine ⟨hactive.enabled, ?_, ops.length, ?_, ?_⟩
      · have hfree := unlimitedFrom_of_active hactive
        rw [hstamp] at hfree
        exact ⟨by rw [honce]; exact hfree.1, fun last h => hfree.2 last (hlast ▸ h)⟩
      · exact ⟨engine, host, event, visits_snoc_last.mpr ⟨rfl, hrun⟩, hrec, ⟨_, htrigger⟩, hstamp⟩
      · intro k engine₁ host₁ event₁ hk _ hv
        rcases visits_snoc.mp hv with hv | ⟨_, hop, hrun₁⟩
        · have hlt := hv.lt_length
          omega
        · exact conditionsMatch_last hrun hcond engine₁ host₁ event₁ hop hrun₁

/-- A rule that is not armed has nothing to explain. -/
theorem armedExplained_of_unarmed {start engine : PolicyEngine} {rule : Rule}
    {ops : List EngineOp} (hd : DistinctIds engine.rules) (hr : rule ∈ engine.rules)
    (hnone : (engine.ruleRuntime rule.id).armedAt = none) :
    ArmedExplained start rule ops engine := by
  refine ⟨hd, hr, fun _ => hnone, ?_⟩
  intro armedAt harmed
  rw [hnone] at harmed
  cases harmed

/-- An operation without an event that leaves the rule's record. -/
theorem ArmedExplained.quiet {start engine engine' : PolicyEngine} {rule : Rule}
    {ops : List EngineOp} {op : EngineOp} (hinv : ArmedExplained start rule ops engine)
    (hop : ∀ host event, op ≠ .handle host event) (hrules : engine'.rules = engine.rules)
    (hruntime : engine'.ruleRuntime rule.id = engine.ruleRuntime rule.id)
    (hrecovery : engine'.recoveryMode = true → engine.recoveryMode = true) :
    ArmedExplained start rule (ops ++ [op]) engine' := by
  refine ⟨hrules ▸ hinv.distinct, hrules ▸ hinv.mem, ?_, ?_⟩
  · intro hrec
    rw [hruntime]
    exact hinv.recovery (hrecovery hrec)
  · intro armedAt harmed
    rw [hruntime] at harmed ⊢
    obtain ⟨henabled, hfree, i, hsince⟩ := hinv.since armedAt harmed
    -- there is no event at which the condition could be asked
    exact ⟨henabled, hfree, i,
      hsince.snoc fun _ host event heq _ => absurd heq (hop host event)⟩

theorem step_armedExplained {start engine engine' : PolicyEngine} {rule : Rule}
    {ops : List EngineOp} {op : EngineOp} (hrun : run PolicyEngine.step start ops = some engine)
    (hkeep : op.KeepsRules) (htime : Nondecreasing (ops ++ [op]))
    (hspare : FailureSparesArmed rule engine op) (hinv : ArmedExplained start rule ops engine)
    (hs : engine.step op = some engine') : ArmedExplained start rule (ops ++ [op]) engine' := by
  have hrules := step_rules hkeep hs
  have hd : DistinctIds engine'.rules := hrules ▸ hinv.distinct
  have hr : rule ∈ engine'.rules := hrules ▸ hinv.mem
  cases op with
  | handle host event =>
      obtain ⟨plans, hh⟩ := step_handle hs
      cases hrec : engine.recoveryMode with
      | true =>
          have hnone := hinv.recovery hrec
          rw [PolicyEngine.handle_recovery hrec] at hh
          cases hh
          exact armedExplained_of_unarmed hd hr hnone
      | false =>
          obtain ⟨outcome, hstep, _⟩ :=
            PolicyEngine.handle_ruleStep hinv.distinct hrec hh hinv.mem
          refine ⟨hd, hr, ?_, fun armedAt harmed =>
            ruleStep_armed hrun hrec htime hspare hinv hstep harmed⟩
          intro hrec'
          rw [(PolicyEngine.handle_frame hh).2.1, hrec] at hrec'
          cases hrec'
  | setMode mode =>
      cases hs
      exact hinv.quiet (fun _ _ => by simp) rfl rfl fun hrec => hrec
  | setRecoveryMode enabled =>
      cases hs
      cases enabled with
      | true =>
          apply armedExplained_of_unarmed hd hr
          rw [PolicyEngine.setRecoveryMode_ruleRuntime]
          rfl
      | false => exact hinv.quiet (fun _ _ => by simp) rfl rfl fun hrec => by cases hrec
  | replaceRules rules => exact hkeep.elim

theorem run_armedExplained {start engine : PolicyEngine} {rule : Rule} {ops : List EngineOp}
    (hd : DistinctIds start.rules) (hr : rule ∈ start.rules)
    (hfresh : start.ruleRuntime rule.id = .default)
    (hrun : run PolicyEngine.step start ops = some engine)
    (hops : ∀ op ∈ ops, op.KeepsRules) (htime : Nondecreasing ops)
    (hall : AllSteps PolicyEngine.step (FailureSparesArmed rule) start ops) :
    ArmedExplained start rule ops engine := by
  have hboth : AllSteps PolicyEngine.step
      (fun engine op => op.KeepsRules ∧ FailureSparesArmed rule engine op) start ops :=
    fun n m op hv => ⟨allSteps_of_forall_mem hops n m op hv, hall n m op hv⟩
  refine run_history (P := fun ops engine => Nondecreasing ops →
    ArmedExplained start rule ops engine) ?_ ?_ hrun hboth htime
  · intro _
    exact armedExplained_of_unarmed hd hr (by rw [hfresh]; rfl)
  · rintro ops m op t hm _ ⟨hkeep, hspare⟩ hinv hs htime
    exact step_armedExplained hm hkeep htime hspare (hinv htime.of_append) hs

/-- A sustained rule fires only after its condition has held at every event
since the arming one, for at least `sustain_for`. -/
theorem sustained_condition_held (rules : List Rule) (mode : String) (now : Timestamp)
    (rule : Rule) (ops : List EngineOp) (hd : DistinctIds rules) (hr : rule ∈ rules)
    (hops : ∀ op ∈ ops, op.KeepsRules) (htime : Nondecreasing ops)
    (hspare : AllSteps PolicyEngine.step (FailureSparesArmed rule) (.new rules mode now) ops)
    (hsustain : 0 < rule.sustainFor) (n : ℕ) (event : Event)
    (hfires : FiresAt (.new rules mode now) ops n rule event) :
    ∃ i < n, ∃ engine host arming,
      Visits PolicyEngine.step (.new rules mode now) ops i engine (.handle host arming) ∧
      engine.recoveryMode = false ∧ TriggerMatched engine arming rule ∧
      arming.timestamp + rule.sustainFor ≤ event.timestamp ∧
      HeldBetween (.new rules mode now) ops rule i n := by
  obtain ⟨engine, host, hv, hf⟩ := hfires
  have hinv := run_armedExplained (new_distinctIds hd mode now) (mem_sortRules.mpr hr)
    (PolicyEngine.new_ruleRuntime rules mode now rule.id) hv.2
    (fun op hop => hops op (List.mem_of_mem_take hop)) (htime.take n) (hspare.take n)
  obtain ⟨_, hcond, ⟨armedAt, harmed, helapsed⟩ | ⟨_, hzero, _⟩⟩ := hf.cases hinv.distinct
  · obtain ⟨_, _, i, hsince⟩ := hinv.since armedAt harmed
    obtain ⟨engine₀, host₀, arming, hv₀, hrec₀, hmatch, rfl⟩ := hsince.armed
    have hin : i < n := by
      have hlt := hv₀.lt_length
      rw [List.length_take] at hlt
      omega
    refine ⟨i, hin, engine₀, host₀, arming, hv₀.of_take, hrec₀, hmatch,
      (le_elapsed_iff hsustain).mp helapsed, ?_⟩
    intro k engine₁ host₁ event₁ hik hkn hv₁
    rcases Nat.lt_or_ge k n with hlt | hge
    · have hvk := hv₁.take hlt
      exact hsince.held k engine₁ host₁ event₁ hik hvk.lt_length.le hvk
    · obtain rfl : k = n := by omega
      have hop := Option.some.inj (hv₁.1.symm.trans hv.1)
      have hm := Option.some.inj (hv₁.2.symm.trans hv.2)
      cases hop
      cases hm
      exact hcond
  · exact absurd hzero hsustain.ne'

/-! ## A sensor failure hides a broken condition -/

def wifiEvent (kind : EventKind) (second : ℤ) : Event :=
  { eventAt kind second with source := "wifi" }

/-- Armed by a Wi-Fi change, to fire when the Wi-Fi sensor has stayed healthy for ten seconds. -/
def healthyWifiRule : Rule :=
  { testRule (.wifiChanged none none none) with
    sustainFor := 10
    onSensorFailure := .alert
    when := some (.sensorHealthy "wifi" true) }

def wifiOps : List EngineOp :=
  [.handle bareHost (wifiEvent (.wifi true none none) 0), .setMode "travel",
    .handle bareHost (wifiEvent (.wifi false none none) 12)]

theorem sustained_condition_held_wifi :
    FiresAt (.new [healthyWifiRule] "normal" 0) wifiOps 2 healthyWifiRule
        (wifiEvent (.wifi false none none) 12) ∧
      ∃ i < 2, ∃ engine host arming,
        Visits PolicyEngine.step (.new [healthyWifiRule] "normal" 0) wifiOps i engine
          (.handle host arming) ∧
        engine.recoveryMode = false ∧ TriggerMatched engine arming healthyWifiRule ∧
        arming.timestamp + healthyWifiRule.sustainFor ≤
          (wifiEvent (.wifi false none none) 12).timestamp ∧
        HeldBetween (.new [healthyWifiRule] "normal" 0) wifiOps healthyWifiRule i 2 := by
  have hfires : FiresAt (.new [healthyWifiRule] "normal" 0) wifiOps 2 healthyWifiRule
      (wifiEvent (.wifi false none none) 12) :=
    ⟨_, bareHost, ⟨rfl, rfl⟩, rfl, _, _, rfl, List.mem_singleton.mpr rfl⟩
  refine ⟨hfires, ?_⟩
  apply sustained_condition_held [healthyWifiRule] "normal" 0 healthyWifiRule wifiOps
    (by simp [DistinctIds]) (by simp) ?_ (by unfold Nondecreasing; decide) ?_ (by decide) 2 _ hfires
  · intro op hop
    simp only [wifiOps, List.mem_cons, List.not_mem_nil, or_false] at hop
    rcases hop with rfl | rfl | rfl <;> trivial
  · rintro (_ | _ | _ | n) m op ⟨hop, _⟩
    · cases hop
      exact fun _ hfailure => absurd rfl hfailure
    · cases hop
      trivial
    · cases hop
      exact fun _ hfailure => absurd rfl hfailure
    · cases hop

def failingWifiOps : List EngineOp :=
  [.handle bareHost (wifiEvent (.wifi true none none) 0),
    .handle bareHost (wifiEvent (.sensorFailure "wifi" "timeout") 5),
    .handle bareHost (wifiEvent (.wifi false none none) 12)]

/-- The Wi-Fi sensor fails at second 5 and recovers at second 12. The rule only
raises its alert at the failure, stays armed, and fires at second 12 although
its condition was false in between. -/
theorem sensor_failure_keeps_rule_armed :
    DistinctIds [healthyWifiRule] ∧ Nondecreasing failingWifiOps ∧
      FiresAt (.new [healthyWifiRule] "normal" 0) failingWifiOps 2 healthyWifiRule
        (wifiEvent (.wifi false none none) 12) ∧
      ¬ ∃ i < 2, HeldBetween (.new [healthyWifiRule] "normal" 0) failingWifiOps healthyWifiRule
        i 2 := by
  refine ⟨by simp [DistinctIds], by unfold Nondecreasing; decide,
    ⟨_, bareHost, ⟨rfl, rfl⟩, rfl, _, _, rfl, List.mem_singleton.mpr rfl⟩, ?_⟩
  rintro ⟨i, hi, hheld⟩
  have hbroken := hheld 1 _ bareHost (wifiEvent (.sensorFailure "wifi" "timeout") 5) (by omega)
    (by omega) ⟨rfl, rfl⟩
  revert hbroken
  decide

end Kovert
