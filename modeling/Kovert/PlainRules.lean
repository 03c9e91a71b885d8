import Kovert.RateLimits
import Mathlib.Tactic.IntervalCases

/-!
# Plain rules

A rule that waits for nothing, with neither a sequence at its root nor a
`sustain_for`, is specified by the history alone: it fires at an event exactly
when it is called for there and its earlier firings permit it. The record that
the engine keeps of the rule is what the specification needs of the past.
-/

namespace Kovert

open Execution

/-- Neither a sequence at the root nor a condition to be sustained. -/
def Plain (rule : Rule) : Prop :=
  rule.sustainFor = 0 ∧ ∀ steps within, rule.trigger ≠ .sequence steps within

/-! ## The specification -/

/-- Whether recovery is on after these operations. -/
def recoveryAfter (ops : List EngineOp) : Bool :=
  ops.foldl (fun recovery op =>
    match op with
    | .setRecoveryMode enabled => enabled
    | _ => recovery) false

/-- The events and modes of these operations, folded into the first snapshot. -/
def snapshotAfter (mode : String) (now : Timestamp) (ops : List EngineOp) : SystemSnapshot :=
  ops.foldl (fun snapshot op =>
    match op with
    | .handle _ event => snapshot.apply event
    | .setMode mode => { snapshot with mode := mode }
    | _ => snapshot) { SystemSnapshot.default now with mode := mode }

/-- The rule is called for by the event at position `n`: its trigger matches and
its condition holds after the event, outside recovery. -/
structure CalledFor (mode : String) (now : Timestamp) (rule : Rule) (ops : List EngineOp) (n : ℕ)
    (host : Host) (event : Event) : Prop where
  handled : ops[n]? = some (.handle host event)
  live : recoveryAfter (ops.take n) = false
  enabled : rule.enabled = true
  undiverted : sensorFailureOutcome rule event = none
  matched : triggerMatches rule.trigger event = true
  held : rule.conditionsMatch host ((snapshotAfter mode now (ops.take n)).apply event) = true

/-- The firings before position `n` permit another one at this event. -/
structure PermittedAt (start : PolicyEngine) (rule : Rule) (ops : List EngineOp) (n : ℕ)
    (event : Event) : Prop where
  once : rule.oncePerBoot = true → ∀ m earlier, m < n → ¬ FiresAt start ops m rule earlier
  cooled : ∀ m earlier, m < n → FiresAt start ops m rule earlier →
    (∀ k other, k < n → FiresAt start ops k rule other → k ≤ m) →
      rule.cooldown ≤ elapsed event.timestamp earlier.timestamp

/-! ## What the engine holds -/

theorem run_view {mode : String} {now : Timestamp} {rules : List Rule} {ops : List EngineOp}
    {engine : PolicyEngine} (hrun : run PolicyEngine.step (.new rules mode now) ops = some engine) :
    engine.recoveryMode = recoveryAfter ops ∧ engine.snapshot = snapshotAfter mode now ops := by
  induction ops using List.reverseRecOn generalizing engine with
  | nil =>
      cases hrun
      exact ⟨rfl, rfl⟩
  | append_singleton ops op ih =>
      obtain ⟨before, hbefore, hs⟩ := (run_snoc_eq_some PolicyEngine.step).mp hrun
      obtain ⟨hrecovery, hsnapshot⟩ := ih hbefore
      rw [recoveryAfter, snapshotAfter, List.foldl_append, List.foldl_append, ← recoveryAfter,
        ← snapshotAfter, ← hrecovery, ← hsnapshot]
      cases op with
      | handle host event =>
          obtain ⟨plans, hh⟩ := step_handle hs
          obtain ⟨_, hrec, hsnap⟩ := PolicyEngine.handle_frame hh
          exact ⟨hrec, hsnap⟩
      | setMode mode =>
          cases hs
          exact ⟨rfl, rfl⟩
      | setRecoveryMode enabled =>
          cases hs
          exact ⟨rfl, rfl⟩
      | replaceRules rules =>
          cases hs
          exact ⟨rfl, rfl⟩

/-- The record of a plain rule says no more than its firings: it is never armed,
and what it remembers has happened. -/
structure PlainRecord (start : PolicyEngine) (rule : Rule) (ops : List EngineOp)
    (engine : PolicyEngine) : Prop extends MarksFirings start rule ops engine where
  unarmed : (engine.ruleRuntime rule.id).armedAt = none
  fired : (engine.ruleRuntime rule.id).firedOnce = true → ∃ n event, FiresAt start ops n rule event
  last : ∀ time, (engine.ruleRuntime rule.id).lastFired = some time →
    ∃ n event, FiresAt start ops n rule event ∧ event.timestamp = time ∧
      ∀ k other, FiresAt start ops k rule other → k ≤ n

theorem RuleStep.unarmed {host : Host} {snapshot : SystemSnapshot} {event : Event} {rule : Rule}
    {runtime next : RuleRuntime} {outcome : RuleOutcome} (hplain : Plain rule)
    (hunarmed : runtime.armedAt = none)
    (h : RuleStep host snapshot event rule runtime next outcome) : next.armedAt = none := by
  cases h with
  | blocked => exact hunarmed
  | disarmed => rfl
  | waiting => exact hunarmed
  | sustained => rfl
  | progressed _ _ htrigger => exact (triggerStep_frame htrigger).2.2.trans hunarmed
  | immediate _ _ htrigger => exact (triggerStep_frame htrigger).2.2.trans hunarmed
  | armed _ _ _ _ hsustain => exact absurd hplain.1 hsustain

theorem step_unarmed {engine next : PolicyEngine} {rule : Rule} {op : EngineOp}
    (hplain : Plain rule) (hop : RetainsRule rule engine op) (hd : DistinctIds engine.rules)
    (hr : rule ∈ engine.rules) (hunarmed : (engine.ruleRuntime rule.id).armedAt = none)
    (hs : engine.step op = some next) : (next.ruleRuntime rule.id).armedAt = none := by
  cases op with
  | handle host event =>
      obtain ⟨plans, hh⟩ := step_handle hs
      cases hrec : engine.recoveryMode with
      | true =>
          rw [PolicyEngine.handle_recovery hrec] at hh
          cases hh
          exact hunarmed
      | false =>
          obtain ⟨outcome, hstep, _⟩ := PolicyEngine.handle_ruleStep hd hrec hh hr
          exact hstep.unarmed hplain hunarmed
  | setMode mode =>
      cases hs
      exact hunarmed
  | setRecoveryMode enabled =>
      cases hs
      rw [PolicyEngine.setRecoveryMode_ruleRuntime]
      cases enabled with
      | true => rfl
      | false => exact hunarmed
  | replaceRules rules =>
      cases hs
      rw [PolicyEngine.replaceRules_ruleRuntime engine hop.1 hop.2]
      exact hunarmed

theorem run_plainRecord {rules : List Rule} {mode : String} {now : Timestamp} {rule : Rule}
    {ops : List EngineOp} {engine : PolicyEngine} (hplain : Plain rule) (hd : DistinctIds rules)
    (hr : rule ∈ rules) (hrun : run PolicyEngine.step (.new rules mode now) ops = some engine)
    (hall : AllSteps PolicyEngine.step (RetainsRule rule) (.new rules mode now) ops) :
    PlainRecord (.new rules mode now) rule ops engine := by
  have hd' := new_distinctIds hd mode now
  have hr' : rule ∈ (PolicyEngine.new rules mode now).rules := mem_sortRules.mpr hr
  refine run_history (P := PlainRecord (.new rules mode now) rule) ?_ ?_ hrun hall
  · have hnone : AllSteps PolicyEngine.step (RetainsRule rule) (.new rules mode now) [] :=
      fun n m op hv => absurd hv.lt_length (Nat.not_lt_zero n)
    refine ⟨run_marksFirings hd' hr' rfl hnone, ?_, ?_, ?_⟩
    · rw [PolicyEngine.new_ruleRuntime]
      rfl
    · rw [PolicyEngine.new_ruleRuntime]
      intro hfired
      cases hfired
    · rw [PolicyEngine.new_ruleRuntime]
      intro time hlast
      cases hlast
  · intro ops m op t hm hall hop hinv hs
    have hrun' : run PolicyEngine.step (.new rules mode now) (ops ++ [op]) = some t :=
      (run_snoc_eq_some PolicyEngine.step).mpr ⟨m, hm, hs⟩
    have hall' : AllSteps PolicyEngine.step (RetainsRule rule) (.new rules mode now)
        (ops ++ [op]) := by
      refine allSteps_snoc.mpr ⟨hall, fun m' hm' => ?_⟩
      cases hm.symm.trans hm'
      exact hop
    refine ⟨run_marksFirings hd' hr' hrun' hall',
      step_unarmed hplain hop hinv.distinct hinv.mem hinv.unarmed hs, ?_, ?_⟩
    · intro hfired
      rcases step_marks hop hinv.distinct hinv.mem hs with
        ⟨host, event, rfl, hfires, _, _⟩ | ⟨_, _, honce⟩
      · exact ⟨ops.length, event, firesAt_snoc.mpr (Or.inr ⟨rfl, m, host, rfl, hm, hfires⟩)⟩
      · obtain ⟨n, event, h⟩ := hinv.fired (honce ▸ hfired)
        exact ⟨n, event, firesAt_snoc.mpr (Or.inl h)⟩
    · intro time hlast
      rcases step_marks hop hinv.distinct hinv.mem hs with
        ⟨host, event, rfl, hfires, hnow, _⟩ | ⟨hno, hkept, _⟩
      · refine ⟨ops.length, event, firesAt_snoc.mpr (Or.inr ⟨rfl, m, host, rfl, hm, hfires⟩),
          Option.some.inj (hnow.symm.trans hlast), ?_⟩
        intro k other h
        have hlt := h.lt_length
        rw [List.length_append, List.length_singleton] at hlt
        omega
      · obtain ⟨n, event, h, htime, hmax⟩ := hinv.last time (hkept ▸ hlast)
        refine ⟨n, event, firesAt_snoc.mpr (Or.inl h), htime, ?_⟩
        exact fun k other hk => hmax k other (firesAt_snoc_of_not_fires hm hno hk)

/-- The rate limit read off the record is the one read off the firings. -/
theorem permittedAt_iff {start engine : PolicyEngine} {rule : Rule} {ops : List EngineOp} {n : ℕ}
    {event : Event} (hn : n ≤ ops.length) (h : PlainRecord start rule (ops.take n) engine) :
    PermittedAt start rule ops n event ↔
      rateLimited rule (engine.ruleRuntime rule.id) event = false := by
  have hbefore : ∀ {k other}, FiresAt start (ops.take n) k rule other →
      k < n ∧ FiresAt start ops k rule other := by
    intro k other hk
    have hlt := hk.lt_length
    rw [List.length_take_of_le hn] at hlt
    exact ⟨hlt, hk.of_take⟩
  have hlimited : rateLimited rule (engine.ruleRuntime rule.id) event = false ↔
      (rule.oncePerBoot = true → (engine.ruleRuntime rule.id).firedOnce = false) ∧
        ∀ time, (engine.ruleRuntime rule.id).lastFired = some time →
          rule.cooldown ≤ elapsed event.timestamp time := by
    rw [rateLimited, Bool.or_eq_false_iff]
    refine and_congr ?_ ?_
    · cases rule.oncePerBoot <;> simp
    · cases (engine.ruleRuntime rule.id).lastFired <;> simp
  rw [hlimited]
  constructor
  · intro hpermitted
    constructor
    · intro honce
      by_contra hfired
      obtain ⟨m, earlier, hm⟩ := h.fired (Bool.eq_true_of_not_eq_false hfired)
      obtain ⟨hlt, hm⟩ := hbefore hm
      exact hpermitted.once honce m earlier hlt hm
    · intro time hlast
      obtain ⟨m, earlier, hm, rfl, hmax⟩ := h.last time hlast
      obtain ⟨hlt, hm⟩ := hbefore hm
      exact hpermitted.cooled m earlier hlt hm fun k other hk hfires =>
        hmax k other (hfires.take hk)
  · rintro ⟨honce, hcooled⟩
    constructor
    · intro hboot m earlier hm hfires
      have hfired := h.once m earlier (hfires.take hm)
      rw [honce hboot] at hfired
      cases hfired
    · intro m earlier hm hfires hmax
      refine hcooled _ (h.latest m earlier (hfires.take hm) fun k other hk => ?_)
      obtain ⟨hlt, hk⟩ := hbefore hk
      exact hmax k other hlt hk

theorem Plain.triggerStep {rule : Rule} (hplain : Plain rule) (runtime : RuleRuntime)
    (event : Event) :
    rule.triggerStep runtime event = some (triggerMatches rule.trigger event, runtime) := by
  unfold Rule.triggerStep
  split
  · next steps within heq => exact absurd heq (hplain.2 steps within)
  · rfl

/-- One call decides like the specification. -/
theorem Plain.fires_iff {engine next : PolicyEngine} {rule : Rule} {host : Host} {event : Event}
    {plans : List ActionPlan} (hplain : Plain rule) (hd : DistinctIds engine.rules)
    (hr : rule ∈ engine.rules) (hunarmed : (engine.ruleRuntime rule.id).armedAt = none)
    (hh : engine.handle host event = some (next, plans)) :
    engine.Fires host event rule ↔ engine.recoveryMode = false ∧
      Active rule (engine.ruleRuntime rule.id) event ∧
      triggerMatches rule.trigger event = true ∧
      rule.conditionsMatch host (engine.snapshot.apply event) = true := by
  constructor
  · intro hfires
    obtain ⟨hactive, hcond, hpath⟩ := hfires.cases hd
    refine ⟨hfires.1, hactive, ?_, hcond⟩
    rcases hpath with ⟨armedAt, harmed, _⟩ | ⟨_, _, after, htrigger⟩
    · rw [hunarmed] at harmed
      cases harmed
    · rw [hplain.triggerStep] at htrigger
      exact congrArg Prod.fst (Option.some.inj htrigger)
  · rintro ⟨hrec, hactive, hmatched, hcond⟩
    obtain ⟨outcome, hstep, hfires⟩ := PolicyEngine.handle_ruleStep hd hrec hh hr
    refine hfires.mpr ?_
    generalize next.ruleRuntime rule.id = after at hstep
    cases hstep with
    | blocked hidle _ => exact absurd hactive hidle
    | disarmed _ harmed _ => exact absurd (hunarmed.symm.trans harmed) (by simp)
    | waiting _ harmed _ _ => exact absurd (hunarmed.symm.trans harmed) (by simp)
    | sustained => rfl
    | immediate => rfl
    | armed _ _ _ _ hsustain => exact absurd hplain.1 hsustain
    | progressed _ _ htrigger hno =>
        rw [hplain.triggerStep, hmatched] at htrigger
        rcases hno with rfl | hfalse
        · cases htrigger
        · rw [hcond] at hfalse
          cases hfalse

/-! ## Runs -/

/-- A plain rule fires exactly at the events that call for it, as often as its
earlier firings permit, in every run that keeps it. -/
theorem plain_rule_fires_iff (rules : List Rule) (mode : String) (now : Timestamp) (rule : Rule)
    (ops : List EngineOp) (final : PolicyEngine) (hplain : Plain rule) (hd : DistinctIds rules)
    (hr : rule ∈ rules)
    (hops : ∀ rules', EngineOp.replaceRules rules' ∈ ops → DistinctIds rules' ∧ rule ∈ rules')
    (hrun : run PolicyEngine.step (.new rules mode now) ops = some final) (n : ℕ) (event : Event) :
    FiresAt (.new rules mode now) ops n rule event ↔
      ∃ host, CalledFor mode now rule ops n host event ∧
        PermittedAt (.new rules mode now) rule ops n event := by
  have hall : AllSteps PolicyEngine.step (RetainsRule rule) (.new rules mode now) ops :=
    allSteps_retainsRule hops
  -- the call at position `n` and what the engine holds there
  have hcall : ∀ host, ops[n]? = some (.handle host event) → ∃ engine next plans,
      Visits PolicyEngine.step (.new rules mode now) ops n engine (.handle host event) ∧
        PlainRecord (.new rules mode now) rule (ops.take n) engine ∧
        engine.handle host event = some (next, plans) := by
    intro host hop
    obtain ⟨reached, hreached⟩ := exists_run_take hrun (n + 1)
    obtain ⟨engine, hv, hs⟩ := (run_take_succ hop).mp hreached
    obtain ⟨plans, hh⟩ := step_handle hs
    exact ⟨engine, reached, plans, hv, run_plainRecord hplain hd hr hv.2 (hall.take n), hh⟩
  constructor
  · rintro ⟨engine, host, hv, hfires⟩
    obtain ⟨engine', next, plans, hv', hrecord, hh⟩ := hcall host hv.1
    cases hv.2.symm.trans hv'.2
    obtain ⟨hrecovery, hsnapshot⟩ := run_view hv.2
    obtain ⟨hlive, hactive, hmatched, hheld⟩ :=
      (hplain.fires_iff hrecord.distinct hrecord.mem hrecord.unarmed hh).mp hfires
    rw [hrecovery] at hlive
    rw [hsnapshot] at hheld
    refine ⟨host, ⟨hv.1, hlive, hactive.enabled, hactive.undiverted, hmatched, hheld⟩, ?_⟩
    exact (permittedAt_iff hv.lt_length.le hrecord).mpr hactive.unlimited
  · rintro ⟨host, hcalled, hpermitted⟩
    obtain ⟨engine, next, plans, hv, hrecord, hh⟩ := hcall host hcalled.handled
    obtain ⟨hrecovery, hsnapshot⟩ := run_view hv.2
    have hactive : Active rule (engine.ruleRuntime rule.id) event :=
      ⟨hcalled.enabled, (permittedAt_iff hv.lt_length.le hrecord).mp hpermitted, hcalled.undiverted⟩
    have hheld := hcalled.held
    rw [← hsnapshot] at hheld
    refine ⟨engine, host, hv, ?_⟩
    exact (hplain.fires_iff hrecord.distinct hrecord.mem hrecord.unarmed hh).mpr
      ⟨hrecovery.trans hcalled.live, hactive, hcalled.matched, hheld⟩

/-- Four events, the third of them during recovery. -/
def cooledVigil : List EngineOp :=
  [.handle bareHost (eventAt .tick 0), .handle bareHost (eventAt .tick 2), .setRecoveryMode true,
    .handle bareHost (eventAt .tick 4), .setRecoveryMode false,
    .handle bareHost (eventAt .tick 6)]

/-- With a cooldown of 3 the second event is too early; the last one fires again. -/
theorem plain_rule_fires_iff_cooled :
    FiresAt (.new [cooledRule] "normal" 0) cooledVigil 0 cooledRule (eventAt .tick 0) ∧
      ¬ FiresAt (.new [cooledRule] "normal" 0) cooledVigil 1 cooledRule (eventAt .tick 2) ∧
      ¬ FiresAt (.new [cooledRule] "normal" 0) cooledVigil 3 cooledRule (eventAt .tick 4) ∧
      FiresAt (.new [cooledRule] "normal" 0) cooledVigil 5 cooledRule (eventAt .tick 6) := by
  obtain ⟨final, hrun⟩ : ∃ final,
      run PolicyEngine.step (.new [cooledRule] "normal" 0) cooledVigil = some final := ⟨_, rfl⟩
  have hplain : Plain cooledRule := ⟨rfl, fun _ _ heq => by cases heq⟩
  have hiff := plain_rule_fires_iff [cooledRule] "normal" 0 cooledRule cooledVigil final hplain
    (by simp [DistinctIds]) (by simp) (fun rules hmem => by simp [cooledVigil] at hmem) hrun
  have hfirst : FiresAt (.new [cooledRule] "normal" 0) cooledVigil 0 cooledRule
      (eventAt .tick 0) := by
    refine (hiff 0 _).mpr ⟨bareHost, ⟨rfl, rfl, rfl, rfl, rfl, rfl⟩, ?_, ?_⟩
    · exact fun _ m _ hm => absurd hm (Nat.not_lt_zero m)
    · exact fun m _ hm => absurd hm (Nat.not_lt_zero m)
  have hsecond : ¬ FiresAt (.new [cooledRule] "normal" 0) cooledVigil 1 cooledRule
      (eventAt .tick 2) := by
    intro hfires
    obtain ⟨host, _, hpermitted⟩ := (hiff 1 _).mp hfires
    have hcooled := hpermitted.cooled 0 _ Nat.one_pos hfirst fun k _ hk _ => Nat.le_of_lt_succ hk
    exact absurd hcooled (by decide)
  have hthird : ¬ FiresAt (.new [cooledRule] "normal" 0) cooledVigil 3 cooledRule
      (eventAt .tick 4) := by
    intro hfires
    obtain ⟨host, hcalled, _⟩ := (hiff 3 _).mp hfires
    cases hcalled.live
  refine ⟨hfirst, hsecond, hthird, (hiff 5 _).mpr ⟨bareHost, ⟨rfl, rfl, rfl, rfl, rfl, rfl⟩, ?_⟩⟩
  constructor
  · intro hboot
    cases hboot
  · intro m earlier hm hfires _
    obtain ⟨_, hcalled, _⟩ := (hiff m earlier).mp hfires
    have hop := hcalled.handled
    interval_cases m
    · cases hop
      decide
    · cases hop
      exact absurd hfires hsecond
    · cases hop
    · cases hop
      exact absurd hfires hthird
    · cases hop

end Kovert
