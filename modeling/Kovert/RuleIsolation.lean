import Kovert.Conflicts
import Kovert.FailClosed
import Kovert.Foundations.TwoRuns

/-!
# Rules do not interfere

Two engines that hold the same rule, among whatever other rules, treat it alike
as long as they agree on the snapshot, the recovery flag and the record of that
rule. The other rules show only in conflict resolution, which drops nothing
that has no conflict key.
-/

namespace Kovert

open Execution

/-- The two engines agree on all that the evaluation of this rule reads. -/
structure AgreeOn (rule : Rule) (left right : PolicyEngine) : Prop where
  distinct_left : DistinctIds left.rules
  distinct_right : DistinctIds right.rules
  mem_left : rule ∈ left.rules
  mem_right : rule ∈ right.rules
  snapshot_eq : left.snapshot = right.snapshot
  recovery_eq : left.recoveryMode = right.recoveryMode
  record_eq : left.ruleRuntime rule.id = right.ruleRuntime rule.id

/-- The candidates that a rule contributes to a call of `handle`; there are none in recovery. -/
def PolicyEngine.contribution (engine : PolicyEngine) (host : Host) (event : Event) (rule : Rule) :
    Option (List ActionPlan) :=
  if engine.recoveryMode then some [] else engine.candidatesOf host event rule

/-- The returned plans of a rule that compete with no other. -/
def keylessPlans (rule : Rule) (plans : List ActionPlan) : List ActionPlan :=
  plans.filter (fun plan => plan.ruleId = rule.id ∧ plan.action.conflictKey.isNone)

/-! ## One call -/

/-- Conflict resolution drops nothing that has no key. -/
theorem keylessPlans_resolveConflicts {rule : Rule} {plans : List ActionPlan}
    (h : plans.Pairwise (fun left right => right.priority ≤ left.priority)) :
    keylessPlans rule (resolveConflicts plans) = keylessPlans rule plans := by
  have hsplit : ∀ list : List ActionPlan, keylessPlans rule list =
      (list.filter (fun plan => plan.action.conflictKey.isNone)).filter
        (fun plan => plan.ruleId = rule.id) := by
    intro list
    rw [keylessPlans, List.filter_filter]
    congr 1
    funext plan
    rw [Bool.decide_and, Bool.decide_eq_true]
  rw [hsplit, hsplit, resolveConflicts_eq h, FirstWins.filter_firstWins_keyless]

theorem candidates_ordered {engine : PolicyEngine} {host : Host} {event : Event}
    {runtime : RuntimeMap} {outcomes : List (Rule × RuleOutcome)} (hd : DistinctIds engine.rules)
    (hout : engine.outcomes host event = some (runtime, outcomes)) :
    (candidates event outcomes).Pairwise
      (fun left right => right.priority ≤ left.priority) := by
  have hfst : outcomes.map Prod.fst = engine.rules := evalRules_map_fst hout
  exact candidates_pairwise_priority
    (rankedCandidates_pairwise (hfst ▸ hd) (hfst ▸ engine.sorted))

/-- What a call returns of a rule: its contribution is read off the rule's own
evaluation, and so are its plans without a conflict key. -/
theorem handle_contribution {engine next : PolicyEngine} {host : Host} {event : Event}
    {plans : List ActionPlan} {rule : Rule} (hd : DistinctIds engine.rules)
    (hr : rule ∈ engine.rules) (hrec : engine.recoveryMode = false)
    (h : engine.handle host event = some (next, plans)) :
    ∃ outcome, evalRule host (engine.snapshot.apply event) event rule
        (engine.ruleRuntime rule.id) = some (next.ruleRuntime rule.id, outcome) ∧
      engine.contribution host event rule = some (outcome.plans rule event) ∧
      keylessPlans rule plans = keylessPlans rule (outcome.plans rule event) := by
  obtain ⟨outcomes, hout, rfl⟩ := PolicyEngine.handle_active hrec h
  obtain ⟨outcome, heval, hown⟩ := candidatesOf_eq hd hout hr
  refine ⟨outcome, heval, ?_, ?_⟩
  · rw [PolicyEngine.contribution, hrec]
    exact hown
  · have hfilter : (candidates event outcomes).filter (fun plan => plan.ruleId = rule.id) =
        outcome.plans rule event := by
      rw [PolicyEngine.candidatesOf, hout] at hown
      exact Option.some.inj hown
    rw [keylessPlans_resolveConflicts (candidates_ordered hd hout), ← hfilter]
    simp only [keylessPlans, List.filter_filter, Bool.decide_and]
    congr 1
    funext plan
    cases decide (plan.ruleId = rule.id) <;> simp

/-- Two calls on engines that agree on the rule treat it alike. -/
theorem AgreeOn.handle {rule : Rule} {left right left' right' : PolicyEngine} {host : Host}
    {event : Event} {plans plans' : List ActionPlan} (h : AgreeOn rule left right)
    (hl : left.handle host event = some (left', plans))
    (hr : right.handle host event = some (right', plans')) :
    AgreeOn rule left' right' ∧
      left.contribution host event rule = right.contribution host event rule ∧
      keylessPlans rule plans = keylessPlans rule plans' := by
  obtain ⟨hlrules, hlrec, hlsnap⟩ := PolicyEngine.handle_frame hl
  obtain ⟨hrrules, hrrec, hrsnap⟩ := PolicyEngine.handle_frame hr
  have hagree : left'.ruleRuntime rule.id = right'.ruleRuntime rule.id →
      AgreeOn rule left' right' := by
    intro hrecord
    exact ⟨hlrules ▸ h.distinct_left, hrrules ▸ h.distinct_right, hlrules ▸ h.mem_left,
      hrrules ▸ h.mem_right, by rw [hlsnap, hrsnap, h.snapshot_eq],
      by rw [hlrec, hrrec, h.recovery_eq], hrecord⟩
  cases hrec : left.recoveryMode with
  | true =>
      have hrec' : right.recoveryMode = true := h.recovery_eq ▸ hrec
      rw [PolicyEngine.handle_recovery hrec] at hl
      rw [PolicyEngine.handle_recovery hrec'] at hr
      cases hl
      cases hr
      refine ⟨hagree h.record_eq, ?_, rfl⟩
      rw [PolicyEngine.contribution, PolicyEngine.contribution, hrec, hrec']
      rfl
  | false =>
      have hrec' : right.recoveryMode = false := h.recovery_eq ▸ hrec
      obtain ⟨outcome, heval, hown, hkeyless⟩ :=
        handle_contribution h.distinct_left h.mem_left hrec hl
      obtain ⟨outcome', heval', hown', hkeyless'⟩ :=
        handle_contribution h.distinct_right h.mem_right hrec' hr
      rw [h.snapshot_eq, h.record_eq, heval'] at heval
      obtain ⟨hrecord, rfl⟩ := Prod.mk.inj (Option.some.inj heval)
      exact ⟨hagree hrecord.symm, hown.trans hown'.symm, hkeyless.trans hkeyless'.symm⟩

theorem AgreeOn.step {rule : Rule} {left right left' right' : PolicyEngine} {op : EngineOp}
    (h : AgreeOn rule left right) (hop : op.KeepsRules) (hl : left.step op = some left')
    (hr : right.step op = some right') : AgreeOn rule left' right' := by
  cases op with
  | handle host event =>
      obtain ⟨plans, hl⟩ := step_handle hl
      obtain ⟨plans', hr⟩ := step_handle hr
      exact (h.handle hl hr).1
  | setMode mode =>
      cases hl
      cases hr
      refine ⟨h.distinct_left, h.distinct_right, h.mem_left, h.mem_right, ?_, h.recovery_eq,
        h.record_eq⟩
      simp only [PolicyEngine.setMode, h.snapshot_eq]
  | setRecoveryMode enabled =>
      cases hl
      cases hr
      refine ⟨h.distinct_left, h.distinct_right, h.mem_left, h.mem_right, h.snapshot_eq, rfl, ?_⟩
      rw [PolicyEngine.setRecoveryMode_ruleRuntime, PolicyEngine.setRecoveryMode_ruleRuntime,
        h.record_eq]
  | replaceRules rules => exact hop.elim

/-! ## Runs -/

/-- After any operations that leave the rules, and at any call that follows
them, the rule has the same record, contributes the same candidates and gets
the same plans without a conflict key. -/
theorem rule_isolation (rule : Rule) (left right left' right' : PolicyEngine)
    (ops : List EngineOp) (hagree : AgreeOn rule left right) (hops : ∀ op ∈ ops, op.KeepsRules)
    (hleft : run PolicyEngine.step left ops = some left')
    (hright : run PolicyEngine.step right ops = some right') :
    left'.ruleRuntime rule.id = right'.ruleRuntime rule.id ∧
      ∀ host event leftNext rightNext plans plans',
        left'.handle host event = some (leftNext, plans) →
        right'.handle host event = some (rightNext, plans') →
        left'.contribution host event rule = right'.contribution host event rule ∧
          keylessPlans rule plans = keylessPlans rule plans' := by
  have hlabels : List.Forall₂ (fun op op' => op = op' ∧ EngineOp.KeepsRules op) ops ops :=
    List.forall₂_same.mpr fun op hop => ⟨rfl, hops op hop⟩
  have hfinal : AgreeOn rule left' right' := by
    refine run_related (R := AgreeOn rule) ?_ hlabels hagree hleft hright
    rintro s t op _ s' t' h ⟨rfl, hop⟩ hs ht
    exact h.step hop hs ht
  refine ⟨hfinal.record_eq, ?_⟩
  intro host event leftNext rightNext plans plans' hl hr
  exact (hfinal.handle hl hr).2

def lockdownOps : List EngineOp := [.handle bareHost (eventAt .tick 0), .setMode "b"]

/-- The number of plans that a call after `lockdownOps` returns. -/
def lockdownPlans (engine : PolicyEngine) : Option ℕ :=
  ((run PolicyEngine.step engine lockdownOps).bind
    (fun next => next.handle bareHost (eventAt .tick 1))).map (fun result => result.2.length)

/-- The rule alone, and the same rule behind two stronger ones. -/
theorem rule_isolation_lockdown : ∃ left' right' leftNext rightNext plans plans',
    run PolicyEngine.step (.new [lockdownRule "c" 5 true] "normal" 0) lockdownOps = some left' ∧
    run PolicyEngine.step lockdownEngine lockdownOps = some right' ∧
    left'.handle bareHost (eventAt .tick 1) = some (leftNext, plans) ∧
    right'.handle bareHost (eventAt .tick 1) = some (rightNext, plans') ∧
    plans.length = 3 ∧ plans'.length = 5 ∧
    left'.ruleRuntime "c" = right'.ruleRuntime "c" ∧
    keylessPlans (lockdownRule "c" 5 true) plans =
      keylessPlans (lockdownRule "c" 5 true) plans' := by
  have hagree : AgreeOn (lockdownRule "c" 5 true) (.new [lockdownRule "c" 5 true] "normal" 0)
      lockdownEngine := by
    refine ⟨new_distinctIds (by simp [DistinctIds]) _ _,
      new_distinctIds (by simp [DistinctIds, lockdownRule]) _ _,
      mem_sortRules.mpr (by simp), mem_sortRules.mpr (by simp), rfl, rfl, ?_⟩
    rw [lockdownEngine, PolicyEngine.new_ruleRuntime, PolicyEngine.new_ruleRuntime]
  have hops : ∀ op ∈ lockdownOps, op.KeepsRules := by
    intro op hop
    obtain rfl | rfl : op = _ ∨ op = _ := by simpa [lockdownOps] using hop
    · trivial
    · trivial
  have hleft : lockdownPlans (.new [lockdownRule "c" 5 true] "normal" 0) = some 3 := by
    decide +kernel
  have hright : lockdownPlans lockdownEngine = some 5 := by decide +kernel
  obtain ⟨⟨leftNext, plans⟩, hl, hthree⟩ := Option.map_eq_some_iff.mp hleft
  obtain ⟨left', hrun, hl⟩ := Option.bind_eq_some_iff.mp hl
  obtain ⟨⟨rightNext, plans'⟩, hr, hfive⟩ := Option.map_eq_some_iff.mp hright
  obtain ⟨right', hrun', hr⟩ := Option.bind_eq_some_iff.mp hr
  obtain ⟨hrecord, hplans⟩ := rule_isolation _ _ _ _ _ _ hagree hops hrun hrun'
  exact ⟨left', right', leftNext, rightNext, plans, plans', hrun, hrun', hl, hr, hthree, hfive,
    hrecord, (hplans _ _ _ _ _ _ hl hr).2⟩

end Kovert
