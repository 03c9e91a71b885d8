import Kovert.Runs

/-!
# Cooldown and once-per-boot on the trigger path

The record of a rule that every reload keeps remembers its firings: `fired_once`
is set by the first one and `last_fired` is the timestamp of the latest. Both
firing sites of `handle` set them, and neither recovery nor a reload clears
them.
-/

namespace Kovert

open Execution

/-- A reload keeps the rule unchanged, in a list with distinct ids. -/
def RetainsRule (rule : Rule) : PolicyEngine → EngineOp → Prop
  | _, .replaceRules rules => DistinctIds rules ∧ rule ∈ rules
  | _, _ => True

theorem RetainsRule.distinctReload {rule : Rule} {engine : PolicyEngine} {op : EngineOp}
    (h : RetainsRule rule engine op) : DistinctReload engine op := by
  cases op with
  | replaceRules rules => exact h.1
  | _ => trivial

theorem step_retains {rule : Rule} {engine engine' : PolicyEngine} {op : EngineOp}
    (hop : RetainsRule rule engine op) (hr : rule ∈ engine.rules)
    (h : engine.step op = some engine') : rule ∈ engine'.rules := by
  cases op with
  | replaceRules rules =>
      cases h
      exact mem_sortRules.mpr hop.2
  | handle host event =>
      obtain ⟨plans, hh⟩ := step_handle h
      rw [(PolicyEngine.handle_frame hh).1]
      exact hr
  | setMode mode =>
      cases h
      exact hr
  | setRecoveryMode enabled =>
      cases h
      exact hr

/-- One operation either fires the rule and marks it, or leaves its marks alone. -/
theorem step_marks {rule : Rule} {engine engine' : PolicyEngine} {op : EngineOp}
    (hop : RetainsRule rule engine op) (hd : DistinctIds engine.rules)
    (hr : rule ∈ engine.rules) (h : engine.step op = some engine') :
    (∃ host event, op = .handle host event ∧ engine.Fires host event rule ∧
        (engine'.ruleRuntime rule.id).lastFired = some event.timestamp ∧
        (engine'.ruleRuntime rule.id).firedOnce = true) ∨
      (∀ host event, op = .handle host event → ¬ engine.Fires host event rule) ∧
        (engine'.ruleRuntime rule.id).lastFired = (engine.ruleRuntime rule.id).lastFired ∧
        (engine'.ruleRuntime rule.id).firedOnce = (engine.ruleRuntime rule.id).firedOnce := by
  cases op with
  | handle host event =>
      obtain ⟨plans, hh⟩ := step_handle h
      cases hrec : engine.recoveryMode with
      | true =>
          rw [PolicyEngine.handle_recovery hrec] at hh
          cases hh
          exact Or.inr ⟨fun _ _ _ => PolicyEngine.not_fires_of_recovery hrec, rfl, rfl⟩
      | false =>
          obtain ⟨outcome, hstep, hfires⟩ := PolicyEngine.handle_ruleStep hd hrec hh hr
          have hmarks := hstep.marks
          by_cases ho : outcome = .fired
          · rw [if_pos ho] at hmarks
            exact Or.inl ⟨host, event, rfl, hfires.mpr ho, hmarks⟩
          · rw [if_neg ho] at hmarks
            refine Or.inr ⟨?_, hmarks⟩
            intro host' event' heq
            cases heq
            exact fun hf => ho (hfires.mp hf)
  | setMode mode =>
      cases h
      exact Or.inr ⟨fun _ _ heq => (by cases heq), rfl, rfl⟩
  | setRecoveryMode enabled =>
      cases h
      refine Or.inr ⟨fun _ _ heq => (by cases heq), ?_⟩
      rw [PolicyEngine.setRecoveryMode_ruleRuntime]
      cases enabled <;> exact ⟨rfl, rfl⟩
  | replaceRules rules =>
      cases h
      refine Or.inr ⟨fun _ _ heq => (by cases heq), ?_⟩
      rw [PolicyEngine.replaceRules_ruleRuntime engine hop.1 hop.2]
      exact ⟨rfl, rfl⟩

/-- The record of the rule remembers the firings of the run so far. -/
structure MarksFirings (start : PolicyEngine) (rule : Rule) (ops : List EngineOp)
    (engine : PolicyEngine) : Prop where
  distinct : DistinctIds engine.rules
  mem : rule ∈ engine.rules
  once : ∀ n event, FiresAt start ops n rule event →
    (engine.ruleRuntime rule.id).firedOnce = true
  latest : ∀ n event, FiresAt start ops n rule event →
    (∀ k event', FiresAt start ops k rule event' → k ≤ n) →
      (engine.ruleRuntime rule.id).lastFired = some event.timestamp

theorem run_marksFirings {start engine : PolicyEngine} {rule : Rule} {ops : List EngineOp}
    (hd : DistinctIds start.rules) (hr : rule ∈ start.rules)
    (hrun : run PolicyEngine.step start ops = some engine)
    (hall : AllSteps PolicyEngine.step (RetainsRule rule) start ops) :
    MarksFirings start rule ops engine := by
  refine run_history (P := MarksFirings start rule) ?_ ?_ hrun hall
  · refine ⟨hd, hr, ?_, ?_⟩
    · intro n event h
      cases h.lt_length
    · intro n event h
      cases h.lt_length
  · intro ops m op t hm _ hop hinv hs
    have hd' := step_distinctIds hop.distinctReload hinv.distinct hs
    have hr' := step_retains hop hinv.mem hs
    rcases step_marks hop hinv.distinct hinv.mem hs with
      ⟨host, event, rfl, hfires, hlast, honce⟩ | ⟨hno, hlast, honce⟩
    · have hnow : FiresAt start (ops ++ [.handle host event]) ops.length rule event :=
        firesAt_snoc.mpr (Or.inr ⟨rfl, m, host, rfl, hm, hfires⟩)
      refine ⟨hd', hr', fun _ _ _ => honce, ?_⟩
      intro n event' h hmax
      rcases firesAt_snoc.mp h with h | ⟨_, _, _, heq, _⟩
      · have hlt := h.lt_length
        have hle := hmax _ _ hnow
        omega
      · cases heq
        exact hlast
    · refine ⟨hd', hr', ?_, ?_⟩
      · intro n event h
        rw [honce]
        exact hinv.once n event (firesAt_snoc_of_not_fires hm hno h)
      · intro n event h hmax
        rw [hlast]
        apply hinv.latest n event (firesAt_snoc_of_not_fires hm hno h)
        intro k event' hk
        exact hmax k event' (firesAt_snoc.mpr (Or.inl hk))

theorem allSteps_retainsRule {start : PolicyEngine} {rule : Rule} {ops : List EngineOp}
    (hops : ∀ rules, EngineOp.replaceRules rules ∈ ops → DistinctIds rules ∧ rule ∈ rules) :
    AllSteps PolicyEngine.step (RetainsRule rule) start ops := by
  intro n m op hv
  cases op with
  | replaceRules rules => exact hops rules (List.mem_of_getElem? hv.1)
  | _ => trivial

/-- At a later firing the record still remembers the earlier ones, and the rule
was not rate-limited by them. -/
theorem firesAt_unlimited {start : PolicyEngine} {rule : Rule} {ops : List EngineOp} {n : ℕ}
    {event : Event} (hd : DistinctIds start.rules) (hr : rule ∈ start.rules)
    (hall : AllSteps PolicyEngine.step (RetainsRule rule) start ops)
    (h : FiresAt start ops n rule event) :
    ∃ engine, MarksFirings start rule (ops.take n) engine ∧
      rateLimited rule (engine.ruleRuntime rule.id) event = false := by
  obtain ⟨engine, host, hv, hf⟩ := h
  have hinv := run_marksFirings hd hr hv.2 (hall.take n)
  exact ⟨engine, hinv, (hf.cases hinv.distinct).1.unlimited⟩

/-- Rate limits on the trigger path, over runs with arbitrary timestamps, mode
changes, recovery toggles and reloads that keep the rule. -/
theorem trigger_path_rate_limits (rules : List Rule) (mode : String) (now : Timestamp)
    (rule : Rule) (ops : List EngineOp) (hd : DistinctIds rules) (hr : rule ∈ rules)
    (hops : ∀ rules', EngineOp.replaceRules rules' ∈ ops → DistinctIds rules' ∧ rule ∈ rules') :
    (rule.oncePerBoot = true → ∀ i j event event',
      FiresAt (.new rules mode now) ops i rule event →
      FiresAt (.new rules mode now) ops j rule event' → i = j) ∧
    (0 < rule.cooldown → ∀ i j event event',
      FiresAt (.new rules mode now) ops i rule event →
      FiresAt (.new rules mode now) ops j rule event' → i < j →
      (∀ k event'', FiresAt (.new rules mode now) ops k rule event'' → k ≤ i ∨ j ≤ k) →
      event.timestamp + rule.cooldown ≤ event'.timestamp) := by
  have hd' := new_distinctIds hd mode now
  have hr' : rule ∈ (PolicyEngine.new rules mode now).rules := mem_sortRules.mpr hr
  have hall : AllSteps PolicyEngine.step (RetainsRule rule) (.new rules mode now) ops :=
    allSteps_retainsRule hops
  constructor
  · intro honce
    have hlt : ∀ i j event event', FiresAt (.new rules mode now) ops i rule event →
        FiresAt (.new rules mode now) ops j rule event' → ¬ i < j := by
      intro i j event event' hi hj hij
      obtain ⟨engine, hinv, hfree⟩ := firesAt_unlimited hd' hr' hall hj
      have hfired := hinv.once i event (hi.take hij)
      simp [rateLimited, honce, hfired] at hfree
    intro i j event event' hi hj
    have hij := hlt i j event event' hi hj
    have hji := hlt j i event' event hj hi
    omega
  · intro hcool i j event event' hi hj hij hbetween
    obtain ⟨engine, hinv, hfree⟩ := firesAt_unlimited hd' hr' hall hj
    have hlast : (engine.ruleRuntime rule.id).lastFired = some event.timestamp := by
      apply hinv.latest i event (hi.take hij)
      intro k event'' hk
      have hkj : k < j := by
        have := hk.lt_length
        rw [List.length_take] at this
        omega
      have := hbetween k event'' hk.of_take
      omega
    have helapsed : rule.cooldown ≤ elapsed event'.timestamp event.timestamp := by
      simp only [rateLimited, hlast, Option.any_some, Bool.or_eq_false_iff,
        decide_eq_false_iff_not, not_lt] at hfree
      exact hfree.2
    exact (le_elapsed_iff hcool).mp helapsed

def cooledRule : Rule := { testRule .tick with cooldown := 3 }

def cooledOps : List EngineOp :=
  [.replaceRules [cooledRule], .handle bareHost (eventAt .tick 0),
    .handle bareHost (eventAt .tick 5)]

theorem trigger_path_rate_limits_cooled :
    FiresAt (.new [cooledRule] "normal" 0) cooledOps 1 cooledRule (eventAt .tick 0) ∧
      FiresAt (.new [cooledRule] "normal" 0) cooledOps 2 cooledRule (eventAt .tick 5) ∧
      (eventAt .tick 0).timestamp + cooledRule.cooldown ≤ (eventAt .tick 5).timestamp := by
  have hfirst : FiresAt (.new [cooledRule] "normal" 0) cooledOps 1 cooledRule (eventAt .tick 0) :=
    ⟨_, bareHost, ⟨rfl, rfl⟩, rfl, _, _, rfl, List.mem_singleton.mpr rfl⟩
  have hlast : FiresAt (.new [cooledRule] "normal" 0) cooledOps 2 cooledRule (eventAt .tick 5) :=
    ⟨_, bareHost, ⟨rfl, rfl⟩, rfl, _, _, rfl, List.mem_singleton.mpr rfl⟩
  refine ⟨hfirst, hlast, ?_⟩
  refine (trigger_path_rate_limits [cooledRule] "normal" 0 cooledRule cooledOps
    (by simp [DistinctIds]) (by simp) ?_).2 (by decide) 1 2 _ _ hfirst hlast (by decide) ?_
  · intro rules hmem
    simp only [cooledOps, List.mem_cons, reduceCtorEq, List.not_mem_nil, or_false,
      EngineOp.replaceRules.injEq] at hmem
    subst hmem
    exact ⟨by simp [DistinctIds], by simp⟩
  · intro k _ _
    omega

end Kovert
