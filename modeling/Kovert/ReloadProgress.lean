import Kovert.Recovery

/-!
# Progress across a reload

A reload carries the record of every rule id that stays, whatever becomes of
the rule. When it changes the trigger, the condition or the sustain time only
of ids without progress, every later firing rests on events handled after it.
The condition of an armed rule is checked at every event at which the rule is
evaluated, so it must also hold at the events at which the rule is passed over.
-/

namespace Kovert

open Execution

/-- The same trigger, condition and sustain time. -/
def Rule.SameWatch (rule old : Rule) : Prop :=
  rule.trigger = old.trigger ∧ rule.when = old.when ∧ rule.sustainFor = old.sustainFor

/-- The operation at position `r` is a reload that keeps `id` and changes what
its rule watches for. -/
def RedefinedAt (start : PolicyEngine) (ops : List EngineOp) (r : ℕ) (id : String) : Prop :=
  ∃ engine rules, Visits PolicyEngine.step start ops r engine (.replaceRules rules) ∧
    ∃ old ∈ engine.rules, ∃ rule ∈ rules, old.id = id ∧ rule.id = id ∧ ¬ rule.SameWatch old

/-- A reload redefines `id` only while it has no progress, and no event passes
over its rule while the rule is armed and its condition is false. -/
def FreshStep (id : String) : PolicyEngine → EngineOp → Prop
  | engine, .replaceRules rules => ∀ old ∈ engine.rules, ∀ rule ∈ rules, old.id = id →
      rule.id = id → ¬ rule.SameWatch old → (engine.ruleRuntime id).Idle
  | engine, .handle host event => ∀ rule ∈ engine.rules, rule.id = id →
      (engine.ruleRuntime id).armedAt ≠ none → ¬ Active rule (engine.ruleRuntime id) event →
        rule.conditionsMatch host (engine.snapshot.apply event) = true
  | _, _ => True

/-- The event handled at position `i` matches the trigger, with all the steps of
a sequence matched by events after position `r`. -/
def MatchedAfter (start : PolicyEngine) (ops : List EngineOp) (rule : Rule) (r i : ℕ) : Prop :=
  ∃ engine host event, Visits PolicyEngine.step start ops i engine (.handle host event) ∧
    TriggerMatched engine event rule ∧
    ∀ steps within, rule.trigger = .sequence steps within →
      ∃ used, FullMatch ops steps within i event used ∧ ∀ j ∈ used, r < j

/-- All the progress in the record comes from events after position `r`. -/
structure FreshProgress (start : PolicyEngine) (ops : List EngineOp) (rule : Rule) (r : ℕ)
    (runtime : RuleRuntime) : Prop where
  counted : ∀ steps within, rule.trigger = .sequence steps within →
    ∃ used, PartialMatch ops steps runtime used ∧ ∀ j ∈ used, r < j
  armed : runtime.armedAt ≠ none →
    ∃ i, r < i ∧ MatchedAfter start ops rule r i ∧ HeldBetween start ops rule i ops.length

theorem RuleRuntime.Idle.fresh {runtime : RuleRuntime} (h : runtime.Idle) (start : PolicyEngine)
    (ops : List EngineOp) (rule : Rule) (r : ℕ) : FreshProgress start ops rule r runtime := by
  refine ⟨?_, fun harmed => absurd h.1 harmed⟩
  intro steps within _
  exact ⟨[], partialMatch_nil ops steps h.2, fun j hj => (by cases hj)⟩

theorem MatchedAfter.lt_length {start : PolicyEngine} {ops : List EngineOp} {rule : Rule}
    {r i : ℕ} (h : MatchedAfter start ops rule r i) : i < ops.length := by
  obtain ⟨_, _, _, hv, _⟩ := h
  exact hv.lt_length

theorem MatchedAfter.append {start : PolicyEngine} {ops : List EngineOp} {rule : Rule} {r i : ℕ}
    (h : MatchedAfter start ops rule r i) (rest : List EngineOp) :
    MatchedAfter start (ops ++ rest) rule r i := by
  have hlt := h.lt_length
  obtain ⟨engine, host, event, hv, hmatch, hfull⟩ := h
  refine ⟨engine, host, event, (visits_append_left rest hlt).mpr hv, hmatch, ?_⟩
  intro steps within ht
  obtain ⟨used, hused, hafter⟩ := hfull steps within ht
  exact ⟨used, hused.append hlt rest, hafter⟩

/-- The operation keeps the record, and if it handles an event then the
condition of an armed rule holds there. -/
theorem FreshProgress.snoc {start : PolicyEngine} {ops : List EngineOp} {rule : Rule} {r : ℕ}
    {runtime : RuleRuntime} {op : EngineOp} (h : FreshProgress start ops rule r runtime)
    (hlast : runtime.armedAt ≠ none → ∀ engine host event, op = .handle host event →
      run PolicyEngine.step start ops = some engine →
        rule.conditionsMatch host (engine.snapshot.apply event) = true) :
    FreshProgress start (ops ++ [op]) rule r runtime := by
  constructor
  · intro steps within ht
    obtain ⟨used, hused, hafter⟩ := h.counted steps within ht
    exact ⟨used, hused.append _, hafter⟩
  · intro harmed
    obtain ⟨i, hi, hmatch, hheld⟩ := h.armed harmed
    exact ⟨i, hi, hmatch.append _, hheld.snoc (hlast harmed)⟩

/-- A reload may change everything but what the rule watches for. -/
theorem FreshProgress.congr {start : PolicyEngine} {ops : List EngineOp} {rule rule' : Rule}
    {r : ℕ} {runtime : RuleRuntime} (h : FreshProgress start ops rule r runtime)
    (hid : rule'.id = rule.id) (hsame : rule'.SameWatch rule) :
    FreshProgress start ops rule' r runtime := by
  obtain ⟨ht, hwhen, _⟩ := hsame
  refine ⟨ht ▸ h.counted, ?_⟩
  intro harmed
  obtain ⟨i, hi, ⟨engine, host, event, hv, ⟨next, hmatch⟩, hfull⟩, hheld⟩ := h.armed harmed
  refine ⟨i, hi, ⟨engine, host, event, hv, ⟨next, ?_⟩, ht ▸ hfull⟩, ?_⟩
  · rw [triggerStep_congr ht, hid]
    exact hmatch
  · intro k engine' host' event' hik hk hv'
    have hcond := hheld k engine' host' event' hik hk hv'
    rwa [Rule.conditionsMatch, hwhen]

theorem FreshProgress.triggerStep {start : PolicyEngine} {ops : List EngineOp} {rule : Rule}
    {r : ℕ} {runtime next : RuleRuntime} {event : Event} {matched : Bool}
    (h : FreshProgress start ops rule r runtime) (hr : r < ops.length) (host : Host)
    (hstep : rule.triggerStep runtime event = some (matched, next)) :
    (∀ steps within, rule.trigger = .sequence steps within →
        ∃ used, PartialMatch (ops ++ [.handle host event]) steps next used ∧ ∀ j ∈ used, r < j) ∧
      (matched = true → ∀ steps within, rule.trigger = .sequence steps within →
        ∃ used, FullMatch (ops ++ [.handle host event]) steps within ops.length event used ∧
          ∀ j ∈ used, r < j) := by
  have hlate : ∀ {used : List ℕ}, (∀ j ∈ used, r < j) → ∀ j, j ∈ used ∨ j = ops.length → r < j := by
    rintro used hafter j (hj | rfl)
    · exact hafter j hj
    · exact hr
  constructor
  · intro steps within ht
    obtain ⟨used, hused, hafter⟩ := h.counted steps within ht
    obtain ⟨used', hused', hin, _⟩ := triggerStep_explained ht host hstep hused
    exact ⟨used', hused', fun j hj => hlate hafter j (hin j hj)⟩
  · intro hm steps within ht
    obtain ⟨used, hused, hafter⟩ := h.counted steps within ht
    obtain ⟨_, _, _, hfull⟩ := triggerStep_explained ht host hstep hused
    obtain ⟨_, full, hmatch, hin⟩ := hfull hm
    exact ⟨full, hmatch, fun j hj => hlate hafter j (hin j hj)⟩

/-- The events behind a sequence depend on its index and start only. -/
theorem counted_congr {ops : List EngineOp} {rule : Rule} {r : ℕ} {runtime next : RuleRuntime}
    (h : ∀ steps within, rule.trigger = .sequence steps within →
      ∃ used, PartialMatch ops steps runtime used ∧ ∀ j ∈ used, r < j)
    (hindex : next.sequenceIndex = runtime.sequenceIndex)
    (hstarted : next.sequenceStarted = runtime.sequenceStarted) :
    ∀ steps within, rule.trigger = .sequence steps within →
      ∃ used, PartialMatch ops steps next used ∧ ∀ j ∈ used, r < j := by
  intro steps within ht
  obtain ⟨used, hused, hafter⟩ := h steps within ht
  exact ⟨used, hused.congr hindex hstarted, hafter⟩

theorem FreshProgress.handle {start engine : PolicyEngine} {ops : List EngineOp} {rule : Rule}
    {r : ℕ} {host : Host} {event : Event} {next : RuleRuntime} {outcome : RuleOutcome}
    (h : FreshProgress start ops rule r (engine.ruleRuntime rule.id)) (hr : r < ops.length)
    (hrun : run PolicyEngine.step start ops = some engine)
    (hpassed : (engine.ruleRuntime rule.id).armedAt ≠ none →
      ¬ Active rule (engine.ruleRuntime rule.id) event →
        rule.conditionsMatch host (engine.snapshot.apply event) = true)
    (hstep : RuleStep host (engine.snapshot.apply event) event rule
      (engine.ruleRuntime rule.id) next outcome) :
    FreshProgress start (ops ++ [.handle host event]) rule r next := by
  -- sequence progress that the step does not touch
  have hkept : ∀ steps within, rule.trigger = .sequence steps within →
      ∃ used, PartialMatch (ops ++ [.handle host event]) steps (engine.ruleRuntime rule.id) used ∧
        ∀ j ∈ used, r < j := by
    intro steps within ht
    obtain ⟨used, hused, hafter⟩ := h.counted steps within ht
    exact ⟨used, hused.append _, hafter⟩
  cases hstep with
  | blocked hidle =>
      exact h.snoc fun harmed => conditionsMatch_last hrun (hpassed harmed hidle)
  | disarmed => exact ⟨counted_congr hkept rfl rfl, fun harmed => absurd rfl harmed⟩
  | waiting _ _ hcond => exact h.snoc fun _ => conditionsMatch_last hrun hcond
  | sustained => exact ⟨counted_congr hkept rfl rfl, fun harmed => absurd rfl harmed⟩
  | progressed _ hunarmed htrigger =>
      refine ⟨(h.triggerStep hr host htrigger).1, ?_⟩
      rw [(triggerStep_frame htrigger).2.2]
      exact fun harmed => absurd hunarmed harmed
  | immediate _ hunarmed htrigger =>
      refine ⟨counted_congr (h.triggerStep hr host htrigger).1 rfl rfl, ?_⟩
      have hunarmed' := (triggerStep_frame htrigger).2.2.trans hunarmed
      exact fun harmed => absurd hunarmed' harmed
  | armed _ hunarmed htrigger hcond =>
      refine ⟨counted_congr (h.triggerStep hr host htrigger).1 rfl rfl,
        fun _ => ⟨ops.length, hr, ?_, ?_⟩⟩
      · exact ⟨engine, host, event, visits_snoc_last.mpr ⟨rfl, hrun⟩, ⟨_, htrigger⟩,
          (h.triggerStep hr host htrigger).2 rfl⟩
      · intro k engine₁ host₁ event₁ hk _ hv
        rcases visits_snoc.mp hv with hv | ⟨_, hop, hrun₁⟩
        · have hlt := hv.lt_length
          omega
        · exact conditionsMatch_last hrun hcond engine₁ host₁ event₁ hop hrun₁

/-! ## Along a run -/

theorem RedefinedAt.lt_length {start : PolicyEngine} {ops : List EngineOp} {r : ℕ} {id : String}
    (h : RedefinedAt start ops r id) : r < ops.length := by
  obtain ⟨_, _, hv, _⟩ := h
  exact hv.lt_length

theorem redefinedAt_snoc {start : PolicyEngine} {ops : List EngineOp} {op : EngineOp} {r : ℕ}
    {id : String} (h : RedefinedAt start (ops ++ [op]) r id) :
    RedefinedAt start ops r id ∨ ∃ engine rules, op = .replaceRules rules ∧
      run PolicyEngine.step start ops = some engine ∧
      ∃ old ∈ engine.rules, ∃ rule ∈ rules, old.id = id ∧ rule.id = id ∧ ¬ rule.SameWatch old := by
  obtain ⟨engine, rules, hv, hchanged⟩ := h
  rcases visits_snoc.mp hv with hv | ⟨_, hop, hrun⟩
  · exact Or.inl ⟨engine, rules, hv, hchanged⟩
  · exact Or.inr ⟨engine, rules, hop, hrun, hchanged⟩

theorem eq_of_id_eq {rules : List Rule} (hd : DistinctIds rules) {left right : Rule}
    (hleft : left ∈ rules) (hright : right ∈ rules) (h : left.id = right.id) : left = right :=
  List.inj_on_of_nodup_map hd hleft hright h

structure FreshRun (start : PolicyEngine) (id : String) (ops : List EngineOp)
    (engine : PolicyEngine) : Prop where
  idle : RecoveryIdle engine
  absent : id ∉ engine.rules.map (·.id) → (engine.ruleRuntime id).Idle
  fresh : ∀ rule ∈ engine.rules, rule.id = id → ∀ r, RedefinedAt start ops r id →
    FreshProgress start ops rule r (engine.ruleRuntime id)

theorem FreshRun.handle {start engine engine' : PolicyEngine} {id : String} {ops : List EngineOp}
    {host : Host} {event : Event} (h : FreshRun start id ops engine)
    (hrun : run PolicyEngine.step start ops = some engine)
    (hop : FreshStep id engine (.handle host event))
    (hs : engine.step (.handle host event) = some engine') :
    FreshRun start id (ops ++ [.handle host event]) engine' := by
  obtain ⟨plans, hh⟩ := step_handle hs
  have hrules := (PolicyEngine.handle_frame hh).1
  have hkeeps : DistinctReload engine (.handle host event) := trivial
  refine ⟨step_recoveryIdle hkeeps h.idle hs, ?_, ?_⟩
  · intro hid
    rw [hrules] at hid
    rw [PolicyEngine.handle_ruleRuntime_notMem hh hid]
    exact h.absent hid
  · rintro rule hr rfl r hredefined
    rw [hrules] at hr
    have hearlier : RedefinedAt start ops r rule.id := by
      rcases redefinedAt_snoc hredefined with hearlier | ⟨_, _, heq, _⟩
      · exact hearlier
      · cases heq
    cases hrec : engine.recoveryMode with
    | true =>
        have hidle := h.idle.2 hrec rule.id
        rw [PolicyEngine.handle_recovery hrec] at hh
        cases hh
        exact hidle.fresh _ _ _ _
    | false =>
        obtain ⟨outcome, hstep, _⟩ := PolicyEngine.handle_ruleStep h.idle.1 hrec hh hr
        exact (h.fresh rule hr rfl r hearlier).handle hearlier.lt_length hrun (hop rule hr rfl) hstep

theorem FreshRun.replaceRules {start engine : PolicyEngine} {id : String} {ops : List EngineOp}
    {rules : List Rule} (h : FreshRun start id ops engine)
    (hrun : run PolicyEngine.step start ops = some engine) (hd : DistinctIds rules)
    (hop : FreshStep id engine (.replaceRules rules)) :
    FreshRun start id (ops ++ [.replaceRules rules]) (engine.replaceRules rules) := by
  have hidle := step_recoveryIdle (show DistinctReload engine (.replaceRules rules) from hd) h.idle
    (show engine.step (.replaceRules rules) = some (engine.replaceRules rules) from rfl)
  refine ⟨hidle, ?_, ?_⟩
  · intro hid
    have hid' : id ∉ rules.map (·.id) := by
      rwa [← ((sortRules_perm rules).map _).mem_iff]
    rw [PolicyEngine.replaceRules_ruleRuntime_notMem engine hid']
    exact idle_default
  · rintro rule hr rfl r hredefined
    have hr' := mem_sortRules.mp hr
    rw [PolicyEngine.replaceRules_ruleRuntime engine hd hr']
    by_cases hid : rule.id ∈ engine.rules.map (·.id)
    · obtain ⟨old, hold, heq⟩ := List.mem_map.mp hid
      by_cases hsame : rule.SameWatch old
      · have hearlier : RedefinedAt start ops r rule.id := by
          rcases redefinedAt_snoc hredefined with hearlier |
            ⟨engine₁, rules₁, hreload, hrun₁, old₁, hold₁, rule₁, hr₁, heq₁, hid₁, hchanged⟩
          · exact hearlier
          · cases hreload
            cases hrun.symm.trans hrun₁
            rw [eq_of_id_eq hd hr₁ hr' hid₁, eq_of_id_eq h.idle.1 hold₁ hold (heq₁.trans heq.symm)]
              at hchanged
            exact absurd hsame hchanged
        have hfresh := h.fresh old hold heq r hearlier
        exact (hfresh.congr heq.symm hsame).snoc fun _ _ _ _ hne => (by cases hne)
      · exact (hop old hold rule hr' heq rfl hsame).fresh _ _ _ _
    · exact (h.absent hid).fresh _ _ _ _

end Kovert
