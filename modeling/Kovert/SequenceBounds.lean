import Kovert.Runs

/-!
# Sequence indices stay inside their step lists

The index of a partial match outlives the step list it points into: a reload
keeps the record of a rule id and may install a shorter sequence under it. The
index is bounded along every run in which each reload leaves room for the
partial matches it inherits, and the panic is reachable when one does not.
-/

namespace Kovert

open Execution

/-- A reload installs, under each id, a sequence longer than the partial match
already stored for that id. -/
def ReloadFits : PolicyEngine → EngineOp → Prop
  | engine, .replaceRules rules => ∀ rule ∈ rules, ∀ steps within,
      rule.trigger = .sequence steps within →
        (engine.ruleRuntime rule.id).sequenceIndex < steps.length
  | _, _ => True

/-- Reloads of accepted lists that fit the stored partial matches. -/
def FittingReload (parseTime : String → Option ℕ) : PolicyEngine → EngineOp → Prop
  | engine, .replaceRules rules =>
      Accepted parseTime rules ∧ ReloadFits engine (.replaceRules rules)
  | _, _ => True

structure SequencesInBounds (engine : PolicyEngine) : Prop where
  distinct : DistinctIds engine.rules
  long : ∀ rule ∈ engine.rules, ∀ steps within, rule.trigger = .sequence steps within →
    2 ≤ steps.length
  bounded : ∀ rule ∈ engine.rules, ∀ steps within, rule.trigger = .sequence steps within →
    (engine.ruleRuntime rule.id).sequenceIndex < steps.length

theorem expireSequence_index_le (runtime : RuleRuntime) (within : Duration) (event : Event) :
    (expireSequence runtime within event).sequenceIndex ≤ runtime.sequenceIndex := by
  rcases expireSequence_cases runtime within event with he | ⟨he, _⟩ <;> simp [he]

theorem SequenceStep.index_lt {steps : List TriggerSpec} {event : Event} {live next : RuleRuntime}
    {matched : Bool} (h : SequenceStep steps event live matched next) (hlong : 2 ≤ steps.length) :
    next.sequenceIndex < steps.length := by
  cases h with
  | ignored hread => exact (List.getElem?_eq_some_iff.mp hread).1
  | restarted => exact hlong
  | advanced hread hyes hlen =>
      have hlt := (List.getElem?_eq_some_iff.mp hread).1
      show live.sequenceIndex + 1 < steps.length
      omega
  | completed => exact Nat.lt_of_lt_of_le Nat.zero_lt_two hlong

theorem triggerStep_index_lt {rule : Rule} {runtime next : RuleRuntime} {event : Event}
    {matched : Bool} {steps : List TriggerSpec} {within : Duration}
    (h : rule.triggerStep runtime event = some (matched, next))
    (ht : rule.trigger = .sequence steps within) (hlong : 2 ≤ steps.length) :
    next.sequenceIndex < steps.length := by
  simp only [Rule.triggerStep, ht] at h
  rcases sequenceMatches_cases h with ⟨rfl, _⟩ | hstep
  · simp at hlong
  · exact hstep.index_lt hlong

theorem RuleStep.index_lt {host : Host} {snapshot : SystemSnapshot} {event : Event} {rule : Rule}
    {runtime next : RuleRuntime} {outcome : RuleOutcome} {steps : List TriggerSpec}
    {within : Duration} (h : RuleStep host snapshot event rule runtime next outcome)
    (ht : rule.trigger = .sequence steps within) (hlong : 2 ≤ steps.length)
    (hlt : runtime.sequenceIndex < steps.length) : next.sequenceIndex < steps.length := by
  cases h with
  | blocked => exact hlt
  | disarmed => exact hlt
  | waiting => exact hlt
  | sustained => exact hlt
  | progressed hactive hunarmed htrigger => exact triggerStep_index_lt htrigger ht hlong
  | immediate hactive hunarmed htrigger =>
      have hnext := triggerStep_index_lt htrigger ht hlong
      exact hnext
  | armed hactive hunarmed htrigger =>
      have hnext := triggerStep_index_lt htrigger ht hlong
      exact hnext

theorem SequencesInBounds.handle_isSome {engine : PolicyEngine} (h : SequencesInBounds engine)
    (host : Host) (event : Event) : (engine.handle host event).isSome := by
  rw [Option.isSome_iff_ne_none, Ne, PolicyEngine.handle_eq_none_iff h.distinct]
  rintro ⟨_, rule, hr, steps, within, ht, _, _, _, hle⟩
  have hlt := h.bounded rule hr steps within ht
  have hexpire := expireSequence_index_le (engine.ruleRuntime rule.id) within event
  omega

theorem new_sequencesInBounds {parseTime : String → Option ℕ} {rules : List Rule}
    (h : Accepted parseTime rules) (mode : String) (now : Timestamp) :
    SequencesInBounds (.new rules mode now) := by
  refine ⟨new_distinctIds h.distinctIds mode now, ?_, ?_⟩
  · intro rule hr steps within ht
    exact (h.sequence (mem_sortRules.mp hr) ht).1
  · intro rule hr steps within ht
    have hlong := (h.sequence (mem_sortRules.mp hr) ht).1
    rw [PolicyEngine.new_ruleRuntime]
    exact Nat.lt_of_lt_of_le Nat.zero_lt_two hlong

theorem step_sequencesInBounds {parseTime : String → Option ℕ} {engine engine' : PolicyEngine}
    {op : EngineOp} (hop : FittingReload parseTime engine op) (h : SequencesInBounds engine)
    (hs : engine.step op = some engine') : SequencesInBounds engine' := by
  cases op with
  | handle host event =>
      obtain ⟨plans, hh⟩ := step_handle hs
      have hrules := (PolicyEngine.handle_frame hh).1
      refine ⟨hrules ▸ h.distinct, hrules ▸ h.long, ?_⟩
      intro rule hr steps within ht
      rw [hrules] at hr
      have hlt := h.bounded rule hr steps within ht
      cases hrec : engine.recoveryMode with
      | true =>
          rw [PolicyEngine.handle_recovery hrec] at hh
          cases hh
          exact hlt
      | false =>
          obtain ⟨outcome, hstep, _⟩ := PolicyEngine.handle_ruleStep h.distinct hrec hh hr
          exact hstep.index_lt ht (h.long rule hr steps within ht) hlt
  | setMode mode =>
      cases hs
      exact ⟨h.distinct, h.long, h.bounded⟩
  | setRecoveryMode enabled =>
      cases hs
      refine ⟨h.distinct, h.long, ?_⟩
      intro rule hr steps within ht
      have hlt := h.bounded rule hr steps within ht
      rw [PolicyEngine.setRecoveryMode_ruleRuntime]
      split_ifs
      · exact Nat.lt_of_le_of_lt (Nat.zero_le _) hlt
      · exact hlt
  | replaceRules rules =>
      cases hs
      obtain ⟨haccepted, hfits⟩ := hop
      refine ⟨distinctIds_sortRules.mpr haccepted.distinctIds, ?_, ?_⟩
      · intro rule hr steps within ht
        exact (haccepted.sequence (mem_sortRules.mp hr) ht).1
      · intro rule hr steps within ht
        have hr' := mem_sortRules.mp hr
        rw [PolicyEngine.replaceRules_ruleRuntime engine haccepted.distinctIds hr']
        exact hfits rule hr' steps within ht

/-- Such a run never aborts and keeps the indices in bounds. -/
theorem run_sequencesInBounds {parseTime : String → Option ℕ} {start : PolicyEngine}
    (h : SequencesInBounds start) {ops : List EngineOp}
    (hall : AllSteps PolicyEngine.step (FittingReload parseTime) start ops) :
    ∃ engine, run PolicyEngine.step start ops = some engine ∧ SequencesInBounds engine := by
  induction ops using List.reverseRecOn with
  | nil => exact ⟨start, rfl, h⟩
  | append_singleton ops op ih =>
      obtain ⟨hall, hlast⟩ := allSteps_snoc.mp hall
      obtain ⟨engine, hrun, hinv⟩ := ih hall
      have hstep : ∃ engine', engine.step op = some engine' := by
        cases op with
        | handle host event =>
            obtain ⟨result, hresult⟩ := Option.isSome_iff_exists.mp (hinv.handle_isSome host event)
            exact ⟨result.1, by simp [PolicyEngine.step, hresult]⟩
        | setMode mode => exact ⟨_, rfl⟩
        | setRecoveryMode enabled => exact ⟨_, rfl⟩
        | replaceRules rules => exact ⟨_, rfl⟩
      obtain ⟨engine', hs⟩ := hstep
      refine ⟨engine', ?_, step_sequencesInBounds (hlast engine hrun) hinv hs⟩
      exact (run_snoc_eq_some PolicyEngine.step).mpr ⟨engine, hrun, hs⟩

/-- Runs whose reloads are accepted and leave room for the stored partial
matches reach only states in which `handle` indexes in bounds. -/
theorem sequence_reads_in_bounds (parseTime : String → Option ℕ) (rules : List Rule)
    (mode : String) (now : Timestamp) (ops : List EngineOp) (hrules : Accepted parseTime rules)
    (hreloads : ∀ rules', EngineOp.replaceRules rules' ∈ ops → Accepted parseTime rules')
    (hfits : AllSteps PolicyEngine.step ReloadFits (.new rules mode now) ops) :
    ∃ engine, run PolicyEngine.step (.new rules mode now) ops = some engine ∧
      (∀ host event, (engine.handle host event).isSome) ∧
      ∀ rule ∈ engine.rules, ∀ steps within, rule.trigger = .sequence steps within →
        (engine.ruleRuntime rule.id).sequenceIndex < steps.length := by
  have hall : AllSteps PolicyEngine.step (FittingReload parseTime) (.new rules mode now) ops := by
    intro n m op hv
    cases op with
    | replaceRules rules' =>
        exact ⟨hreloads rules' (List.mem_of_getElem? hv.1), hfits n m _ hv⟩
    | _ => trivial
  obtain ⟨engine, hrun, hinv⟩ := run_sequencesInBounds (new_sequencesInBounds hrules mode now) hall
  exact ⟨engine, hrun, hinv.handle_isSome, hinv.bounded⟩

/-! ## A reload that shortens a sequence under its own progress -/

theorem sequence_reads_in_bounds_lengthened :
    ∃ engine, run PolicyEngine.step (.new [manualSequence ["a", "b"]] "normal" 0)
        [manualAt "a" 0, .replaceRules [manualSequence ["a", "b", "c"]], manualAt "b" 1] =
          some engine ∧
      (∀ host event, (engine.handle host event).isSome) ∧
      ∀ rule ∈ engine.rules, ∀ steps within, rule.trigger = .sequence steps within →
        (engine.ruleRuntime rule.id).sequenceIndex < steps.length := by
  apply sequence_reads_in_bounds (fun _ => none)
  · exact ⟨testConfig [manualSequence ["a", "b"]], rfl, rfl⟩
  · intro rules hmem
    simp only [manualAt, List.mem_cons, reduceCtorEq, List.not_mem_nil, or_false, false_or,
      EngineOp.replaceRules.injEq] at hmem
    subst hmem
    exact ⟨testConfig [manualSequence ["a", "b", "c"]], rfl, rfl⟩
  · rintro (_ | _ | _ | n) m op ⟨hop, hrun⟩
    · cases hop
      trivial
    · cases hop
      cases hrun
      intro rule hr steps within ht
      cases List.mem_singleton.mp hr
      cases ht
      decide
    · cases hop
      trivial
    · cases hop

/-- Two of three steps matched, then a reload to a two-step sequence under the
same id: the next event indexes the new list at 2. -/
theorem shortening_reload_panics :
    Accepted (fun _ => none) [manualSequence ["a", "b", "c"]] ∧
      Accepted (fun _ => none) [manualSequence ["a", "b"]] ∧
      ∃ engine, run PolicyEngine.step (.new [manualSequence ["a", "b", "c"]] "normal" 0)
          [manualAt "a" 0, manualAt "b" 1, .replaceRules [manualSequence ["a", "b"]]] =
            some engine ∧
        (engine.ruleRuntime "test").sequenceIndex = 2 ∧
        engine.handle bareHost (eventAt (.manual "c") 2) = none :=
  ⟨⟨testConfig _, rfl, rfl⟩, ⟨testConfig _, rfl, rfl⟩, _, rfl, rfl, rfl⟩

end Kovert
