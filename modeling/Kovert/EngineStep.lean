import Kovert.RuleStep

/-!
# What one operation does to the engine

Frame lemmas for the four operations in terms of `ruleRuntime`, the record a
rule id resolves to, and the reduction of `handle` to one `RuleStep` for each
rule of a list with distinct ids.
-/

namespace Kovert

theorem sortRules_perm (rules : List Rule) : (sortRules rules).Perm rules :=
  List.perm_insertionSort _ rules

theorem mem_sortRules {rules : List Rule} {rule : Rule} : rule ∈ sortRules rules ↔ rule ∈ rules :=
  (sortRules_perm rules).mem_iff

theorem distinctIds_sortRules {rules : List Rule} :
    DistinctIds (sortRules rules) ↔ DistinctIds rules :=
  ((sortRules_perm rules).map _).nodup_iff

theorem id_ne_of_fresh {rules : List Rule} {head rule : Rule}
    (hfresh : head.id ∉ rules.map (·.id)) (hr : rule ∈ rules) : rule.id ≠ head.id := by
  intro hid
  exact hfresh (List.mem_map.mpr ⟨rule, hr, hid⟩)

namespace RuntimeMap

theorem get_update_self (runtime : RuntimeMap) (id : String) (state : RuleRuntime) :
    RuntimeMap.get (Function.update runtime id (some state)) id = state := by
  simp [RuntimeMap.get]

theorem get_update_ne (runtime : RuntimeMap) {id other : String} (h : other ≠ id)
    (state : Option RuleRuntime) :
    RuntimeMap.get (Function.update runtime id state) other = RuntimeMap.get runtime other := by
  simp [RuntimeMap.get, h]

end RuntimeMap

/-! ## The rule loop -/

/-- The record a rule leaves behind is the one `evalRule` computed for it:
disabled rules keep theirs. -/
theorem get_after_evalRule {host : Host} {snapshot : SystemSnapshot} {event : Event} {rule : Rule}
    {runtime : RuntimeMap} {state : RuleRuntime} {outcome : RuleOutcome}
    (h : evalRule host snapshot event rule (runtime.get rule.id) = some (state, outcome)) :
    RuntimeMap.get
      (if rule.enabled then Function.update runtime rule.id (some state) else runtime) rule.id =
      state := by
  cases he : rule.enabled with
  | true => exact RuntimeMap.get_update_self runtime rule.id state
  | false =>
      simp only [evalRule, he, Bool.not_false, Bool.true_or, if_true, Option.some.injEq,
        Prod.mk.injEq] at h
      simpa using h.1

theorem get_after_evalRule_ne {rule : Rule} {runtime : RuntimeMap} {state : RuleRuntime}
    {id : String} (h : id ≠ rule.id) :
    RuntimeMap.get
      (if rule.enabled then Function.update runtime rule.id (some state) else runtime) id =
      runtime.get id := by
  split_ifs
  · exact RuntimeMap.get_update_ne runtime h _
  · rfl

theorem evalRules_map_fst {host : Host} {snapshot : SystemSnapshot} {event : Event}
    {rules : List Rule} {runtime runtime' : RuntimeMap} {outcomes : List (Rule × RuleOutcome)}
    (h : evalRules host snapshot event rules runtime = some (runtime', outcomes)) :
    outcomes.map Prod.fst = rules := by
  induction rules generalizing runtime outcomes with
  | nil =>
      simp only [evalRules, Option.some.injEq, Prod.mk.injEq] at h
      simp [← h.2]
  | cons rule rules ih =>
      simp only [evalRules] at h
      split at h
      · cases h
      · obtain ⟨⟨runtime₁, tail⟩, htail, heq⟩ := Option.map_eq_some_iff.mp h
        cases heq
        simp [ih htail]

theorem evalRules_get_notMem {host : Host} {snapshot : SystemSnapshot} {event : Event}
    {rules : List Rule} {runtime runtime' : RuntimeMap} {outcomes : List (Rule × RuleOutcome)}
    (h : evalRules host snapshot event rules runtime = some (runtime', outcomes)) {id : String}
    (hid : id ∉ rules.map (·.id)) : runtime'.get id = runtime.get id := by
  induction rules generalizing runtime outcomes with
  | nil =>
      simp only [evalRules, Option.some.injEq, Prod.mk.injEq] at h
      rw [h.1]
  | cons rule rules ih =>
      simp only [evalRules] at h
      split at h
      · cases h
      · obtain ⟨⟨runtime₁, tail⟩, htail, heq⟩ := Option.map_eq_some_iff.mp h
        cases heq
        simp only [List.map_cons, List.mem_cons, not_or] at hid
        rw [ih htail hid.2, get_after_evalRule_ne hid.1]

/-- With distinct ids every rule is evaluated on its own record. -/
theorem evalRules_mem {host : Host} {snapshot : SystemSnapshot} {event : Event}
    {rules : List Rule} {runtime runtime' : RuntimeMap} {outcomes : List (Rule × RuleOutcome)}
    (hd : DistinctIds rules)
    (h : evalRules host snapshot event rules runtime = some (runtime', outcomes))
    {rule : Rule} {outcome : RuleOutcome} (hmem : (rule, outcome) ∈ outcomes) :
    evalRule host snapshot event rule (runtime.get rule.id) =
      some (runtime'.get rule.id, outcome) := by
  induction rules generalizing runtime outcomes with
  | nil =>
      simp only [evalRules, Option.some.injEq, Prod.mk.injEq] at h
      rw [← h.2] at hmem
      cases hmem
  | cons head rules ih =>
      obtain ⟨hfresh, hd⟩ := List.nodup_cons.mp hd
      simp only [evalRules] at h
      split at h
      · cases h
      · next state result hhead =>
        obtain ⟨⟨runtime₁, tail⟩, htail, heq⟩ := Option.map_eq_some_iff.mp h
        cases heq
        rcases List.mem_cons.mp hmem with heq | hmem
        · cases heq
          rw [hhead, evalRules_get_notMem htail hfresh, get_after_evalRule hhead]
        · have hin : rule ∈ rules := by
            rw [← evalRules_map_fst htail]
            exact List.mem_map.mpr ⟨_, hmem, rfl⟩
          rw [← ih hd htail hmem, get_after_evalRule_ne (id_ne_of_fresh hfresh hin)]

theorem evalRules_eq_none {host : Host} {snapshot : SystemSnapshot} {event : Event}
    {rules : List Rule} {runtime : RuntimeMap} (hd : DistinctIds rules) :
    evalRules host snapshot event rules runtime = none ↔
      ∃ rule ∈ rules, evalRule host snapshot event rule (runtime.get rule.id) = none := by
  induction rules generalizing runtime with
  | nil => simp [evalRules]
  | cons head rules ih =>
      obtain ⟨hfresh, hd⟩ := List.nodup_cons.mp hd
      simp only [evalRules]
      split
      · next hhead => simpa using Or.inl hhead
      · next state result hhead =>
        simp only [Option.map_eq_none_iff, ih hd, List.exists_mem_cons_iff, hhead, reduceCtorEq,
          false_or]
        apply exists_congr
        intro rule
        apply and_congr_right
        intro hin
        rw [get_after_evalRule_ne (id_ne_of_fresh hfresh hin)]

/-! ## The operations -/

theorem SystemSnapshot.apply_mode (snapshot : SystemSnapshot) (event : Event) :
    (snapshot.apply event).mode = snapshot.mode := by
  unfold SystemSnapshot.apply SystemSnapshot.applyKind
  split <;> first | rfl | (split <;> rfl)

namespace PolicyEngine

/-- The record the engine keeps for a rule id. -/
def ruleRuntime (engine : PolicyEngine) (id : String) : RuleRuntime := engine.runtime.get id

@[simp] theorem new_ruleRuntime (rules : List Rule) (mode : String) (now : Timestamp)
    (id : String) : (new rules mode now).ruleRuntime id = .default := by
  simp only [ruleRuntime, RuntimeMap.get, new]
  split_ifs <;> rfl

@[simp] theorem setMode_ruleRuntime (engine : PolicyEngine) (mode id : String) :
    (engine.setMode mode).ruleRuntime id = engine.ruleRuntime id := rfl

theorem setRecoveryMode_ruleRuntime (engine : PolicyEngine) (enabled : Bool) (id : String) :
    (engine.setRecoveryMode enabled).ruleRuntime id =
      if enabled then clearProgress (engine.ruleRuntime id) else engine.ruleRuntime id := by
  cases enabled with
  | false => rfl
  | true =>
      simp only [ruleRuntime, RuntimeMap.get, setRecoveryMode, if_true]
      cases engine.runtime id <;> rfl

theorem moveRuntime_get_notMem {rules : List Rule} (old next : RuntimeMap) {id : String}
    (hid : id ∉ rules.map (·.id)) : (moveRuntime rules old next).get id = next.get id := by
  induction rules generalizing old next with
  | nil => rfl
  | cons head rules ih =>
      simp only [List.map_cons, List.mem_cons, not_or] at hid
      rw [moveRuntime, ih _ _ hid.2, RuntimeMap.get_update_ne _ hid.1]

theorem moveRuntime_get {rules : List Rule} (hd : DistinctIds rules) (old next : RuntimeMap)
    {rule : Rule} (hr : rule ∈ rules) :
    (moveRuntime rules old next).get rule.id = old.get rule.id := by
  induction rules generalizing old next with
  | nil => cases hr
  | cons head rules ih =>
      obtain ⟨hfresh, hd⟩ := List.nodup_cons.mp hd
      rw [moveRuntime]
      rcases List.mem_cons.mp hr with rfl | hr
      · rw [moveRuntime_get_notMem _ _ hfresh, RuntimeMap.get_update_self]
      · rw [ih hd _ _ hr, RuntimeMap.get_update_ne _ (id_ne_of_fresh hfresh hr)]

/-- A reload keeps the record of every id that stays. -/
theorem replaceRules_ruleRuntime (engine : PolicyEngine) {rules : List Rule}
    (hd : DistinctIds rules) {rule : Rule} (hr : rule ∈ rules) :
    (engine.replaceRules rules).ruleRuntime rule.id = engine.ruleRuntime rule.id :=
  moveRuntime_get (distinctIds_sortRules.mpr hd) _ _ (mem_sortRules.mpr hr)

theorem replaceRules_ruleRuntime_notMem (engine : PolicyEngine) {rules : List Rule} {id : String}
    (hid : id ∉ rules.map (·.id)) : (engine.replaceRules rules).ruleRuntime id = .default := by
  have hid' : id ∉ (sortRules rules).map (·.id) := by
    rwa [((sortRules_perm rules).map _).mem_iff]
  rw [ruleRuntime, replaceRules, moveRuntime_get_notMem _ _ hid']
  rfl

theorem handle_frame {engine engine' : PolicyEngine} {host : Host} {event : Event}
    {plans : List ActionPlan} (h : engine.handle host event = some (engine', plans)) :
    engine'.rules = engine.rules ∧ engine'.recoveryMode = engine.recoveryMode ∧
      engine'.snapshot = engine.snapshot.apply event := by
  unfold handle at h
  split_ifs at h
  · cases h
    exact ⟨rfl, rfl, rfl⟩
  · split at h
    · cases h
    · cases h
      exact ⟨rfl, rfl, rfl⟩

theorem handle_recovery {engine : PolicyEngine} (hrec : engine.recoveryMode = true) (host : Host)
    (event : Event) :
    engine.handle host event =
      some ({ engine with snapshot := engine.snapshot.apply event }, []) := by
  rw [handle, if_pos hrec]

theorem handle_active {engine engine' : PolicyEngine} {host : Host} {event : Event}
    {plans : List ActionPlan} (hrec : engine.recoveryMode = false)
    (h : engine.handle host event = some (engine', plans)) :
    ∃ outcomes, engine.outcomes host event = some (engine'.runtime, outcomes) ∧
      plans = resolveConflicts (candidates event outcomes) := by
  simp only [handle, hrec, Bool.false_eq_true, if_false] at h
  split at h
  · cases h
  · next runtime outcomes hout =>
    cases h
    exact ⟨outcomes, hout, rfl⟩

theorem handle_ruleRuntime_notMem {engine engine' : PolicyEngine} {host : Host} {event : Event}
    {plans : List ActionPlan} (h : engine.handle host event = some (engine', plans)) {id : String}
    (hid : id ∉ engine.rules.map (·.id)) : engine'.ruleRuntime id = engine.ruleRuntime id := by
  cases hrec : engine.recoveryMode with
  | true =>
      rw [handle_recovery hrec] at h
      cases h
      rfl
  | false =>
      obtain ⟨outcomes, hout, _⟩ := handle_active hrec h
      exact evalRules_get_notMem hout hid

theorem handle_eq_none {engine : PolicyEngine} {host : Host} {event : Event} :
    engine.handle host event = none ↔
      engine.recoveryMode = false ∧ engine.outcomes host event = none := by
  cases hrec : engine.recoveryMode with
  | true => simp [handle_recovery hrec]
  | false =>
      simp only [handle, hrec, Bool.false_eq_true, if_false, true_and]
      cases engine.outcomes host event <;> simp

/-- The only panic of `handle`: an active, unarmed sequence rule whose index,
after the expiry check, is past the end of its steps. -/
theorem handle_eq_none_iff {engine : PolicyEngine} (hd : DistinctIds engine.rules) {host : Host}
    {event : Event} :
    engine.handle host event = none ↔ engine.recoveryMode = false ∧ ∃ rule ∈ engine.rules,
      ∃ steps within, rule.trigger = .sequence steps within ∧
        Active rule (engine.ruleRuntime rule.id) event ∧
        (engine.ruleRuntime rule.id).armedAt = none ∧ steps ≠ [] ∧
        steps.length ≤
          (expireSequence (engine.ruleRuntime rule.id) within event).sequenceIndex := by
  rw [handle_eq_none, outcomes, evalRules_eq_none hd]
  apply and_congr_right
  intro _
  apply exists_congr
  intro rule
  apply and_congr_right
  intro _
  rw [evalRule_eq_none]
  constructor
  · rintro ⟨hactive, hunarmed, htrigger⟩
    unfold Rule.triggerStep at htrigger
    split at htrigger
    · next steps within ht =>
      exact ⟨steps, within, ht, hactive, hunarmed, sequenceMatches_eq_none.mp htrigger⟩
    · cases htrigger
  · rintro ⟨steps, within, ht, hactive, hunarmed, hbound⟩
    refine ⟨hactive, hunarmed, ?_⟩
    simp only [Rule.triggerStep, ht]
    exact sequenceMatches_eq_none.mpr hbound

/-- Every rule of a list with distinct ids is evaluated on its own record. -/
theorem outcomes_evalRule {engine : PolicyEngine} {host : Host} {event : Event}
    {runtime : RuntimeMap} {outcomes : List (Rule × RuleOutcome)} (hd : DistinctIds engine.rules)
    (hout : engine.outcomes host event = some (runtime, outcomes)) {rule : Rule}
    (hr : rule ∈ engine.rules) :
    ∃ outcome, (rule, outcome) ∈ outcomes ∧
      evalRule host (engine.snapshot.apply event) event rule (engine.ruleRuntime rule.id) =
        some (runtime.get rule.id, outcome) := by
  have hfst := evalRules_map_fst hout
  obtain ⟨⟨_, outcome⟩, hmem, rfl⟩ := List.mem_map.mp (hfst ▸ hr)
  exact ⟨outcome, hmem, evalRules_mem hd hout hmem⟩

/-- `handle` outside recovery takes every rule through one `RuleStep`, and the
rule fires exactly when that step's outcome is a firing. -/
theorem handle_ruleStep {engine engine' : PolicyEngine} {host : Host} {event : Event}
    {plans : List ActionPlan} (hd : DistinctIds engine.rules)
    (hrec : engine.recoveryMode = false) (h : engine.handle host event = some (engine', plans))
    {rule : Rule} (hr : rule ∈ engine.rules) :
    ∃ outcome, RuleStep host (engine.snapshot.apply event) event rule
        (engine.ruleRuntime rule.id) (engine'.ruleRuntime rule.id) outcome ∧
      (engine.Fires host event rule ↔ outcome = .fired) := by
  obtain ⟨outcomes, hout, _⟩ := handle_active hrec h
  obtain ⟨outcome, hmem, heval⟩ := outcomes_evalRule hd hout hr
  refine ⟨outcome, evalRule_ruleStep heval, ?_⟩
  constructor
  · rintro ⟨_, runtime, outcomes', hout', hmem'⟩
    rw [hout] at hout'
    cases hout'
    have heval' := evalRules_mem hd hout hmem'
    exact (Prod.mk.inj (Option.some.inj (heval.symm.trans heval'))).2
  · rintro rfl
    exact ⟨hrec, engine'.runtime, outcomes, hout, hmem⟩

theorem not_fires_of_recovery {engine : PolicyEngine} (hrec : engine.recoveryMode = true)
    {host : Host} {event : Event} {rule : Rule} : ¬ engine.Fires host event rule := by
  rintro ⟨hno, _⟩
  rw [hrec] at hno
  cases hno

theorem Fires.mem_rules {engine : PolicyEngine} {host : Host} {event : Event} {rule : Rule}
    (h : engine.Fires host event rule) : rule ∈ engine.rules := by
  obtain ⟨_, runtime, outcomes, hout, hmem⟩ := h
  rw [← evalRules_map_fst hout]
  exact List.mem_map.mpr ⟨_, hmem, rfl⟩

/-- The call in which a rule fires returns, and takes the rule through a firing `RuleStep`. -/
theorem Fires.ruleStep {engine : PolicyEngine} {host : Host} {event : Event} {rule : Rule}
    (hd : DistinctIds engine.rules) (h : engine.Fires host event rule) :
    ∃ engine' plans, engine.handle host event = some (engine', plans) ∧
      RuleStep host (engine.snapshot.apply event) event rule
        (engine.ruleRuntime rule.id) (engine'.ruleRuntime rule.id) .fired := by
  cases hh : engine.handle host event with
  | none =>
      obtain ⟨_, runtime, outcomes, hout, _⟩ := h
      rw [(handle_eq_none.mp hh).2] at hout
      cases hout
  | some result =>
      obtain ⟨engine', plans⟩ := result
      obtain ⟨outcome, hstep, hfired⟩ := handle_ruleStep hd h.1 hh h.mem_rules
      exact ⟨engine', plans, rfl, hfired.mp h ▸ hstep⟩

/-- The two firing sites of `handle`: from the armed state, or at once. -/
theorem Fires.cases {engine : PolicyEngine} {host : Host} {event : Event} {rule : Rule}
    (hd : DistinctIds engine.rules) (h : engine.Fires host event rule) :
    Active rule (engine.ruleRuntime rule.id) event ∧
      rule.conditionsMatch host (engine.snapshot.apply event) = true ∧
      ((∃ armedAt, (engine.ruleRuntime rule.id).armedAt = some armedAt ∧
          rule.sustainFor ≤ elapsed event.timestamp armedAt) ∨
        (engine.ruleRuntime rule.id).armedAt = none ∧ rule.sustainFor = 0 ∧
          ∃ next, rule.triggerStep (engine.ruleRuntime rule.id) event = some (true, next)) := by
  obtain ⟨engine', _, _, hstep⟩ := h.ruleStep hd
  generalize engine'.ruleRuntime rule.id = next at hstep
  cases hstep with
  | blocked _ hne => exact absurd rfl hne
  | sustained hactive harmed hcond helapsed =>
      exact ⟨hactive, hcond, Or.inl ⟨_, harmed, helapsed⟩⟩
  | immediate hactive hunarmed htrigger hcond hsustain =>
      exact ⟨hactive, hcond, Or.inr ⟨hunarmed, hsustain, _, htrigger⟩⟩

end PolicyEngine
end Kovert
