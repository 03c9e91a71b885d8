import Kovert.Runs

/-!
# Conflict-free plans

The candidates of one `handle` call, each with the position of its action in
the rule, are strictly ordered by descending priority, then rule id, then
position, because the rules are sorted and the loop visits them in order. The
second sort therefore changes nothing, and the first claimant of a key is its
best candidate.
-/

namespace Kovert

open FirstWins

/-- A candidate plan and the position of its action in `rule.actions`. -/
structure RankedPlan where
  plan : ActionPlan
  position : ℕ

namespace RankedPlan

def conflictKey (ranked : RankedPlan) : Option String := ranked.plan.action.conflictKey

/-- Descending priority, then rule id, then action position. -/
def Before (left right : RankedPlan) : Prop :=
  right.plan.priority < left.plan.priority ∨ right.plan.priority = left.plan.priority ∧
    (left.plan.ruleId < right.plan.ruleId ∨
      left.plan.ruleId = right.plan.ruleId ∧ left.position < right.position)

def of (rule : Rule) (event : Event) (entry : ActionSpec × ℕ) : RankedPlan where
  plan := ActionPlan.of rule event entry.1
  position := entry.2

end RankedPlan

/-- `RuleOutcome.plans` with positions; the alert of a sensor failure stands alone. -/
def RuleOutcome.rankedPlans (rule : Rule) (event : Event) (outcome : RuleOutcome) :
    List RankedPlan :=
  match outcome with
  | .skipped => []
  | .alerted _ _ => (outcome.plans rule event).map (fun plan => ⟨plan, 0⟩)
  | .failedClosed =>
    (rule.actions.zipIdx.filter (fun entry => failClosedAction entry.1)).map
      (RankedPlan.of rule event)
  | .fired => rule.actions.zipIdx.map (RankedPlan.of rule event)

def rankedCandidates (event : Event) (outcomes : List (Rule × RuleOutcome)) : List RankedPlan :=
  outcomes.flatMap (fun entry => entry.2.rankedPlans entry.1 event)

theorem rankedPlans_plan (rule : Rule) (event : Event) (outcome : RuleOutcome) :
    (outcome.rankedPlans rule event).map RankedPlan.plan = outcome.plans rule event := by
  have hof : RankedPlan.plan ∘ RankedPlan.of rule event = ActionPlan.of rule event ∘ Prod.fst := rfl
  cases outcome with
  | skipped => rfl
  | alerted sensor message => rfl
  | failedClosed =>
      have hfilter : rule.actions.filter failClosedAction =
          (rule.actions.zipIdx.filter (fun entry => failClosedAction entry.1)).map Prod.fst := by
        conv_lhs => rw [← List.zipIdx_map_fst 0 rule.actions, List.filter_map]
        rfl
      simp only [RuleOutcome.rankedPlans, RuleOutcome.plans, hfilter, List.map_map, hof]
  | fired =>
      simp only [RuleOutcome.rankedPlans, RuleOutcome.plans, appendActions, List.map_map, hof]
      rw [← List.map_map, List.zipIdx_map_fst]

theorem rankedCandidates_plan (event : Event) (outcomes : List (Rule × RuleOutcome)) :
    (rankedCandidates event outcomes).map RankedPlan.plan = candidates event outcomes := by
  simp only [rankedCandidates, candidates, List.map_flatMap, rankedPlans_plan]

theorem mem_rankedPlans {rule : Rule} {event : Event} {outcome : RuleOutcome}
    {ranked : RankedPlan} (h : ranked ∈ outcome.rankedPlans rule event) :
    ranked.plan.ruleId = rule.id ∧ ranked.plan.priority = rule.priority := by
  have hplan : ranked.plan ∈ outcome.plans rule event := by
    rw [← rankedPlans_plan]
    exact List.mem_map_of_mem h
  cases outcome with
  | skipped => cases hplan
  | alerted sensor message =>
      rw [List.mem_singleton.mp hplan]
      exact ⟨rfl, rfl⟩
  | failedClosed =>
      obtain ⟨action, _, heq⟩ := List.mem_map.mp hplan
      rw [← heq]
      exact ⟨rfl, rfl⟩
  | fired =>
      obtain ⟨action, _, heq⟩ := List.mem_map.mp hplan
      rw [← heq]
      exact ⟨rfl, rfl⟩

theorem zipIdx_increasing (actions : List ActionSpec) :
    actions.zipIdx.Pairwise (fun left right => left.2 < right.2) := by
  rw [← List.pairwise_map, List.zipIdx_map_snd]
  exact List.pairwise_lt_range'

/-- The candidates of one rule follow the order of its actions. -/
theorem rankedPlans_pairwise (rule : Rule) (event : Event) (outcome : RuleOutcome) :
    (outcome.rankedPlans rule event).Pairwise RankedPlan.Before := by
  have hmap : ∀ entries : List (ActionSpec × ℕ), entries.Pairwise (fun l r => l.2 < r.2) →
      (entries.map (RankedPlan.of rule event)).Pairwise RankedPlan.Before := by
    intro entries hentries
    rw [List.pairwise_map]
    exact hentries.imp fun hlt => Or.inr ⟨rfl, Or.inr ⟨rfl, hlt⟩⟩
  cases outcome with
  | skipped => exact List.Pairwise.nil
  | alerted sensor message => exact List.pairwise_singleton _ _
  | failedClosed => exact hmap _ ((zipIdx_increasing rule.actions).filter _)
  | fired => exact hmap _ (zipIdx_increasing rule.actions)

theorem rankedCandidates_pairwise {event : Event} {outcomes : List (Rule × RuleOutcome)}
    (hd : DistinctIds (outcomes.map Prod.fst))
    (hsorted : (outcomes.map Prod.fst).Pairwise (fun left right => (ruleCmp left right).isLE)) :
    (rankedCandidates event outcomes).Pairwise RankedPlan.Before := by
  rw [rankedCandidates, List.pairwise_flatMap]
  refine ⟨fun entry _ => rankedPlans_pairwise entry.1 event entry.2, ?_⟩
  have hids : (outcomes.map Prod.fst).Pairwise (fun left right => left.id ≠ right.id) :=
    List.pairwise_map.mp hd
  have hboth := List.pairwise_map.mp (hsorted.and hids)
  refine hboth.imp ?_
  rintro left right ⟨hle, hne⟩ l hl r hr
  obtain ⟨hlid, hlp⟩ := mem_rankedPlans hl
  obtain ⟨hrid, hrp⟩ := mem_rankedPlans hr
  rw [RankedPlan.Before, hlid, hrid, hlp, hrp]
  rcases ruleCmp_isLE.mp hle with hlt | ⟨heq, hid⟩
  · exact Or.inl hlt
  · exact Or.inr ⟨heq, Or.inl (lt_of_le_of_ne hid hne)⟩

/-- The second sort of `resolve_conflicts` finds the candidates in order. -/
theorem resolveConflicts_eq {plans : List ActionPlan}
    (h : plans.Pairwise (fun left right => right.priority ≤ left.priority)) :
    resolveConflicts plans = firstWins (fun plan => plan.action.conflictKey) [] plans := by
  have hsorted : plans.Pairwise
      (fun left right => (compare right.priority left.priority).isLE = true) := by
    refine h.imp fun hle => ?_
    rw [← Ordering.ne_gt_iff_isLE]
    exact compare_le_iff_le.mpr hle
  rw [resolveConflicts, hsorted.insertionSort_eq]

theorem candidates_pairwise_priority {event : Event} {outcomes : List (Rule × RuleOutcome)}
    (h : (rankedCandidates event outcomes).Pairwise RankedPlan.Before) :
    (candidates event outcomes).Pairwise (fun left right => right.priority ≤ left.priority) := by
  rw [← rankedCandidates_plan, List.pairwise_map]
  refine h.imp ?_
  rintro left right (hlt | ⟨heq, _⟩)
  · exact hlt.le
  · exact heq.le

/-- Outside recovery the plans are the first claimants among the ranked candidates. -/
theorem handle_firstWins {engine engine' : PolicyEngine} {host : Host} {event : Event}
    {plans : List ActionPlan} (hd : DistinctIds engine.rules) (hrec : engine.recoveryMode = false)
    (hh : engine.handle host event = some (engine', plans)) :
    ∃ outcomes, engine.outcomes host event = some (engine'.runtime, outcomes) ∧
      plans = firstWins (fun plan => plan.action.conflictKey) [] (candidates event outcomes) ∧
      (rankedCandidates event outcomes).Pairwise RankedPlan.Before := by
  obtain ⟨outcomes, hout, hplans⟩ := PolicyEngine.handle_active hrec hh
  have hfst : outcomes.map Prod.fst = engine.rules := evalRules_map_fst hout
  have hordered : (rankedCandidates event outcomes).Pairwise RankedPlan.Before :=
    rankedCandidates_pairwise (hfst ▸ hd) (hfst ▸ engine.sorted)
  rw [resolveConflicts_eq (candidates_pairwise_priority hordered)] at hplans
  exact ⟨outcomes, hout, hplans, hordered⟩

/-- The plans returned outside recovery, for distinct rule ids: `kept` selects
them from the ordered candidates. -/
theorem handle_plans_conflict_free (engine engine' : PolicyEngine) (host : Host) (event : Event)
    (plans : List ActionPlan) (hd : DistinctIds engine.rules)
    (hrec : engine.recoveryMode = false)
    (hh : engine.handle host event = some (engine', plans)) :
    ∃ (outcomes : List (Rule × RuleOutcome)) (kept : List RankedPlan),
      engine.outcomes host event = some (engine'.runtime, outcomes) ∧
      plans.Sublist (candidates event outcomes) ∧
      kept.Sublist (rankedCandidates event outcomes) ∧ kept.map RankedPlan.plan = plans ∧
      (∀ ranked ∈ rankedCandidates event outcomes, ranked.conflictKey = none → ranked ∈ kept) ∧
      (∀ key ∈ (candidates event outcomes).filterMap (fun plan => plan.action.conflictKey),
        (plans.filterMap (fun plan => plan.action.conflictKey)).count key = 1) ∧
      (∀ ranked ∈ kept, ∀ key, ranked.conflictKey = some key →
        ∀ other ∈ rankedCandidates event outcomes, other.conflictKey = some key →
          other = ranked ∨ ranked.Before other) ∧
      kept.Pairwise RankedPlan.Before := by
  obtain ⟨outcomes, hout, hplans, hordered⟩ := handle_firstWins hd hrec hh
  have hkept : (firstWins RankedPlan.conflictKey [] (rankedCandidates event outcomes)).map
      RankedPlan.plan = plans := by
    rw [hplans, ← rankedCandidates_plan]
    exact map_firstWins (fun plan => plan.action.conflictKey) RankedPlan.plan [] _
  refine ⟨outcomes, firstWins RankedPlan.conflictKey [] (rankedCandidates event outcomes), hout,
    hplans ▸ firstWins_sublist [] _, firstWins_sublist [] _, hkept, ?_, ?_, ?_, ?_⟩
  · intro ranked hmem hkey
    exact mem_firstWins_keyless hmem hkey
  · intro key hkey
    rw [hplans]
    exact count_filterMap_firstWins hkey
  · intro ranked hmem key hkey other hother hokey
    exact before_of_mem_firstWins hordered hmem hkey hother hokey
  · exact hordered.sublist (firstWins_sublist [] _)

def lockdownRule (id : String) (priority : ℤ) (isolated : Bool) : Rule :=
  { testRule .tick with
    id := id
    priority := priority
    actions := [.notify id "matched" .normal, .networkIsolation isolated, .setMode id] }

def lockdownEngine : PolicyEngine :=
  .new [lockdownRule "c" 5 true, lockdownRule "b" 9 false, lockdownRule "a" 9 true] "normal" 0

/-- Three rules compete for the network and the mode: of the two with the
highest priority the smaller id keeps both, and every notification stays. -/
theorem handle_plans_conflict_free_lockdown :
    ∃ (engine' : PolicyEngine) (plans : List ActionPlan) (outcomes : List (Rule × RuleOutcome))
      (kept : List RankedPlan),
      lockdownEngine.handle bareHost (eventAt .tick 0) = some (engine', plans) ∧
      plans.map (fun plan => (plan.ruleId, plan.action)) =
        [("a", .notify "a" "matched" .normal), ("a", .networkIsolation true), ("a", .setMode "a"),
          ("b", .notify "b" "matched" .normal), ("c", .notify "c" "matched" .normal)] ∧
      kept.map RankedPlan.plan = plans ∧
      kept.Sublist (rankedCandidates (eventAt .tick 0) outcomes) ∧
      kept.Pairwise RankedPlan.Before := by
  have hhandle : ∃ engine' plans,
      lockdownEngine.handle bareHost (eventAt .tick 0) = some (engine', plans) ∧
      plans.map (fun plan => (plan.ruleId, plan.action)) =
        [("a", .notify "a" "matched" .normal), ("a", .networkIsolation true), ("a", .setMode "a"),
          ("b", .notify "b" "matched" .normal), ("c", .notify "c" "matched" .normal)] :=
    ⟨_, _, rfl, by decide⟩
  obtain ⟨engine', plans, hh, hplans⟩ := hhandle
  have hd : DistinctIds lockdownEngine.rules :=
    new_distinctIds (by simp [DistinctIds, lockdownRule]) _ _
  obtain ⟨outcomes, kept, _, _, hsub, hkept, _, _, _, hordered⟩ :=
    handle_plans_conflict_free lockdownEngine engine' bareHost (eventAt .tick 0) plans hd rfl hh
  exact ⟨engine', plans, outcomes, kept, hh, hplans, hkept, hsub, hordered⟩

end Kovert
