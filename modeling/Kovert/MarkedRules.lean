import Kovert.FailClosed
import Kovert.RateLimits
import Kovert.Conflicts

/-!
# Marked rules and their plans

`handle` marks a rule as fired when it appends the rule's actions, before
conflicts are resolved. A marked rule whose every action loses its conflict key
to another rule is marked all the same, and no plan of it is returned.
-/

namespace Kovert

open FirstWins

/-- The call sets `last_fired` or `fired_once` of the rule. -/
def MarksRule (engine engine' : PolicyEngine) (rule : Rule) : Prop :=
  (engine'.ruleRuntime rule.id).lastFired ≠ (engine.ruleRuntime rule.id).lastFired ∨
    (engine'.ruleRuntime rule.id).firedOnce ≠ (engine.ruleRuntime rule.id).firedOnce

/-- Every action of the rule has a conflict key, and a returned plan of another
rule of at least its priority holds it. -/
def Outranked (rule : Rule) (plans : List ActionPlan) : Prop :=
  ∀ action ∈ rule.actions, ∃ key, action.conflictKey = some key ∧
    ∃ plan ∈ plans, plan.action.conflictKey = some key ∧ plan.ruleId ≠ rule.id ∧
      rule.priority ≤ plan.priority

section

variable {engine engine' : PolicyEngine} {host : Host} {event : Event} {plans : List ActionPlan}
  {rule : Rule}

theorem MarksRule.fires (hmarks : MarksRule engine engine' rule) (hd : DistinctIds engine.rules)
    (hr : rule ∈ engine.rules) (hh : engine.handle host event = some (engine', plans)) :
    engine.Fires host event rule := by
  have hstep : engine.step (.handle host event) = some engine' := by
    rw [PolicyEngine.step, hh]
    rfl
  have hretains : RetainsRule rule engine (.handle host event) := trivial
  rcases step_marks hretains hd hr hstep with ⟨_, _, heq, hfires, _⟩ | ⟨_, hkept⟩
  · cases heq
    exact hfires
  · rcases hmarks with hlast | honce
    · exact absurd hkept.1 hlast
    · exact absurd hkept.2 honce

/-- What a firing rule has among the candidates: its actions. -/
theorem PolicyEngine.Fires.mem_candidates (hfires : engine.Fires host event rule)
    (hd : DistinctIds engine.rules)
    {runtime : RuntimeMap} {outcomes : List (Rule × RuleOutcome)}
    (hout : engine.outcomes host event = some (runtime, outcomes)) (plan : ActionPlan) :
    plan ∈ candidates event outcomes ∧ plan.ruleId = rule.id ↔
      ∃ action ∈ rule.actions, plan = ActionPlan.of rule event action := by
  obtain ⟨_, _, outcomes', hout', hmem⟩ := hfires
  rw [hout] at hout'
  cases hout'
  have hown : (candidates event outcomes).filter (fun plan => plan.ruleId = rule.id) =
      appendActions rule event :=
    candidates_filter ((evalRules_map_fst hout).symm ▸ hd) hmem
  have hfilter : plan ∈ (candidates event outcomes).filter (fun plan => plan.ruleId = rule.id) ↔
      plan ∈ appendActions rule event := by rw [hown]
  rw [List.mem_filter, decide_eq_true_iff, appendActions, List.mem_map] at hfilter
  simpa [eq_comm] using hfilter

theorem PolicyEngine.Fires.plan_iff (hfires : engine.Fires host event rule)
    (hd : DistinctIds engine.rules)
    (hh : engine.handle host event = some (engine', plans)) :
    (∃ plan ∈ plans, plan.ruleId = rule.id) ↔ ¬ Outranked rule plans := by
  obtain ⟨outcomes, hout, rfl, hordered⟩ := handle_firstWins hd hfires.1 hh
  constructor
  · rintro ⟨plan, hplan, hid⟩ houtranked
    have hcandidate := (firstWins_sublist [] _).subset hplan
    obtain ⟨action, haction, rfl⟩ := (hfires.mem_candidates hd hout plan).mp ⟨hcandidate, hid⟩
    obtain ⟨key, hkey, other, hother, hotherKey, hne, _⟩ := houtranked action haction
    have hsame := eq_of_mem_firstWins (k := key) hplan hkey hother hotherKey
    exact hne (hsame ▸ rfl)
  · intro houtranked
    by_contra hnone
    apply houtranked
    intro action haction
    have hcandidate := ((hfires.mem_candidates hd hout _).mpr ⟨action, haction, rfl⟩).1
    cases hkey : action.conflictKey with
    | none =>
        have hkept : ActionPlan.of rule event action ∈
            firstWins (fun plan => plan.action.conflictKey) [] (candidates event outcomes) :=
          mem_firstWins_keyless hcandidate hkey
        exact absurd ⟨_, hkept, rfl⟩ hnone
    | some key =>
        obtain ⟨other, hother, hotherKey⟩ :
            ∃ other ∈ firstWins (fun plan => plan.action.conflictKey) []
                (candidates event outcomes),
              other.action.conflictKey = some key := exists_mem_firstWins hcandidate hkey
        have hne : other.ruleId ≠ rule.id := fun hid => hnone ⟨other, hother, hid⟩
        refine ⟨key, rfl, other, hother, hotherKey, hne, ?_⟩
        rcases before_of_mem_firstWins (candidates_pairwise_priority hordered) hother hotherKey
          hcandidate hkey with hsame | hle
        · exact absurd (hsame ▸ rfl) hne
        · exact hle

end

/-- When a call marks a rule, the returned list has a plan of the rule unless the
rule is outranked, and then it has none. -/
theorem marked_rule_acts (parseTime : String → Option ℕ) (rules : List Rule)
    (hvalid : Accepted parseTime rules) (engine engine' : PolicyEngine)
    (hrules : engine.rules = sortRules rules) (host : Host) (event : Event)
    (plans : List ActionPlan) (hh : engine.handle host event = some (engine', plans))
    (rule : Rule) (hr : rule ∈ rules) (hmarks : MarksRule engine engine' rule) :
    (∃ plan ∈ plans, plan.ruleId = rule.id) ↔ ¬ Outranked rule plans := by
  have hd : DistinctIds engine.rules := hrules ▸ distinctIds_sortRules.mpr hvalid.distinctIds
  have hmem : rule ∈ engine.rules := hrules ▸ mem_sortRules.mpr hr
  exact (hmarks.fires hd hmem hh).plan_iff hd hh

def uplinkRule (id : String) (priority : ℤ) (enabled : Bool) : Rule :=
  { testRule .tick with
    id := id
    priority := priority
    oncePerBoot := true
    actions := [.networkIsolation enabled] }

def uplinkRules : List Rule := [uplinkRule "lift" 1 false, uplinkRule "isolate" 9 true]

/-- The rule with the higher priority is marked, and its plan is returned. -/
theorem marked_rule_acts_isolate :
    ∃ engine' plans, (PolicyEngine.new uplinkRules "normal" 0).handle bareHost
        (eventAt .tick 1) = some (engine', plans) ∧
      ∃ plan ∈ plans, plan.ruleId = "isolate" := by
  have hhandle : ∃ engine' plans, (PolicyEngine.new uplinkRules "normal" 0).handle bareHost
        (eventAt .tick 1) = some (engine', plans) ∧
      (engine'.ruleRuntime "isolate").firedOnce = true ∧
      plans.all (fun plan => plan.ruleId == "isolate") = true :=
    ⟨_, _, rfl, by decide +kernel, by decide +kernel⟩
  obtain ⟨engine', plans, hh, honce, hown⟩ := hhandle
  have hvalid : Accepted (fun _ => none) uplinkRules :=
    ⟨testConfig uplinkRules, rfl, by decide +kernel⟩
  have hmarks : MarksRule (PolicyEngine.new uplinkRules "normal" 0) engine'
      (uplinkRule "isolate" 9 true) := by
    right
    rw [PolicyEngine.new_ruleRuntime]
    exact fun hsame => absurd (honce.symm.trans hsame) (by decide)
  refine ⟨engine', plans, hh, (marked_rule_acts _ uplinkRules hvalid _ engine' rfl bareHost _
    plans hh (uplinkRule "isolate" 9 true) (by simp [uplinkRules]) hmarks).mpr ?_⟩
  intro houtranked
  obtain ⟨_, _, plan, hplan, _, hother, _⟩ := houtranked _ (List.mem_singleton_self _)
  exact hother (beq_iff_eq.mp (List.all_eq_true.mp hown plan hplan))

/-- The rule with the lower priority is used up for the whole boot, without a plan. -/
theorem outranked_rule_marked :
    Accepted (fun _ => none) uplinkRules ∧
      ∃ engine' plans, (PolicyEngine.new uplinkRules "normal" 0).handle bareHost
          (eventAt .tick 1) = some (engine', plans) ∧
        ((PolicyEngine.new uplinkRules "normal" 0).ruleRuntime "lift").firedOnce = false ∧
        (engine'.ruleRuntime "lift").firedOnce = true ∧
        ¬ ∃ plan ∈ plans, plan.ruleId = "lift" := by
  refine ⟨⟨testConfig uplinkRules, rfl, by decide +kernel⟩, _, _, rfl, ?_, ?_, ?_⟩
  · rw [PolicyEngine.new_ruleRuntime]
    rfl
  · decide +kernel
  · decide +kernel

end Kovert
