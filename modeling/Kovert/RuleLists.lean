import Kovert.Conflicts
import Kovert.Runs
import Kovert.Foundations.StableSort
import Kovert.Foundations.TwoRuns

/-!
# What the engine sees of its rule list

The engine reads its rules through a sort and a loop that skips the disabled
ones. Two engines that show the same enabled rules in the same order, and agree
on the records, the recovery flag and the snapshot, answer every call alike.
The clock of the snapshot may differ: each event overwrites it before it is
read.
-/

namespace Kovert

open Execution

/-- What a caller of the rule loop sees: the record of every id, and the candidates. -/
def loopView (event : Event) (result : RuntimeMap × List (Rule × RuleOutcome)) :
    (String → RuleRuntime) × List ActionPlan :=
  (result.1.get, candidates event result.2)

/-- One call of the engine's interface with the plans it returns; only `handle` returns any. -/
def PolicyEngine.call (engine : PolicyEngine) : EngineOp → Option (PolicyEngine × List ActionPlan)
  | .handle host event => engine.handle host event
  | op => (engine.step op).map (fun next => (next, []))

/-- The plan lists that successive calls return. -/
def PolicyEngine.planLists (engine : PolicyEngine) (ops : List EngineOp) :
    List (Option (List ActionPlan)) :=
  answers PolicyEngine.call engine ops

/-- The two engines agree on all that a call can tell. -/
structure Alike (left right : PolicyEngine) : Prop where
  enabled_eq : left.rules.filter (·.enabled) = right.rules.filter (·.enabled)
  record_eq : left.ruleRuntime = right.ruleRuntime
  recovery_eq : left.recoveryMode = right.recoveryMode
  snapshot_eq : { left.snapshot with now := right.snapshot.now } = right.snapshot

/-! ## The loop skips disabled rules -/

theorem evalRule_disabled {host : Host} {snapshot : SystemSnapshot} {event : Event} {rule : Rule}
    {runtime : RuleRuntime} (h : rule.enabled = false) :
    evalRule host snapshot event rule runtime = some (runtime, .skipped) := by
  simp [evalRule, h]

/-- The loop over a list looks like the loop over its enabled rules. -/
theorem evalRules_view {host : Host} {snapshot : SystemSnapshot} {event : Event}
    (rules : List Rule) {runtime runtime' : RuntimeMap} (h : runtime.get = runtime'.get) :
    (evalRules host snapshot event rules runtime).map (loopView event) =
      (evalRules host snapshot event (rules.filter (·.enabled)) runtime').map (loopView event) := by
  induction rules generalizing runtime runtime' with
  | nil => simp [evalRules, loopView, h]
  | cons rule rules ih =>
      cases he : rule.enabled with
      | false =>
          rw [List.filter_cons_of_neg (by simp [he]), ← ih h, evalRules, evalRule_disabled he]
          simp only [he, Option.map_map, Bool.false_eq_true, if_false]
          congr 1
      | true =>
          rw [List.filter_cons_of_pos he, evalRules, evalRules, h]
          cases evalRule host snapshot event rule (runtime'.get rule.id) with
          | none => rfl
          | some result =>
              obtain ⟨state, outcome⟩ := result
              have hnext : RuntimeMap.get (Function.update runtime rule.id (some state)) =
                  RuntimeMap.get (Function.update runtime' rule.id (some state)) := by
                funext id
                by_cases hid : id = rule.id
                · rw [hid, RuntimeMap.get_update_self, RuntimeMap.get_update_self]
                · rw [RuntimeMap.get_update_ne _ hid, RuntimeMap.get_update_ne _ hid, h]
              have htail := congrArg
                (Option.map (fun view => (view.1, outcome.plans rule event ++ view.2))) (ih hnext)
              simpa only [he, if_true, Option.map_map, Function.comp_def, loopView, candidates,
                List.flatMap_cons] using htail

/-! ## One call -/

theorem Alike.apply_eq {left right : PolicyEngine} (h : Alike left right) (event : Event) :
    left.snapshot.apply event = right.snapshot.apply event := by
  rw [← h.snapshot_eq]
  rfl

theorem Alike.outcomes_eq {left right : PolicyEngine} (h : Alike left right) (host : Host)
    (event : Event) :
    (left.outcomes host event).map (loopView event) =
      (right.outcomes host event).map (loopView event) := by
  rw [PolicyEngine.outcomes, PolicyEngine.outcomes, evalRules_view left.rules h.record_eq,
    evalRules_view right.rules rfl, h.enabled_eq, h.apply_eq]

theorem Alike.handle {left right : PolicyEngine} (h : Alike left right) (host : Host)
    (event : Event) :
    SameAnswer Alike (left.handle host event) (right.handle host event) := by
  have hsnapshot : { left.snapshot.apply event with now := (right.snapshot.apply event).now } =
      right.snapshot.apply event := by
    rw [h.apply_eq]
  cases hrec : left.recoveryMode with
  | true =>
      rw [PolicyEngine.handle_recovery hrec, PolicyEngine.handle_recovery (h.recovery_eq ▸ hrec)]
      exact .some ⟨⟨h.enabled_eq, h.record_eq, h.recovery_eq, hsnapshot⟩, rfl⟩
  | false =>
      have hview := h.outcomes_eq host event
      simp only [PolicyEngine.handle, hrec, h.recovery_eq ▸ hrec, Bool.false_eq_true, if_false]
      generalize left.outcomes host event = first at hview ⊢
      generalize right.outcomes host event = second at hview ⊢
      cases first with
      | none =>
          cases second with
          | none => exact .none
          | some _ => cases hview
      | some first =>
          cases second with
          | none => cases hview
          | some second =>
              obtain ⟨hrecords, hplans⟩ := Prod.mk.inj (Option.some.inj hview)
              exact .some ⟨⟨h.enabled_eq, hrecords, rfl, hsnapshot⟩,
                congrArg resolveConflicts hplans⟩

theorem Alike.call {left right : PolicyEngine} (h : Alike left right) {op : EngineOp}
    (hop : op.KeepsRules) : SameAnswer Alike (left.call op) (right.call op) := by
  cases op with
  | handle host event => exact h.handle host event
  | setMode mode =>
      have hsnapshot := congrArg (fun snapshot => { snapshot with mode := mode }) h.snapshot_eq
      exact .some ⟨⟨h.enabled_eq, h.record_eq, h.recovery_eq, hsnapshot⟩, rfl⟩
  | setRecoveryMode enabled =>
      refine .some ⟨⟨h.enabled_eq, ?_, rfl, h.snapshot_eq⟩, rfl⟩
      funext id
      rw [PolicyEngine.setRecoveryMode_ruleRuntime, PolicyEngine.setRecoveryMode_ruleRuntime,
        h.record_eq]
  | replaceRules rules => exact hop.elim

/-- Fresh engines are alike when their sorted lists show the same enabled rules. -/
theorem Alike.of_new {rules rules' : List Rule}
    (h : (sortRules rules).filter (·.enabled) = (sortRules rules').filter (·.enabled))
    (mode : String) (now now' : Timestamp) :
    Alike (.new rules mode now) (.new rules' mode now') where
  enabled_eq := h
  record_eq := by
    funext id
    rw [PolicyEngine.new_ruleRuntime, PolicyEngine.new_ruleRuntime]
  recovery_eq := rfl
  snapshot_eq := rfl

/-! ## The order of the policy file -/

/-- Rules with distinct ids have one sorted order. -/
theorem sortRules_congr {rules rules' : List Rule} (h : rules.Perm rules')
    (hd : DistinctIds rules) : sortRules rules = sortRules rules' := by
  refine StableSort.insertionSort_congr h ?_
  intro left hl right hr hle hge
  have hid : left.id = right.id := by
    rcases ruleCmp_isLE.mp hle with hlt | ⟨heq, hle⟩
    · rcases ruleCmp_isLE.mp hge with hlt' | ⟨heq', _⟩
      · exact absurd hlt' hlt.asymm
      · exact absurd heq' hlt.ne'
    · rcases ruleCmp_isLE.mp hge with hlt' | ⟨_, hge⟩
      · exact absurd heq hlt'.ne'
      · exact hle.antisymm hge
  exact List.inj_on_of_nodup_map hd hl hr hid

/-- The same operation, or two reloads with the same rules in another order. -/
inductive SameRequest : EngineOp → EngineOp → Prop where
  | same (op : EngineOp) (hop : op.KeepsRules) : SameRequest op op
  | reload (rules rules' : List Rule) (hperm : rules.Perm rules') (hd : DistinctIds rules) :
      SameRequest (.replaceRules rules) (.replaceRules rules')

theorem Alike.reload {left right : PolicyEngine} (h : Alike left right) {rules rules' : List Rule}
    (hperm : rules.Perm rules') (hd : DistinctIds rules) :
    Alike (left.replaceRules rules) (right.replaceRules rules') where
  enabled_eq := congrArg (List.filter (·.enabled)) (sortRules_congr hperm hd)
  record_eq := by
    have hd' : DistinctIds rules' := (hperm.map _).nodup_iff.mp hd
    funext id
    by_cases hid : id ∈ rules.map (·.id)
    · obtain ⟨rule, hr, rfl⟩ := List.mem_map.mp hid
      rw [PolicyEngine.replaceRules_ruleRuntime _ hd hr,
        PolicyEngine.replaceRules_ruleRuntime _ hd' (hperm.mem_iff.mp hr), h.record_eq]
    · have hid' : id ∉ rules'.map (·.id) := by rwa [← (hperm.map _).mem_iff]
      rw [PolicyEngine.replaceRules_ruleRuntime_notMem _ hid,
        PolicyEngine.replaceRules_ruleRuntime_notMem _ hid']
  recovery_eq := h.recovery_eq
  snapshot_eq := h.snapshot_eq

/-- The plans do not depend on the order in which a policy file lists its rules. -/
theorem planLists_order_independent (rules rules' : List Rule) (mode : String)
    (now now' : Timestamp) (ops ops' : List EngineOp) (hd : DistinctIds rules)
    (hperm : rules.Perm rules') (hops : List.Forall₂ SameRequest ops ops') :
    (PolicyEngine.new rules mode now).planLists ops =
      (PolicyEngine.new rules' mode now').planLists ops' := by
  have hnew : Alike (.new rules mode now) (.new rules' mode now') :=
    .of_new (by rw [sortRules_congr hperm hd]) mode now now'
  refine answers_eq (R := Alike) ?_ hops hnew
  intro left right op op' h hop
  cases hop with
  | same op hop => exact h.call hop
  | reload rules rules' hperm hd => exact .some ⟨h.reload hperm hd, rfl⟩

def lockdownFile : List Rule := [lockdownRule "c" 5 true, lockdownRule "b" 9 false]

/-- An event, a reload of the rules, and another event. -/
def reloadOps (rules : List Rule) : List EngineOp :=
  [.handle bareHost (eventAt .tick 0), .replaceRules rules, .handle bareHost (eventAt .tick 1)]

/-- A file and its reverse, before and after a reload. -/
theorem planLists_order_independent_lockdown :
    (PolicyEngine.new lockdownFile "normal" 0).planLists (reloadOps lockdownFile) =
        (PolicyEngine.new lockdownFile.reverse "normal" 9).planLists
          (reloadOps lockdownFile.reverse) ∧
      ((PolicyEngine.new lockdownFile "normal" 0).planLists (reloadOps lockdownFile)).map
        (Option.map List.length) = [some 4, some 0, some 4] := by
  have hd : DistinctIds lockdownFile := by simp [DistinctIds, lockdownFile, lockdownRule]
  have hperm : lockdownFile.Perm lockdownFile.reverse := (List.reverse_perm _).symm
  constructor
  · refine planLists_order_independent _ _ _ _ _ _ _ hd hperm ?_
    exact .cons (.same _ trivial) (.cons (.reload _ _ hperm hd) (.cons (.same _ trivial) .nil))
  · decide +kernel

end Kovert
