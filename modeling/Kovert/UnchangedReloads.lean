import Kovert.RuleLists

/-!
# Reloads that change nothing

A reload of the rules that are in force, in whatever order the policy file lists
them now, is invisible to the rules: no partial sequence, no sustained condition,
no cooldown and no firing is lost. Such reloads can be left out of any run.
-/

namespace Kovert

open Execution

/-- The reload carries the rules in force. -/
def UnchangedReload : PolicyEngine → EngineOp → Prop
  | engine, .replaceRules rules => rules.Perm engine.rules
  | _, _ => False

/-- An id without a rule has no record of its own. -/
def TidyRecords (engine : PolicyEngine) : Prop :=
  DistinctIds engine.rules ∧
    ∀ id, id ∉ engine.rules.map (·.id) → engine.ruleRuntime id = .default

/-- What validation guarantees of a reload. -/
def EngineOp.DistinctRules (op : EngineOp) : Prop :=
  ∀ rules, op = .replaceRules rules → DistinctIds rules

theorem new_tidyRecords {rules : List Rule} (hd : DistinctIds rules) (mode : String)
    (now : Timestamp) : TidyRecords (.new rules mode now) :=
  ⟨new_distinctIds hd mode now, fun _ _ => PolicyEngine.new_ruleRuntime _ _ _ _⟩

theorem step_tidyRecords {engine next : PolicyEngine} {op : EngineOp} (hop : op.DistinctRules)
    (h : TidyRecords engine) (hs : engine.step op = some next) : TidyRecords next := by
  cases op with
  | handle host event =>
      obtain ⟨plans, hh⟩ := step_handle hs
      have hrules := (PolicyEngine.handle_frame hh).1
      refine ⟨hrules ▸ h.1, fun id hid => ?_⟩
      rw [hrules] at hid
      rw [PolicyEngine.handle_ruleRuntime_notMem hh hid, h.2 id hid]
  | setMode mode =>
      cases hs
      exact h
  | setRecoveryMode enabled =>
      cases hs
      refine ⟨h.1, fun id hid => ?_⟩
      rw [PolicyEngine.setRecoveryMode_ruleRuntime, h.2 id hid]
      cases enabled <;> rfl
  | replaceRules rules =>
      cases hs
      have hd : DistinctIds rules := hop rules rfl
      refine ⟨distinctIds_sortRules.mpr hd, fun id hid => ?_⟩
      apply PolicyEngine.replaceRules_ruleRuntime_notMem
      rwa [← ((sortRules_perm rules).map (·.id)).mem_iff]

theorem step_eq_call (engine : PolicyEngine) (op : EngineOp) :
    engine.step op = (engine.call op).map Prod.fst := by
  cases op <;> rfl

/-- Engines that are alike stay alike under the same operation. -/
theorem Alike.step {left right next : PolicyEngine} {op : EngineOp} (h : Alike left right)
    (hop : op.DistinctRules) (hs : left.step op = some next) :
    ∃ next', right.step op = some next' ∧ Alike next next' := by
  have hsame : SameAnswer Alike (left.call op) (right.call op) := by
    cases op with
    | replaceRules rules => exact .some ⟨h.reload (List.Perm.refl rules) (hop rules rfl), rfl⟩
    | _ => exact h.call trivial
  rw [step_eq_call] at hs
  obtain ⟨answer, hanswer, rfl⟩ := Option.map_eq_some_iff.mp hs
  rw [hanswer] at hsame
  rw [step_eq_call]
  generalize right.call op = result at hsame ⊢
  cases hsame with
  | some hpair => exact ⟨_, rfl, hpair.1⟩

/-- The idle step: an engine after an unchanged reload is like the one before. -/
theorem Alike.unchanged {left right next : PolicyEngine} {op : EngineOp}
    (hop : UnchangedReload left op) (htidy : TidyRecords left) (h : Alike left right)
    (hs : left.step op = some next) : Alike next right := by
  cases op with
  | replaceRules rules =>
      cases hs
      have hperm : rules.Perm left.rules := hop
      have hd : DistinctIds rules := (hperm.map _).nodup_iff.mpr htidy.1
      have hsorted : sortRules rules = left.rules :=
        (sortRules_congr hperm hd).trans left.sorted.insertionSort_eq
      refine ⟨?_, ?_, h.recovery_eq, h.snapshot_eq⟩
      · change (sortRules rules).filter _ = _
        rw [hsorted]
        exact h.enabled_eq
      · rw [← h.record_eq]
        funext id
        by_cases hid : id ∈ rules.map (·.id)
        · obtain ⟨rule, hr, rfl⟩ := List.mem_map.mp hid
          rw [PolicyEngine.replaceRules_ruleRuntime _ hd hr]
        · rw [PolicyEngine.replaceRules_ruleRuntime_notMem _ hid]
          rw [(hperm.map _).mem_iff] at hid
          exact (htidy.2 id hid).symm
  | _ => exact hop.elim

/-- A run and the same run without some of its unchanged reloads end in engines
that answer everything alike from then on. -/
theorem unchanged_reloads_invisible (rules : List Rule) (mode : String) (now : Timestamp)
    (ops ops' : List EngineOp) (left : PolicyEngine) (hd : DistinctIds rules)
    (hops : ∀ op ∈ ops, op.DistinctRules)
    (hthinned : Thinned PolicyEngine.step UnchangedReload (.new rules mode now) ops ops')
    (hrun : run PolicyEngine.step (.new rules mode now) ops = some left) :
    ∃ right, run PolicyEngine.step (.new rules mode now) ops' = some right ∧
      ∀ later : List EngineOp, (∀ op ∈ later, op.DistinctRules) →
        left.planLists later = right.planLists later := by
  have hself : Alike (.new rules mode now) (.new rules mode now) := .of_new rfl mode now now
  obtain ⟨right, hright, halike⟩ := run_thinned (P := TidyRecords) (R := Alike)
    (fun _ _ _ hop h hs => step_tidyRecords hop h hs)
    (fun _ _ _ _ hop _ h hs => h.step hop hs)
    (fun _ _ _ _ hop htidy h hs => h.unchanged hop htidy hs) hthinned hops
    (new_tidyRecords hd mode now) hself hrun
  refine ⟨right, hright, fun later hlater => ?_⟩
  have hlabels : List.Forall₂ SameRequest later later := by
    refine List.forall₂_same.mpr fun op hop => ?_
    cases op with
    | replaceRules rules =>
        exact .reload rules rules (List.Perm.refl rules) (hlater _ hop rules rfl)
    | _ => exact .same _ trivial
  refine answers_eq (R := Alike) ?_ hlabels halike
  intro left right op op' h hop
  cases hop with
  | same op hop => exact h.call hop
  | reload rules rules' hperm hd => exact .some ⟨h.reload hperm hd, rfl⟩

def stagedRules : List Rule := [manualSequence ["a", "b"], lockdownRule "b" 9 false]

/-- The policy file is reordered and reloaded between the two steps of its sequence. -/
theorem unchanged_reloads_invisible_staged : ∃ left right,
    run PolicyEngine.step (.new stagedRules "normal" 0)
        [.handle bareHost (eventAt (.manual "a") 0), .replaceRules stagedRules.reverse] =
          some left ∧
      run PolicyEngine.step (.new stagedRules "normal" 0)
        [.handle bareHost (eventAt (.manual "a") 0)] = some right ∧
      left.planLists [.handle bareHost (eventAt (.manual "b") 1)] =
        right.planLists [.handle bareHost (eventAt (.manual "b") 1)] ∧
      (left.planLists [.handle bareHost (eventAt (.manual "b") 1)]).map (Option.map List.length) =
        [some 1] := by
  have hd : DistinctIds stagedRules := by
    simp [DistinctIds, stagedRules, manualSequence, testRule, lockdownRule]
  have hperm : stagedRules.reverse.Perm stagedRules := List.reverse_perm _
  have hplans : (run PolicyEngine.step (.new stagedRules "normal" 0)
      [.handle bareHost (eventAt (.manual "a") 0), .replaceRules stagedRules.reverse]).map
        (fun left => (left.planLists [.handle bareHost (eventAt (.manual "b") 1)]).map
          (Option.map List.length)) = some [some 1] := by decide +kernel
  obtain ⟨left, hrun, hlength⟩ := Option.map_eq_some_iff.mp hplans
  obtain ⟨middle, hmiddle, hreload⟩ := Option.bind_eq_some_iff.mp hrun
  have hrules : middle.rules = sortRules stagedRules := by
    obtain ⟨plans, hh⟩ := step_handle hmiddle
    exact (PolicyEngine.handle_frame hh).1
  have hops : ∀ op ∈ ([.handle bareHost (eventAt (.manual "a") 0),
      .replaceRules stagedRules.reverse] : List EngineOp), op.DistinctRules := by
    intro op hop rules heq
    subst heq
    simp only [List.mem_cons, reduceCtorEq, List.not_mem_nil, or_false, false_or,
      EngineOp.replaceRules.injEq] at hop
    exact hop ▸ (hperm.map _).nodup_iff.mpr hd
  have hthinned : Thinned PolicyEngine.step UnchangedReload (.new stagedRules "normal" 0)
      [.handle bareHost (eventAt (.manual "a") 0), .replaceRules stagedRules.reverse]
      [.handle bareHost (eventAt (.manual "a") 0)] := by
    refine .kept hmiddle (.left ?_ rfl (.done _))
    change stagedRules.reverse.Perm middle.rules
    rw [hrules]
    exact hperm.trans (sortRules_perm stagedRules).symm
  obtain ⟨right, hright, hlater⟩ :=
    unchanged_reloads_invisible stagedRules "normal" 0 _ _ left hd hops hthinned hrun
  refine ⟨left, right, hrun, hright, hlater _ fun op hop rules heq => ?_, hlength⟩
  rw [List.mem_singleton.mp hop] at heq
  cases heq

end Kovert
