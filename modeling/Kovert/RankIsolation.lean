import Kovert.Foundations.StableSort
import Kovert.RuleIsolation

/-!
# Stronger rules are undisturbed

What rules of lower priority do, in whatever number, is invisible in the plans of
the stronger ones: these come first, and they are what an engine without the
weaker rules returns. The two engines are run side by side, reloads included.
-/

namespace Kovert

open Execution FirstWins

/-- The rules of at least this priority. -/
def strongRules (bar : ℤ) (rules : List Rule) : List Rule :=
  rules.filter (fun rule => bar ≤ rule.priority)

/-- The same operation for an engine that has only the strong rules. -/
def EngineOp.strong (bar : ℤ) : EngineOp → EngineOp
  | .replaceRules rules => .replaceRules (strongRules bar rules)
  | op => op

/-- The rules have distinct ids, and these ids are those of the strong ones among them. -/
def Ranked (bar : ℤ) (ids : String → Prop) (rules : List Rule) : Prop :=
  DistinctIds rules ∧ ∀ rule ∈ rules, ids rule.id ↔ bar ≤ rule.priority

/-- The weaker rules come on top of an engine with the strong ones. -/
structure Extends (bar : ℤ) (ids : String → Prop) (strong full : PolicyEngine) : Prop where
  rules_eq : strong.rules = strongRules bar full.rules
  ranked : Ranked bar ids full.rules
  record_eq : ∀ id, ids id → strong.ruleRuntime id = full.ruleRuntime id
  snapshot_eq : strong.snapshot = full.snapshot
  recovery_eq : strong.recoveryMode = full.recoveryMode

variable {bar : ℤ} {ids : String → Prop}

theorem mem_strongRules {rules : List Rule} {rule : Rule} :
    rule ∈ strongRules bar rules ↔ rule ∈ rules ∧ bar ≤ rule.priority := by
  rw [strongRules, List.mem_filter, decide_eq_true_iff]

theorem Ranked.strong_id {rules : List Rule} (h : Ranked bar ids rules) {rule : Rule}
    (hr : rule ∈ strongRules bar rules) : ids rule.id := by
  obtain ⟨hmem, hbar⟩ := mem_strongRules.mp hr
  exact (h.2 rule hmem).mpr hbar

theorem distinctIds_strongRules {rules : List Rule} (h : DistinctIds rules) :
    DistinctIds (strongRules bar rules) :=
  h.sublist (List.filter_sublist.map _)

theorem sortRules_strongRules (rules : List Rule) :
    sortRules (strongRules bar rules) = strongRules bar (sortRules rules) :=
  (StableSort.filter_insertionSort _ rules).symm

theorem ranked_sortRules {rules : List Rule} (h : Ranked bar ids rules) :
    Ranked bar ids (sortRules rules) :=
  ⟨distinctIds_sortRules.mpr h.1, fun rule hr => h.2 rule (mem_sortRules.mp hr)⟩

/-- The strong rules of an engine are in front of the weak ones. -/
theorem PolicyEngine.rules_split (engine : PolicyEngine) (bar : ℤ) :
    strongRules bar engine.rules ++ engine.rules.filter (fun rule => !decide (bar ≤ rule.priority)) =
      engine.rules := by
  refine StableSort.passing_first engine.sorted ?_
  intro left _ right _ hle hright
  rw [decide_eq_true_iff] at hright ⊢
  rcases ruleCmp_isLE.mp hle with hlt | ⟨heq, _⟩
  · exact hright.trans hlt.le
  · exact heq ▸ hright

/-! ## The rule loop -/

theorem evalRules_append (host : Host) (snapshot : SystemSnapshot) (event : Event)
    (rules rest : List Rule) (runtime : RuntimeMap) :
    evalRules host snapshot event (rules ++ rest) runtime =
      (evalRules host snapshot event rules runtime).bind (fun first =>
        (evalRules host snapshot event rest first.1).map (fun second =>
          (second.1, first.2 ++ second.2))) := by
  induction rules generalizing runtime with
  | nil => simp [evalRules]
  | cons rule rules ih =>
      rw [List.cons_append, evalRules, evalRules]
      cases evalRule host snapshot event rule (runtime.get rule.id) with
      | none => rfl
      | some result =>
          obtain ⟨state, outcome⟩ := result
          simp only [ih, Option.map_bind, Option.bind_map]
          refine congrArg _ (funext fun first => ?_)
          simp only [Function.comp_apply, Option.map_map]
          rfl

/-- The loop reads and writes the records of its own rules only. -/
theorem evalRules_records {host : Host} {snapshot : SystemSnapshot} {event : Event}
    {rules : List Rule} {runtime runtime' next : RuntimeMap} {outcomes : List (Rule × RuleOutcome)}
    (hids : ∀ rule ∈ rules, ids rule.id) (hsame : ∀ id, ids id → runtime.get id = runtime'.get id)
    (h : evalRules host snapshot event rules runtime' = some (next, outcomes)) :
    ∃ strong, evalRules host snapshot event rules runtime = some (strong, outcomes) ∧
      ∀ id, ids id → strong.get id = next.get id := by
  induction rules generalizing runtime runtime' outcomes with
  | nil =>
      cases h
      exact ⟨runtime, rfl, hsame⟩
  | cons rule rules ih =>
      rw [evalRules] at h
      rw [evalRules, hsame rule.id (hids rule List.mem_cons_self)]
      cases heval : evalRule host snapshot event rule (runtime'.get rule.id) with
      | none =>
          rw [heval] at h
          cases h
      | some result =>
          obtain ⟨state, outcome⟩ := result
          rw [heval] at h
          obtain ⟨⟨reached, tail⟩, htail, heq⟩ := Option.map_eq_some_iff.mp h
          cases heq
          have hupdate : ∀ id, ids id →
              RuntimeMap.get (if rule.enabled then Function.update runtime rule.id (some state)
                else runtime) id =
              RuntimeMap.get (if rule.enabled then Function.update runtime' rule.id (some state)
                else runtime') id := by
            intro id hid
            by_cases henabled : rule.enabled = true
            · simp only [henabled, if_true]
              by_cases heq : id = rule.id
              · rw [heq, RuntimeMap.get_update_self, RuntimeMap.get_update_self]
              · rw [RuntimeMap.get_update_ne _ heq, RuntimeMap.get_update_ne _ heq, hsame id hid]
            · simp only [henabled, Bool.false_eq_true, if_false]
              exact hsame id hid
          obtain ⟨strong, hstrong, hrecords⟩ :=
            ih (fun other hother => hids other (List.mem_cons_of_mem rule hother)) hupdate htail
          exact ⟨strong, by simp only [hstrong, Option.map_some], hrecords⟩

theorem plans_priority {rule : Rule} {event : Event} {outcome : RuleOutcome} {plan : ActionPlan}
    (h : plan ∈ outcome.plans rule event) : plan.priority = rule.priority := by
  rw [← rankedPlans_plan] at h
  obtain ⟨ranked, hranked, rfl⟩ := List.mem_map.mp h
  exact (mem_rankedPlans hranked).2

theorem candidates_priority {event : Event} {outcomes : List (Rule × RuleOutcome)}
    {plan : ActionPlan} (h : plan ∈ candidates event outcomes) :
    ∃ rule ∈ outcomes.map Prod.fst, plan.priority = rule.priority := by
  obtain ⟨entry, hentry, hplan⟩ := List.mem_flatMap.mp h
  exact ⟨entry.1, List.mem_map_of_mem hentry, plans_priority hplan⟩

/-- The weak candidates come last and only add plans of their own. -/
theorem resolveConflicts_append {strong weak : List ActionPlan}
    (hordered : (strong ++ weak).Pairwise (fun left right => right.priority ≤ left.priority))
    (hstrong : ∀ plan ∈ strong, bar ≤ plan.priority) (hweak : ∀ plan ∈ weak, plan.priority < bar) :
    resolveConflicts strong <+: resolveConflicts (strong ++ weak) ∧
      resolveConflicts strong =
        (resolveConflicts (strong ++ weak)).filter (fun plan => bar ≤ plan.priority) := by
  rw [resolveConflicts_eq hordered, resolveConflicts_eq (List.pairwise_append.mp hordered).1]
  obtain ⟨claimed, heq⟩ : ∃ claimed,
      firstWins (fun plan : ActionPlan => plan.action.conflictKey) [] (strong ++ weak) =
        firstWins (fun plan => plan.action.conflictKey) [] strong ++
          firstWins (fun plan => plan.action.conflictKey) claimed weak :=
    firstWins_append [] strong weak
  have hkept : ∀ plan ∈ firstWins (fun plan : ActionPlan => plan.action.conflictKey) [] strong,
      decide (bar ≤ plan.priority) = true :=
    fun plan hplan => decide_eq_true (hstrong plan ((firstWins_sublist [] strong).subset hplan))
  have hdropped : ∀ plan ∈ firstWins (fun plan : ActionPlan => plan.action.conflictKey) claimed weak,
      ¬ decide (bar ≤ plan.priority) = true := by
    intro plan hplan hbar
    have hlt := hweak plan ((firstWins_sublist claimed weak).subset hplan)
    exact absurd (of_decide_eq_true hbar) (not_le.mpr hlt)
  rw [heq]
  refine ⟨List.prefix_append _ _, ?_⟩
  rw [List.filter_append, List.filter_eq_self.mpr hkept, List.filter_eq_nil_iff.mpr hdropped,
    List.append_nil]

/-! ## One call -/

/-- What the engine with all rules answers contains what the strong one answers. -/
theorem Extends.handle {strong full next : PolicyEngine} {host : Host} {event : Event}
    {plans : List ActionPlan} (h : Extends bar ids strong full)
    (hh : full.handle host event = some (next, plans)) :
    ∃ strongNext strongPlans, strong.handle host event = some (strongNext, strongPlans) ∧
      Extends bar ids strongNext next ∧ strongPlans <+: plans ∧
      strongPlans = plans.filter (fun plan => bar ≤ plan.priority) := by
  obtain ⟨hrules, hrecovery, hsnapshot⟩ := PolicyEngine.handle_frame hh
  cases hrec : full.recoveryMode with
  | true =>
      have hstrong : strong.recoveryMode = true := h.recovery_eq.trans hrec
      rw [PolicyEngine.handle_recovery hrec] at hh
      cases hh
      refine ⟨_, _, PolicyEngine.handle_recovery hstrong host event, ?_, List.prefix_rfl, rfl⟩
      exact ⟨h.rules_eq, h.ranked, h.record_eq, congrArg (·.apply event) h.snapshot_eq,
        h.recovery_eq⟩
  | false =>
      obtain ⟨outcomes, hout, rfl⟩ := PolicyEngine.handle_active hrec hh
      have hordered := candidates_ordered h.ranked.1 hout
      have hsplit := full.rules_split bar
      rw [PolicyEngine.outcomes, ← hsplit, evalRules_append] at hout
      obtain ⟨⟨runtime, first⟩, hfirst, hrest⟩ := Option.bind_eq_some_iff.mp hout
      obtain ⟨⟨runtime', second⟩, hsecond, heq⟩ := Option.map_eq_some_iff.mp hrest
      obtain ⟨rfl, rfl⟩ := Prod.mk.inj heq
      -- the weak rules leave the records of the strong ones alone
      have hkept : ∀ id, ids id → next.ruleRuntime id = RuntimeMap.get runtime id := by
        intro id hid
        refine evalRules_get_notMem hsecond fun hweak => ?_
        obtain ⟨rule, hrule, rfl⟩ := List.mem_map.mp hweak
        obtain ⟨hmem, hbelow⟩ := List.mem_filter.mp hrule
        have hbar := (h.ranked.2 rule hmem).mp hid
        simp [hbar] at hbelow
      obtain ⟨reached, hreached, hrecords⟩ :=
        evalRules_records (fun rule => h.ranked.strong_id) h.record_eq hfirst
      have houtcomes : strong.outcomes host event = some (reached, first) := by
        rw [PolicyEngine.outcomes, h.rules_eq, h.snapshot_eq]
        exact hreached
      have hhandle : strong.handle host event = some ({ strong with
          snapshot := strong.snapshot.apply event, runtime := reached },
          resolveConflicts (candidates event first)) := by
        simp only [PolicyEngine.handle, h.recovery_eq.trans hrec, Bool.false_eq_true, if_false,
          houtcomes]
      have hcandidates : candidates event (first ++ second) =
          candidates event first ++ candidates event second := List.flatMap_append
      rw [hcandidates] at hordered ⊢
      have habove : ∀ plan ∈ candidates event first, bar ≤ plan.priority := by
        intro plan hplan
        obtain ⟨rule, hrule, hpriority⟩ := candidates_priority hplan
        rw [evalRules_map_fst hfirst] at hrule
        rw [hpriority]
        exact (mem_strongRules.mp hrule).2
      have hbelow : ∀ plan ∈ candidates event second, plan.priority < bar := by
        intro plan hplan
        obtain ⟨rule, hrule, hpriority⟩ := candidates_priority hplan
        rw [evalRules_map_fst hsecond] at hrule
        rw [hpriority]
        simpa using (List.mem_filter.mp hrule).2
      obtain ⟨hfront, hfilter⟩ := resolveConflicts_append hordered habove hbelow
      refine ⟨_, _, hhandle, ?_, hfront, hfilter⟩
      refine ⟨by rw [hrules]; exact h.rules_eq, by rw [hrules]; exact h.ranked, ?_, ?_, ?_⟩
      · intro id hid
        exact (hrecords id hid).trans (hkept id hid).symm
      · rw [hsnapshot]
        exact congrArg (·.apply event) h.snapshot_eq
      · rw [hrecovery]
        exact h.recovery_eq

theorem extends_replaceRules {strong full : PolicyEngine} (h : Extends bar ids strong full)
    {rules : List Rule} (hrules : Ranked bar ids rules) :
    Extends bar ids (strong.replaceRules (strongRules bar rules)) (full.replaceRules rules) where
  rules_eq := sortRules_strongRules rules
  ranked := ranked_sortRules hrules
  record_eq := by
    intro id hid
    by_cases hmem : id ∈ rules.map (·.id)
    · obtain ⟨rule, hr, rfl⟩ := List.mem_map.mp hmem
      have hstrong : rule ∈ strongRules bar rules :=
        mem_strongRules.mpr ⟨hr, (hrules.2 rule hr).mp hid⟩
      rw [PolicyEngine.replaceRules_ruleRuntime _ (distinctIds_strongRules hrules.1) hstrong,
        PolicyEngine.replaceRules_ruleRuntime _ hrules.1 hr, h.record_eq _ hid]
    · have hstrong : id ∉ (strongRules bar rules).map (·.id) :=
        fun hin => hmem (List.map_subset _ (List.filter_sublist.subset) hin)
      rw [PolicyEngine.replaceRules_ruleRuntime_notMem _ hstrong,
        PolicyEngine.replaceRules_ruleRuntime_notMem _ hmem]
  snapshot_eq := h.snapshot_eq
  recovery_eq := h.recovery_eq

/-- The step lemma: whatever the full engine does, the strong one can do beside it. -/
theorem Extends.step {strong full next : PolicyEngine} {op : EngineOp}
    (h : Extends bar ids strong full)
    (hop : ∀ rules, op = .replaceRules rules → Ranked bar ids rules)
    (hs : full.step op = some next) :
    ∃ strongNext, strong.step (op.strong bar) = some strongNext ∧
      Extends bar ids strongNext next := by
  cases op with
  | handle host event =>
      obtain ⟨plans, hh⟩ := step_handle hs
      obtain ⟨strongNext, strongPlans, hstrong, hnext, _⟩ := h.handle hh
      exact ⟨strongNext, congrArg (Option.map Prod.fst) hstrong, hnext⟩
  | setMode mode =>
      cases hs
      exact ⟨_, rfl, h.rules_eq, h.ranked, h.record_eq,
        congrArg (fun snapshot => { snapshot with mode := mode }) h.snapshot_eq, h.recovery_eq⟩
  | setRecoveryMode enabled =>
      cases hs
      refine ⟨_, rfl, h.rules_eq, h.ranked, fun id hid => ?_, h.snapshot_eq, rfl⟩
      rw [PolicyEngine.setRecoveryMode_ruleRuntime, PolicyEngine.setRecoveryMode_ruleRuntime,
        h.record_eq id hid]
  | replaceRules rules =>
      cases hs
      exact ⟨_, rfl, extends_replaceRules h (hop rules rfl)⟩

/-! ## Runs -/

/-- In every run of an engine, reloads included, the plans of the rules from some
priority on come first, and they are the plans of an engine that never had the
weaker rules. -/
theorem stronger_rules_undisturbed (bar : ℤ) (ids : String → Prop) (rules : List Rule)
    (mode : String) (now : Timestamp) (ops : List EngineOp) (full : PolicyEngine)
    (hrules : Ranked bar ids rules)
    (hops : ∀ rules', EngineOp.replaceRules rules' ∈ ops → Ranked bar ids rules')
    (hrun : run PolicyEngine.step (.new rules mode now) ops = some full) :
    ∃ strong, run PolicyEngine.step (.new (strongRules bar rules) mode now)
        (ops.map (EngineOp.strong bar)) = some strong ∧
      ∀ host event next plans, full.handle host event = some (next, plans) →
        ∃ strongNext strongPlans, strong.handle host event = some (strongNext, strongPlans) ∧
          strongPlans <+: plans ∧
          strongPlans = plans.filter (fun plan => bar ≤ plan.priority) := by
  have hnew : Extends bar ids (.new (strongRules bar rules) mode now) (.new rules mode now) := by
    refine ⟨sortRules_strongRules rules, ranked_sortRules hrules, fun id _ => ?_, rfl, rfl⟩
    rw [PolicyEngine.new_ruleRuntime, PolicyEngine.new_ruleRuntime]
  obtain ⟨strong, hstrong, hextends⟩ : ∃ strong,
      run PolicyEngine.step (.new (strongRules bar rules) mode now)
        (ops.map (EngineOp.strong bar)) = some strong ∧ Extends bar ids strong full := by
    clear hrules
    generalize PolicyEngine.new (strongRules bar rules) mode now = left at hnew ⊢
    generalize PolicyEngine.new rules mode now = right at hnew hrun
    induction ops generalizing left right with
    | nil =>
        cases hrun
        exact ⟨left, rfl, hnew⟩
    | cons op ops ih =>
        obtain ⟨next, hs, hrest⟩ := Option.bind_eq_some_iff.mp hrun
        obtain ⟨leftNext, hleft, hnext⟩ := hnew.step
          (fun rules' heq => hops rules' (heq ▸ List.mem_cons_self)) hs
        obtain ⟨strong, hstrong, hextends⟩ := ih
          (fun rules' hmem => hops rules' (List.mem_cons_of_mem op hmem)) leftNext next hnext hrest
        exact ⟨strong, by rw [List.map_cons, run_cons, hleft]; exact hstrong, hextends⟩
  refine ⟨strong, hstrong, ?_⟩
  intro host event next plans hh
  obtain ⟨strongNext, strongPlans, hhandle, _, hfront, hfilter⟩ := hextends.handle hh
  exact ⟨strongNext, strongPlans, hhandle, hfront, hfilter⟩

def lockdownRules : List Rule :=
  [lockdownRule "c" 5 true, lockdownRule "b" 9 false, lockdownRule "a" 9 true]

/-- An event, and a reload of the rules in another order. -/
def lockdownReload : List EngineOp :=
  [.handle bareHost (eventAt .tick 0), .replaceRules lockdownRules.reverse]

/-- The rule of the lower priority adds its own notification and takes nothing away. -/
theorem stronger_rules_undisturbed_lockdown : ∃ strong strongNext strongPlans next plans,
    run PolicyEngine.step (.new (strongRules 9 lockdownRules) "normal" 0)
        (lockdownReload.map (EngineOp.strong 9)) = some strong ∧
      strong.handle bareHost (eventAt .tick 1) = some (strongNext, strongPlans) ∧
      (run PolicyEngine.step (.new lockdownRules "normal" 0) lockdownReload).bind
        (fun full => full.handle bareHost (eventAt .tick 1)) = some (next, plans) ∧
      plans.length = 5 ∧ strongPlans <+: plans ∧
      strongPlans = plans.filter (fun plan => 9 ≤ plan.priority) := by
  have hranked : ∀ rules, rules.Perm lockdownRules →
      Ranked 9 (fun id => id = "a" ∨ id = "b") rules := by
    intro rules hperm
    refine ⟨(hperm.map _).nodup_iff.mpr (by decide), fun rule hr => ?_⟩
    have hmem := hperm.mem_iff.mp hr
    simp only [lockdownRules, List.mem_cons, List.not_mem_nil, or_false] at hmem
    rcases hmem with rfl | rfl | rfl <;> decide
  have hfull : ((run PolicyEngine.step (.new lockdownRules "normal" 0) lockdownReload).bind
      (fun full => full.handle bareHost (eventAt .tick 1))).map (fun result => result.2.length) =
        some 5 := by decide +kernel
  obtain ⟨⟨next, plans⟩, hhandle, hlength⟩ := Option.map_eq_some_iff.mp hfull
  obtain ⟨full, hrun, hlast⟩ := Option.bind_eq_some_iff.mp hhandle
  have hops : ∀ rules', EngineOp.replaceRules rules' ∈ lockdownReload →
      Ranked 9 (fun id => id = "a" ∨ id = "b") rules' := by
    intro rules' hmem
    simp only [lockdownReload, List.mem_cons, reduceCtorEq, List.not_mem_nil, or_false, false_or,
      EngineOp.replaceRules.injEq] at hmem
    subst hmem
    exact hranked _ (List.reverse_perm _)
  obtain ⟨strong, hstrong, hcalls⟩ := stronger_rules_undisturbed 9 _ lockdownRules "normal" 0
    lockdownReload full (hranked _ (List.Perm.refl _)) hops hrun
  obtain ⟨strongNext, strongPlans, hanswer, hfront, hfilter⟩ := hcalls _ _ _ _ hlast
  exact ⟨strong, strongNext, strongPlans, next, plans, hstrong, hanswer, hhandle, hlength, hfront,
    hfilter⟩

end Kovert
