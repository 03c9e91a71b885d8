import Kovert.PlanScript

/-!
# Store failures while an event is processed

A store call that fails ends `process_event` where it is: an event that cannot
be recorded does not reach the engine, and a plan that meets a failure takes
the later plans of the event with it. `PlansServed` says exactly which patterns
of answers leave every plan of an event its turn.
-/

namespace Kovert

open Fallible Session

variable {env : Environment} {event : Event}

/-- The key of the `execute_plan` call that an entry opens. -/
def Mark.planned? : Mark → Option LedgerKey
  | .planned key => some key
  | _ => none

/-- The store carries out every call that handling these plans makes, except
perhaps calls for the last plan. -/
def PlansServed (env : Environment) (executor : ExecutionContext) (event : Event) :
    List ActionPlan → ℕ → ℕ → DaemonStore → Prop
  | [], _, _, _ => True
  | plan :: rest, calls, executions, store =>
      let script := planScript env executor event plan executions store
      rest = [] ∨ ∃ next, StoreCall.serves env (storeCalls script) calls store = some next ∧
        PlansServed env executor event rest (calls + (storeCalls script).length)
          (executions + (script.map PlanStep.invocations).sum) next

theorem plansServed_cons {session : Session} {plan : ActionPlan} {rest : List ActionPlan} :
    PlansServed env session.runtime.executor event (plan :: rest) session.calls
        session.executions session.store ↔
      rest = [] ∨ ∃ next, StoreCall.serves env (storeCalls (session.script env event plan))
          session.calls session.store = some next ∧
        PlansServed env session.runtime.executor event rest
          (session.calls + (storeCalls (session.script env event plan)).length)
          (session.executions + ((session.script env event plan).map PlanStep.invocations).sum)
          next := Iff.rfl

def SystemSnapshot.withMode (snapshot : SystemSnapshot) (mode : String) : SystemSnapshot :=
  { snapshot with mode := mode }

/-- The event reaches the snapshot and every plan is handed to `execute_plan`,
in order, whatever the store does. -/
structure StoreFailureIsolated (env : Environment) (host : Host) (event : Event)
    (session : Session) (plans : List ActionPlan) : Prop where
  applied : ∃ mode, (processEvent env host event session).2.runtime.engine.snapshot =
    (session.runtime.engine.snapshot.apply event).withMode mode
  attempted : ∀ gained, (processEvent env host event session).2.trace = session.trace ++ gained →
    gained.filterMap Mark.planned? = plans.map (ledgerKey env event)

theorem filterMap_planned?_eq_nil {marks : List Mark} (h : ∀ key, Mark.planned key ∉ marks) :
    marks.filterMap Mark.planned? = [] := by
  rw [List.filterMap_eq_nil_iff]
  intro mark hmark
  cases mark with
  | planned key => exact absurd hmark (h key)
  | _ => rfl

theorem planned_flatMap_marks (script : List PlanStep) :
    (script.flatMap PlanStep.marks).filterMap Mark.planned? = [] := by
  apply filterMap_planned?_eq_nil
  intro key hmem
  obtain ⟨step, _, hstep⟩ := List.mem_flatMap.mp hmem
  exact step.planned_notMem_marks key hstep

/-- The loop reaches every plan exactly when the store serves all but the last. -/
theorem PlansRun.reached_iff {plans : List ActionPlan} {session last : Session}
    {gained : List Mark} (h : PlansRun env event plans session gained last) :
    gained.filterMap Mark.planned? = plans.map (ledgerKey env event) ↔
      PlansServed env session.runtime.executor event plans session.calls session.executions
        session.store := by
  induction h with
  | finished session => exact iff_of_true rfl trivial
  | @carriedOut plan rest store session next last gained hdone hserve _ ih =>
      rw [plansServed_cons, hserve, List.filterMap_cons_some (f := Mark.planned?) rfl,
        List.filterMap_append, planned_flatMap_marks, List.nil_append, List.map_cons,
        List.cons.injEq, eq_self, true_and, ih, hdone.runtime_upToMode.executor_eq,
        hdone.calls_eq, hdone.executions_eq, hdone.store_eq]
      constructor
      · intro hserved
        exact Or.inr ⟨store, rfl, hserved⟩
      · rintro (rfl | ⟨store', heq, hserved⟩)
        · exact trivial
        · cases heq
          exact hserved
  | @cutShort plan rest session last marks _ _ hplanned hserve =>
      rw [plansServed_cons, hserve, List.filterMap_cons_some (f := Mark.planned?) rfl,
        filterMap_planned?_eq_nil hplanned]
      cases rest with
      | nil => simp
      | cons other rest => simp

theorem SystemSnapshot.apply_eq_of_withMode {snapshot : SystemSnapshot} {event : Event}
    {mode : String} (h : snapshot = (snapshot.apply event).withMode mode) :
    snapshot.apply event = snapshot := by
  have hmode : snapshot.mode = mode := congrArg SystemSnapshot.mode h
  calc snapshot.apply event = (snapshot.apply event).withMode (snapshot.apply event).mode := rfl
    _ = (snapshot.apply event).withMode mode := by rw [apply_mode, hmode]
    _ = snapshot := h.symm

/-- A store failure spares the event and the other plans exactly when it comes
no earlier than the last plan, or when there was nothing to lose. -/
theorem store_failure_isolated_iff (env : Environment) (host : Host) (event : Event)
    (session : Session) (engine : PolicyEngine) (plans : List ActionPlan)
    (hhandle : session.runtime.engine.handle host event = some (engine, plans)) :
    StoreFailureIsolated env host event session plans ↔
      (∃ store, EventRecorded env event session store ∧
        PlansServed env session.runtime.executor event plans (session.calls + 1)
          session.executions store) ∨
      ((∀ store, ¬ EventRecorded env event session store) ∧
        session.runtime.engine.snapshot.apply event = session.runtime.engine.snapshot ∧
        plans = []) := by
  by_cases hrecorded : ∃ store, EventRecorded env event session store
  · obtain ⟨store, hrecorded⟩ := hrecorded
    obtain ⟨gained, htrace, hloop⟩ :=
      forEach_plansRun env event plans (session.withPlans event engine store)
    rw [← processEvent_recorded hhandle hrecorded] at htrace hloop
    obtain ⟨mode, hmode⟩ := hloop.upToMode
    have hsplit : (processEvent env host event session).2.trace = session.trace ++
        (.audited (some (uuidText event.id)) "event" none :: gained) := by
      rw [htrace, Session.withPlans, List.append_assoc]
      rfl
    constructor
    · intro hisolated
      have hattempted := hisolated.attempted _ hsplit
      exact Or.inl ⟨store, hrecorded, hloop.reached_iff.mp hattempted⟩
    · rintro (⟨store', hrecorded', hserved⟩ | ⟨hlost, _⟩)
      · cases hrecorded.unique hrecorded'
        refine ⟨⟨mode, ?_⟩, ?_⟩
        · rw [hmode]
          change engine.snapshot.withMode mode = _
          rw [(PolicyEngine.handle_frame hhandle).2.2]
        · intro gained' hgained
          rw [hsplit] at hgained
          rw [← List.append_cancel_left hgained]
          exact hloop.reached_iff.mpr hserved
      · exact absurd hrecorded (hlost store)
  · have hlost : ∀ store, ¬ EventRecorded env event session store :=
      fun store h => hrecorded ⟨store, h⟩
    obtain ⟨hruntime, marks, htrace, _, hmarks⟩ := processEvent_lost host hlost
    have hplanned : marks.filterMap Mark.planned? = [] := by
      apply filterMap_planned?_eq_nil
      intro key hmem
      rcases hmarks _ hmem with h | h <;> cases h
    constructor
    · rintro ⟨⟨mode, happlied⟩, hattempted⟩
      refine Or.inr ⟨hlost, ?_, ?_⟩
      · rw [hruntime] at happlied
        exact SystemSnapshot.apply_eq_of_withMode happlied
      · exact List.map_eq_nil_iff.mp ((hattempted marks htrace).symm.trans hplanned)
    · rintro (⟨store, hrecorded', _⟩ | ⟨_, hunchanged, rfl⟩)
      · exact absurd hrecorded' (hlost store)
      · refine ⟨⟨session.runtime.engine.snapshot.mode, ?_⟩, ?_⟩
        · rw [hruntime, hunchanged]
          rfl
        · intro gained hgained
          rw [htrace] at hgained
          rw [← List.append_cancel_left hgained, hplanned]
          rfl

/-- Two rules for the same event; the second may fire once. -/
def panicConfig : Config :=
  liveConfig [] [{ testRule (.manual "panic") with id := "a" },
    { testRule (.manual "panic") with id := "b", oncePerBoot := true }]

def panicPlans : List ActionPlan :=
  panicConfig.rules.map (fun rule =>
    ActionPlan.of rule panicEvent (.notify "test" "matched" .normal))

/-- The last plan's ledger write fails; both plans have been taken up. -/
theorem store_failure_isolated_last :
    ∃ engine, (freshSession panicConfig).runtime.engine.handle bareHost panicEvent =
        some (engine, panicPlans) ∧
      StoreFailureIsolated (sampleEnv [(7, .fails "disk I/O error")]) bareHost panicEvent
        (freshSession panicConfig) panicPlans := by
  refine ⟨_, rfl, ?_⟩
  let env := sampleEnv [(7, .fails "disk I/O error")]
  let plan := ActionPlan.of { testRule (.manual "panic") with id := "a" } panicEvent
    (.notify "test" "matched" .normal)
  have hserved : (((eventCall panicEvent "\x7b\"source\":\"test\"\x7d").serve env 0
      emptyStore).bind fun store => StoreCall.serves env (storeCalls (planScript env
        (executorFor panicConfig) panicEvent plan 0 store)) 1 store).isSome = true := by
    decide +kernel
  obtain ⟨next, hnext⟩ := Option.isSome_iff_exists.mp hserved
  obtain ⟨store, hstore, hnext⟩ := Option.bind_eq_some_iff.mp hnext
  refine (store_failure_isolated_iff _ bareHost panicEvent (freshSession panicConfig) _ panicPlans
    rfl).mpr (Or.inl ⟨store, ⟨_, rfl, ?_⟩, Or.inr ⟨next, hnext, Or.inl rfl⟩⟩)
  exact hstore

def afterFailedLookup : Session :=
  (processEvent (sampleEnv [(1, .fails "disk I/O error")]) bareHost panicEvent
    (freshSession panicConfig)).2

/-- The first plan's ledger lookup fails: the second rule has used up its only
firing of this boot, and its action was never taken up. -/
theorem failed_lookup_drops_later_plan :
    validateConfig (fun _ => none) panicConfig = .ok () ∧
      (∃ engine, (freshSession panicConfig).runtime.engine.handle bareHost panicEvent =
        some (engine, panicPlans)) ∧
      (afterFailedLookup.runtime.engine.ruleRuntime "b").firedOnce = true ∧
      (afterFailedLookup.trace.filterMap Mark.planned?).map (·.ruleId) = ["a"] ∧
      ¬ StoreFailureIsolated (sampleEnv [(1, .fails "disk I/O error")]) bareHost panicEvent
        (freshSession panicConfig) panicPlans := by
  have hreached : (afterFailedLookup.trace.filterMap Mark.planned?).map (·.ruleId) = ["a"] := by
    decide +kernel
  refine ⟨rfl, ⟨_, rfl⟩, by decide +kernel, hreached, ?_⟩
  intro hisolated
  have hall : afterFailedLookup.trace.filterMap Mark.planned? =
      panicPlans.map (ledgerKey (sampleEnv [(1, .fails "disk I/O error")]) panicEvent) :=
    hisolated.attempted afterFailedLookup.trace rfl
  rw [hall] at hreached
  exact absurd hreached (by decide)

end Kovert
