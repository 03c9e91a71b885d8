import Kovert.PlanScript

/-!
# Which plans reach the executor

When no store call fails, the only thing that keeps a plan from the executor
is the ledger. Its key holds the event, the rule and the serialized action, so
a rule that lists the same action twice has two plans with one key, and once
the first has succeeded the second is skipped. `attempts` computes the executor
calls of an event from that rule alone, and the entries of the trace agree
with it.
-/

namespace Kovert

open Fallible Session

/-- The executor reports success for this plan on its `n`-th execution. -/
def ActionPlan.succeeds (env : Environment) (executor : ExecutionContext) (event : Event) (n : ℕ)
    (plan : ActionPlan) : Bool :=
  match executor.execute (env.tools n) plan.action event with
  | .ok outcome => outcome.success
  | .error _ => false

/-- The executor calls for these plans with what they report. `done` holds the
keys that the ledger shows as succeeded. -/
def attempts (env : Environment) (executor : ExecutionContext) (event : Event) :
    List ActionPlan → ℕ → (LedgerKey → Bool) → List (LedgerKey × Bool)
  | [], _, _ => []
  | plan :: rest, n, done =>
      let key := ledgerKey env event plan
      if done key then attempts env executor event rest n done
      else
        let success := plan.succeeds env executor event n
        (key, success) ::
          attempts env executor event rest (n + 1) (Function.update done key success)

/-- The records and the executor call of one attempt. -/
def attemptMarks (attempt : LedgerKey × Bool) : List Mark :=
  [.audited (some attempt.1.eventId) "action_started" (some attempt.1.ruleId),
    .invoked attempt.1,
    .audited (some attempt.1.eventId)
      (if attempt.2 then "action_succeeded" else "action_failed") (some attempt.1.ruleId)]

/-- Executor calls and audit records about a rule. -/
def Mark.isAttempt : Mark → Bool
  | .invoked _ => true
  | .audited _ _ (some _) => true
  | _ => false

/-- Every plan is attempted once, in order, with a started record before and one
outcome record after its executor call. -/
def PlansAttempted (env : Environment) (event : Event) (plans : List ActionPlan)
    (gained : List Mark) : Prop :=
  ∃ results : List Bool, results.length = plans.length ∧
    gained.filter Mark.isAttempt =
      ((plans.map (ledgerKey env event)).zip results).flatMap attemptMarks

/-- No plan has the key of an earlier plan for which the executor reports success. -/
def NoRepeatedSuccess (env : Environment) (executor : ExecutionContext) (event : Event)
    (plans : List ActionPlan) (n : ℕ) : Prop :=
  ∀ i j earlier later, i < j → plans[i]? = some earlier → plans[j]? = some later →
    ledgerKey env event earlier = ledgerKey env event later →
    earlier.succeeds env executor event (n + i) = false

/-! ## Counting the attempts -/

section Counting

variable {env : Environment} {executor : ExecutionContext} {event : Event}

theorem attempts_length_le (plans : List ActionPlan) (n : ℕ) (done : LedgerKey → Bool) :
    (attempts env executor event plans n done).length ≤ plans.length := by
  induction plans generalizing n done with
  | nil => exact Nat.le_refl 0
  | cons plan rest ih =>
      rw [attempts, List.length_cons]
      split
      · exact Nat.le_succ_of_le (ih n done)
      · exact Nat.succ_le_succ (ih _ _)

/-- The first plan against the later ones, and the later ones among themselves. -/
theorem noRepeatedSuccess_cons {plan : ActionPlan} {rest : List ActionPlan} {n : ℕ} :
    NoRepeatedSuccess env executor event (plan :: rest) n ↔
      (∀ later ∈ rest, ledgerKey env event later = ledgerKey env event plan →
        plan.succeeds env executor event n = false) ∧
      NoRepeatedSuccess env executor event rest (n + 1) := by
  constructor
  · intro h
    constructor
    · intro later hlater hkey
      obtain ⟨j, hj⟩ := List.mem_iff_getElem?.mp hlater
      exact h 0 (j + 1) plan later (by omega) rfl (List.getElem?_cons_succ.trans hj) hkey.symm
    · intro i j earlier later hij hi hj hkey
      have hlater := h (i + 1) (j + 1) earlier later (by omega)
        (List.getElem?_cons_succ.trans hi) (List.getElem?_cons_succ.trans hj) hkey
      rwa [← Nat.add_assoc, Nat.add_right_comm] at hlater
  · rintro ⟨hfirst, hrest⟩ i j earlier later hij hi hj hkey
    obtain ⟨k, rfl⟩ : ∃ k, j = k + 1 := ⟨j - 1, by omega⟩
    rw [List.getElem?_cons_succ] at hj
    cases i with
    | zero =>
        cases hi
        exact hfirst later (List.mem_of_getElem? hj) hkey.symm
    | succ i =>
        rw [List.getElem?_cons_succ] at hi
        have hlater := hrest i k earlier later (by omega) hi hj hkey
        rwa [Nat.add_right_comm] at hlater

/-- The later plans find no completed key after an attempt if they found none
before and the attempt has not completed theirs. -/
theorem forall_update_iff {plan : ActionPlan} {rest : List ActionPlan} {done : LedgerKey → Bool}
    {success : Bool} (hdone : done (ledgerKey env event plan) = false) :
    (∀ later ∈ rest, Function.update done (ledgerKey env event plan) success
        (ledgerKey env event later) = false) ↔
      (∀ later ∈ rest, done (ledgerKey env event later) = false) ∧
        ∀ later ∈ rest, ledgerKey env event later = ledgerKey env event plan →
          success = false := by
  constructor
  · intro h
    constructor
    · intro later hlater
      by_cases hkey : ledgerKey env event later = ledgerKey env event plan
      · rw [hkey, hdone]
      · have hkept := h later hlater
        rwa [Function.update_of_ne hkey] at hkept
    · intro later hlater hkey
      have hwritten := h later hlater
      rwa [hkey, Function.update_self] at hwritten
  · rintro ⟨hfresh, hfailed⟩ later hlater
    by_cases hkey : ledgerKey env event later = ledgerKey env event plan
    · rw [hkey, Function.update_self]
      exact hfailed later hlater hkey
    · rw [Function.update_of_ne hkey]
      exact hfresh later hlater

/-- No plan is skipped exactly when none is done before and none repeats a success. -/
theorem attempts_length_eq (plans : List ActionPlan) (n : ℕ) (done : LedgerKey → Bool) :
    (attempts env executor event plans n done).length = plans.length ↔
      (∀ plan ∈ plans, done (ledgerKey env event plan) = false) ∧
        NoRepeatedSuccess env executor event plans n := by
  induction plans generalizing n done with
  | nil =>
      refine iff_of_true rfl ⟨fun plan hplan => (by cases hplan), ?_⟩
      intro i j earlier later _ hi
      simp at hi
  | cons plan rest ih =>
      rw [attempts]
      cases hdone : done (ledgerKey env event plan) with
      | true =>
          have hle : (attempts env executor event rest n done).length ≤ rest.length :=
            attempts_length_le rest n done
          simp only [if_true, List.length_cons]
          constructor
          · intro heq
            omega
          · rintro ⟨hfresh, _⟩
            rw [hfresh plan List.mem_cons_self] at hdone
            cases hdone
      | false =>
          simp only [Bool.false_eq_true, if_false, List.length_cons, Nat.add_right_cancel_iff, ih,
            forall_update_iff hdone, noRepeatedSuccess_cons, List.forall_mem_cons, hdone,
            true_and, and_assoc]

theorem attempts_map_fst {plans : List ActionPlan} {n : ℕ} {done : LedgerKey → Bool}
    (h : (attempts env executor event plans n done).length = plans.length) :
    (attempts env executor event plans n done).map Prod.fst =
      plans.map (ledgerKey env event) := by
  induction plans generalizing n done with
  | nil => rfl
  | cons plan rest ih =>
      rw [attempts] at h ⊢
      split at h
      · have hle : (attempts env executor event rest n done).length ≤ rest.length :=
          attempts_length_le rest n done
        rw [List.length_cons] at h
        omega
      · next hdone =>
        rw [if_neg hdone, List.map_cons, List.map_cons]
        rw [List.length_cons, List.length_cons, Nat.add_right_cancel_iff] at h
        rw [ih h]

theorem length_flatMap_attemptMarks (list : List (LedgerKey × Bool)) :
    (list.flatMap attemptMarks).length = 3 * list.length := by
  induction list with
  | nil => rfl
  | cons attempt list ih =>
      rw [List.flatMap_cons, List.length_append, ih, List.length_cons]
      change 3 + 3 * list.length = _
      omega

/-- A trace that shows these attempts shows an attempt for every plan exactly
when none was skipped. -/
theorem plansAttempted_iff_length {plans : List ActionPlan} {n : ℕ} {done : LedgerKey → Bool}
    {gained : List Mark} (hgained : gained.filter Mark.isAttempt =
      (attempts env executor event plans n done).flatMap attemptMarks) :
    PlansAttempted env event plans gained ↔
      (attempts env executor event plans n done).length = plans.length := by
  constructor
  · rintro ⟨results, hlength, hmarks⟩
    have hcount := congrArg List.length (hgained.symm.trans hmarks)
    rw [length_flatMap_attemptMarks, length_flatMap_attemptMarks, List.length_zip,
      List.length_map, hlength, Nat.min_self] at hcount
    omega
  · intro hlength
    refine ⟨(attempts env executor event plans n done).map Prod.snd, ?_, ?_⟩
    · rw [List.length_map, hlength]
    · rw [hgained, ← List.zip_of_prod (attempts_map_fst hlength) rfl]

/-- A trace without attempts is right only where there is nothing to attempt. -/
theorem plansAttempted_nil {plans : List ActionPlan} :
    PlansAttempted env event plans [] ↔ plans = [] := by
  constructor
  · rintro ⟨results, hlength, hmarks⟩
    have hcount := congrArg List.length hmarks
    rw [length_flatMap_attemptMarks, List.length_zip, List.length_map, hlength,
      Nat.min_self] at hcount
    exact List.length_eq_zero_iff.mp (by simpa using hcount.symm)
  · rintro rfl
    exact ⟨[], rfl, rfl⟩

end Counting

/-! ## The trace of the plans -/

section Trace

variable {env : Environment} {event : Event}

/-- What a call does to the completed keys. -/
def StoreCall.completes (done : LedgerKey → Bool) : StoreCall → LedgerKey → Bool
  | .recordAction key status _ => Function.update done key (status == .succeeded)
  | _ => done

theorem StoreCall.serve_actionCompleted {call : StoreCall} {n : ℕ} {store after : DaemonStore}
    (h : call.serve env n store = some after) :
    after.actionCompleted = call.completes store.actionCompleted := by
  unfold serve at h
  split at h
  · next clock _ =>
    cases call with
    | append eventId kind ruleId payload =>
        cases happend : store.append env.blake3 clock eventId kind ruleId payload with
        | error message => simp [commit, happend, Except.toOption] at h
        | ok next =>
            simp only [commit, happend, Except.toOption, Option.some.injEq] at h
            subst h
            funext key
            unfold DaemonStore.actionCompleted
            rw [DaemonStore.append_ledger happend]
            rfl
    | setState key value =>
        cases h
        rfl
    | actionCompleted key =>
        cases h
        rfl
    | recordAction key status outcome =>
        cases h
        funext other
        by_cases hkey : other = key
        · subst hkey
          simp [DaemonStore.actionCompleted, DaemonStore.recordAction, completes]
        · simp [DaemonStore.actionCompleted, DaemonStore.recordAction, completes, hkey]
  · cases h

theorem StoreCall.serves_actionCompleted {calls : List StoreCall} {n : ℕ}
    {store after : DaemonStore} (h : serves env calls n store = some after) :
    after.actionCompleted = calls.foldl completes store.actionCompleted := by
  induction calls generalizing n store with
  | nil =>
      cases h
      rfl
  | cons call calls ih =>
      obtain ⟨next, hserve, h⟩ := Option.bind_eq_some_iff.mp h
      rw [List.foldl_cons, ← serve_actionCompleted hserve]
      exact ih h

/-- What a script leaves for an observer of attempts, executions and completed keys. -/
structure ScriptSummary (script : List PlanStep) (marks : List Mark) (executions : ℕ)
    (completes : (LedgerKey → Bool) → LedgerKey → Bool) : Prop where
  marks_eq : (script.flatMap PlanStep.marks).filter Mark.isAttempt = marks
  executions_eq : (script.map PlanStep.invocations).sum = executions
  completes_eq : ∀ done, (storeCalls script).foldl StoreCall.completes done = completes done

theorem ScriptSummary.append {left right : List PlanStep} {marks marks' : List Mark}
    {n n' : ℕ} {completes completes' : (LedgerKey → Bool) → LedgerKey → Bool}
    (h : ScriptSummary left marks n completes) (h' : ScriptSummary right marks' n' completes') :
    ScriptSummary (left ++ right) (marks ++ marks') (n + n')
      (fun done => completes' (completes done)) where
  marks_eq := by rw [List.flatMap_append, List.filter_append, h.marks_eq, h'.marks_eq]
  executions_eq := by rw [List.map_append, List.sum_append, h.executions_eq, h'.executions_eq]
  completes_eq := by
    intro done
    rw [← h.completes_eq, ← h'.completes_eq, storeCalls, List.filterMap_append,
      List.foldl_append]
    rfl

theorem effectScript_summary (effect : ActionEffect) :
    ScriptSummary (effectScript effect) [] 0 id := by
  cases effect with
  | none => exact ⟨rfl, rfl, fun _ => rfl⟩
  | setMode mode => exact ⟨rfl, rfl, fun _ => rfl⟩
  | networkIsolation enabled => exact ⟨rfl, rfl, fun _ => rfl⟩

theorem outcomeScript_summary (env : Environment) (executor : ExecutionContext) (event : Event)
    (plan : ActionPlan) (key : LedgerKey) (n : ℕ) :
    ScriptSummary
      (outcomeScript env key (executor.execute (env.tools n) plan.action event))
      [.audited (some key.eventId)
        (if plan.succeeds env executor event n then "action_succeeded" else "action_failed")
        (some key.ruleId)] 0
      (fun done => Function.update done key (plan.succeeds env executor event n)) := by
  unfold ActionPlan.succeeds
  cases executor.execute (env.tools n) plan.action event with
  | error message => exact ⟨rfl, rfl, fun _ => rfl⟩
  | ok outcome =>
      have hwrites : ScriptSummary
          [.store (.recordAction key (if outcome.success then .succeeded else .failed)
              (some (env.serde.outcome outcome))),
            .store (.append (some key.eventId)
              (if outcome.success then "action_succeeded" else "action_failed") (some key.ruleId)
              (env.serde.outcome outcome))]
          [.audited (some key.eventId)
            (if outcome.success then "action_succeeded" else "action_failed")
            (some key.ruleId)] 0
          (fun done => Function.update done key outcome.success) := by
        refine ⟨rfl, rfl, fun done => ?_⟩
        cases outcome.success <;> rfl
      have heffect : ScriptSummary
          (if outcome.success && !outcome.dryRun then effectScript outcome.effect else []) [] 0
          id := by
        split
        · exact effectScript_summary outcome.effect
        · exact ⟨rfl, rfl, fun _ => rfl⟩
      exact hwrites.append heffect

/-- A plan whose key is completed leaves nothing behind. -/
theorem planScript_summary_completed {executor : ExecutionContext} {plan : ActionPlan} {n : ℕ}
    {store : DaemonStore} (h : store.actionCompleted (ledgerKey env event plan) = true) :
    ScriptSummary (planScript env executor event plan n store) [] 0 id := by
  have hscript : planScript env executor event plan n store =
      [.store (.actionCompleted (ledgerKey env event plan))] := by
    simp only [planScript, h, if_true]
  rw [hscript]
  exact ⟨rfl, rfl, fun _ => rfl⟩

/-- Any other plan leaves one attempt, and its result in the ledger. -/
theorem planScript_summary_open {executor : ExecutionContext} {plan : ActionPlan} {n : ℕ}
    {store : DaemonStore} (h : store.actionCompleted (ledgerKey env event plan) = false) :
    ScriptSummary (planScript env executor event plan n store)
      (attemptMarks (ledgerKey env event plan, plan.succeeds env executor event n)) 1
      (fun done => Function.update done (ledgerKey env event plan)
        (plan.succeeds env executor event n)) := by
  let key := ledgerKey env event plan
  have hscript : planScript env executor event plan n store =
      [.store (.actionCompleted key), .store (.recordAction key .started none),
        .store (.append (some key.eventId) "action_started" (some key.ruleId)
          (env.serde.action plan.action)), .invoke key] ++
        outcomeScript env key (executor.execute (env.tools n) plan.action event) := by
    simp only [planScript, h, Bool.false_eq_true, if_false]
    rfl
  have hopening : ScriptSummary
      [.store (.actionCompleted key), .store (.recordAction key .started none),
        .store (.append (some key.eventId) "action_started" (some key.ruleId)
          (env.serde.action plan.action)), .invoke key]
      [.audited (some key.eventId) "action_started" (some key.ruleId), .invoked key] 1
      (fun done => Function.update done key false) := ⟨rfl, rfl, fun _ => rfl⟩
  have hwhole := hopening.append (outcomeScript_summary env executor event plan key n)
  rw [hscript]
  refine ⟨hwhole.marks_eq, hwhole.executions_eq, fun done => ?_⟩
  exact (hwhole.completes_eq done).trans (Function.update_idem ..)

/-- One plan that the store serves, as the executor calls of the loop see it. -/
theorem attempts_cons {plan : ActionPlan} {rest : List ActionPlan} {session next : Session}
    {store : DaemonStore}
    (hdone : ScriptDone (session.script env event plan) store
      (session.opening (ledgerKey env event plan)) next)
    (hserve : StoreCall.serves env (storeCalls (session.script env event plan)) session.calls
      session.store = some store) :
    (attempts env session.runtime.executor event (plan :: rest) session.executions
        session.store.actionCompleted).flatMap attemptMarks =
      ((session.script env event plan).flatMap PlanStep.marks).filter Mark.isAttempt ++
        (attempts env next.runtime.executor event rest next.executions
          next.store.actionCompleted).flatMap attemptMarks := by
  have hexecutor : next.runtime.executor = session.runtime.executor :=
    hdone.runtime_upToMode.executor_eq
  have hcompleted : next.store.actionCompleted = _ :=
    (congrArg DaemonStore.actionCompleted hdone.store_eq).trans
      (StoreCall.serves_actionCompleted hserve)
  have hexecutions : next.executions = session.executions + _ := hdone.executions_eq
  rw [attempts, hexecutor, hcompleted, hexecutions]
  cases hkey : session.store.actionCompleted (ledgerKey env event plan) with
  | true =>
      have hsummary : ScriptSummary (session.script env event plan) _ _ _ :=
        planScript_summary_completed hkey
      rw [hsummary.marks_eq, hsummary.executions_eq, hsummary.completes_eq]
      rfl
  | false =>
      have hsummary : ScriptSummary (session.script env event plan) _ _ _ :=
        planScript_summary_open hkey
      rw [hsummary.marks_eq, hsummary.executions_eq, hsummary.completes_eq]
      rfl

/-- A loop without a refused call leaves the attempts that `attempts` computes. -/
theorem PlansRun.filter_isAttempt {plans : List ActionPlan} {session last : Session}
    {gained : List Mark} (h : PlansRun env event plans session gained last)
    (hfailed : Mark.failed ∉ gained) (hcrashed : Mark.crashed ∉ gained) :
    gained.filter Mark.isAttempt =
      (attempts env session.runtime.executor event plans session.executions
        session.store.actionCompleted).flatMap attemptMarks := by
  induction h with
  | finished session => rfl
  | carriedOut hdone hserve _ ih =>
      have hrest := ih (fun h => hfailed (List.mem_cons_of_mem _ (List.mem_append_right _ h)))
        (fun h => hcrashed (List.mem_cons_of_mem _ (List.mem_append_right _ h)))
      rw [attempts_cons hdone hserve, ← hrest]
      exact List.filter_append ..
  | cutShort _ hmark _ _ =>
      -- the refused call has left its mark
      rcases hmark with hmark | hmark
      · exact absurd (List.mem_cons_of_mem _ hmark) hfailed
      · exact absurd (List.mem_cons_of_mem _ hmark) hcrashed

end Trace

/-! ## A new event -/

/-- The ledger has no row of the event. -/
def FreshEvent (store : DaemonStore) (event : Event) : Prop :=
  ∀ key, key.eventId = uuidText event.id → store.ledger key = none

/-- Every plan of a new event is attempted exactly when the event serializes and
no plan has the key of an earlier one that succeeded (or there is no plan). -/
theorem plans_attempted_iff (env : Environment) (host : Host) (event : Event) (session : Session)
    (engine : PolicyEngine) (plans : List ActionPlan) (gained : List Mark)
    (hhandle : session.runtime.engine.handle host event = some (engine, plans))
    (hfresh : FreshEvent session.store event)
    (htrace : (processEvent env host event session).2.trace = session.trace ++ gained)
    (hquiet : Mark.failed ∉ gained ∧ Mark.crashed ∉ gained) :
    PlansAttempted env event plans gained ↔
      plans = [] ∨ (env.serde.event event).isOk = true ∧
        NoRepeatedSuccess env session.runtime.executor event plans session.executions := by
  by_cases hrecorded : ∃ store, EventRecorded env event session store
  · obtain ⟨store, hrecorded⟩ := hrecorded
    obtain ⟨rest, hrest, hloop⟩ :=
      forEach_plansRun env event plans (session.withPlans event engine store)
    rw [processEvent_recorded hhandle hrecorded, hrest, Session.withPlans,
      List.append_assoc] at htrace
    have hgained := List.append_cancel_left htrace
    subst hgained
    obtain ⟨payload, hpayload, hserve⟩ := hrecorded
    have hdone : ∀ plan ∈ plans, store.actionCompleted (ledgerKey env event plan) = false := by
      intro plan _
      rw [StoreCall.serve_actionCompleted hserve]
      change ((session.store.ledger (ledgerKey env event plan)).map _ == _) = false
      rw [hfresh _ rfl]
      rfl
    have hmarks : (Mark.audited (some (uuidText event.id)) "event" none :: rest).filter
        Mark.isAttempt = (attempts env session.runtime.executor event plans session.executions
          store.actionCompleted).flatMap attemptMarks :=
      hloop.filter_isAttempt (fun h => hquiet.1 (List.mem_cons_of_mem _ h))
        (fun h => hquiet.2 (List.mem_cons_of_mem _ h))
    have hok : (env.serde.event event).isOk = true := by
      rw [hpayload]
      rfl
    refine (plansAttempted_iff_length hmarks).trans ((attempts_length_eq plans _ _).trans ?_)
    constructor
    · rintro ⟨_, hnone⟩
      exact Or.inr ⟨hok, hnone⟩
    · rintro (rfl | ⟨_, hnone⟩)
      · refine ⟨hdone, ?_⟩
        intro i j earlier later _ hi
        cases hi
      · exact ⟨hdone, hnone⟩
  · have hlost : ∀ store, ¬ EventRecorded env event session store :=
      fun store h => hrecorded ⟨store, h⟩
    obtain ⟨_, marks, hmarks, hmark, hkinds⟩ := processEvent_lost host hlost
    have hgained : marks = gained := List.append_cancel_left (hmarks.symm.trans htrace)
    subst hgained
    -- a lost event that left no mark was not serialized
    have hfailed : (env.serde.event event).isOk ≠ true :=
      fun hok => (hmark hok).elim hquiet.1 hquiet.2
    have hnil : marks = [] := by
      rw [List.eq_nil_iff_forall_not_mem]
      intro mark hmem
      rcases hkinds mark hmem with rfl | rfl
      · exact hquiet.1 hmem
      · exact hquiet.2 hmem
    rw [hnil, plansAttempted_nil]
    exact ⟨Or.inl, fun h => h.resolve_right fun hright => hfailed hright.1⟩

def repeatingRule : Rule :=
  { testRule (.manual "panic") with
    actions := [.notify "test" "matched" .normal, .notify "test" "matched" .normal] }

def repeatedPlans : List ActionPlan := appendActions repeatingRule panicEvent

/-- Notifications go through a utility that this host does not have. -/
def desktopConfig : Config :=
  { liveConfig [] [repeatingRule] with
    daemon := { testDaemon with dryRun := false, desktopNotifications := true } }

def afterRepeat (config : Config) : Session :=
  (processEvent (sampleEnv []) bareHost panicEvent (freshSession config)).2

/-- Both notifications fail, so the second one is attempted too. -/
theorem plans_attempted_failing :
    (∃ engine, (freshSession desktopConfig).runtime.engine.handle bareHost panicEvent =
        some (engine, repeatedPlans)) ∧
      PlansAttempted (sampleEnv []) panicEvent repeatedPlans (afterRepeat desktopConfig).trace := by
  have htrace : (processEvent (sampleEnv []) bareHost panicEvent
      (freshSession desktopConfig)).2.trace =
      (freshSession desktopConfig).trace ++ (afterRepeat desktopConfig).trace := by
    rw [afterRepeat, show (freshSession desktopConfig).trace = [] from rfl, List.nil_append]
  have hquiet : Mark.failed ∉ (afterRepeat desktopConfig).trace ∧
      Mark.crashed ∉ (afterRepeat desktopConfig).trace := by decide +kernel
  refine ⟨⟨_, rfl⟩, (plans_attempted_iff (sampleEnv []) bareHost panicEvent
    (freshSession desktopConfig) _ repeatedPlans _ rfl (fun _ _ => rfl) htrace hquiet).mpr
    (Or.inr ⟨rfl, ?_⟩)⟩
  intro i j earlier later hij hi hj _
  rcases i with _ | _ | i
  · cases hi
    decide +kernel
  · cases hi
    decide +kernel
  · cases hi

/-- The same rule where the first notification succeeds: the second is skipped. -/
theorem repeated_action_skipped :
    validateConfig (fun _ => none) (liveConfig [] [repeatingRule]) = .ok () ∧
      (∃ engine, (freshSession (liveConfig [] [repeatingRule])).runtime.engine.handle bareHost
        panicEvent = some (engine, repeatedPlans)) ∧
      FreshEvent (freshSession (liveConfig [] [repeatingRule])).store panicEvent ∧
      (Mark.failed ∉ (afterRepeat (liveConfig [] [repeatingRule])).trace ∧
        Mark.crashed ∉ (afterRepeat (liveConfig [] [repeatingRule])).trace) ∧
      ¬ PlansAttempted (sampleEnv []) panicEvent repeatedPlans
        (afterRepeat (liveConfig [] [repeatingRule])).trace := by
  have hone : ((afterRepeat (liveConfig [] [repeatingRule])).trace.filter Mark.isAttempt).length =
      3 := by decide +kernel
  refine ⟨rfl, ⟨_, rfl⟩, fun _ _ => rfl, by decide +kernel, ?_⟩
  rintro ⟨results, hlength, hmarks⟩
  rw [hmarks, length_flatMap_attemptMarks, List.length_zip, List.length_map, hlength,
    Nat.min_self] at hone
  exact absurd hone (by decide)

end Kovert
