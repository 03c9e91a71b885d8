import Kovert.RuntimeStep

/-!
# What one plan asks of the store

`execute_plan` written out as data. Given the ledger and the executor's answer,
the calls on the store, the executor call and the mode change that handling a
plan makes are a list known in advance. The list is carried out from its start
until the store refuses a call, so that everything about failures in the middle
of a plan is one induction over the list. `process_event` is the record of the
event followed by the scripts of its plans.
-/

namespace Kovert

open Fallible Session

/-! ## Store calls as data -/

inductive StoreCall where
  | append (eventId : Option String) (kind : String) (ruleId : Option String) (payload : String)
  | setState (key value : String)
  | actionCompleted (key : LedgerKey)
  | recordAction (key : LedgerKey) (status : ActionStatus) (outcome : Option String)

namespace StoreCall

def commit (blake3 : List UInt8 → String) (clock : String) (store : DaemonStore) :
    StoreCall → Except String DaemonStore
  | .append eventId kind ruleId payload => store.append blake3 clock eventId kind ruleId payload
  | .setState key value => .ok (store.setState key value)
  | .actionCompleted _ => .ok store
  | .recordAction key status outcome => .ok (store.recordAction key status outcome clock)

def marks : StoreCall → List Mark
  | .append eventId kind ruleId _ => [.audited eventId kind ruleId]
  | .setState key value => [.stored key value]
  | .actionCompleted _ => []
  | .recordAction key status _ => [.recorded key status]

def perform (env : Environment) (call : StoreCall) : Fallible Journal Stop Unit :=
  Journal.storeCall env
    (fun clock store => (call.commit env.blake3 clock store).map (fun store => ((), store)))
    call.marks

/-- The store after call number `n`, if the environment lets it through. -/
def serve (env : Environment) (call : StoreCall) (n : ℕ) (store : DaemonStore) :
    Option DaemonStore :=
  match env.answer n with
  | .succeeds clock => (call.commit env.blake3 clock store).toOption
  | _ => none

/-- The store after these calls, the first of them call number `n`. -/
def serves (env : Environment) : List StoreCall → ℕ → DaemonStore → Option DaemonStore
  | [], _, store => some store
  | call :: calls, n, store => (call.serve env n store).bind (serves env calls (n + 1))

theorem perform_served {env : Environment} {call : StoreCall} {journal : Journal}
    {store : DaemonStore} (h : call.serve env journal.calls journal.store = some store) :
    call.perform env journal =
      (.ok (), { journal with calls := journal.calls + 1, store := store }.mark call.marks) := by
  unfold serve at h
  unfold perform Journal.storeCall
  cases hanswer : env.answer journal.calls with
  | crashes => simp [hanswer] at h
  | fails message => simp [hanswer] at h
  | succeeds clock =>
      simp only [hanswer] at h
      cases hcommit : call.commit env.blake3 clock journal.store with
      | error message => simp [hcommit, Except.toOption] at h
      | ok after =>
          simp only [hcommit, Except.toOption, Option.some.injEq] at h
          subst h
          simp only [hcommit, Except.map]

/-- A call that is not carried out leaves the store as it was. -/
theorem perform_refused {env : Environment} {call : StoreCall} {journal : Journal}
    (h : call.serve env journal.calls journal.store = none) :
    ∃ stop mark, call.perform env journal =
        (.error stop, { journal with calls := journal.calls + 1 }.mark [mark]) ∧
      (mark = .failed ∨ mark = .crashed) := by
  unfold serve at h
  unfold perform Journal.storeCall
  cases hanswer : env.answer journal.calls with
  | crashes => exact ⟨.crashed, .crashed, rfl, Or.inr rfl⟩
  | fails message => exact ⟨.failed message, .failed, rfl, Or.inl rfl⟩
  | succeeds clock =>
      simp only [hanswer] at h
      cases hcommit : call.commit env.blake3 clock journal.store with
      | error message =>
          refine ⟨.failed message, .failed, ?_, Or.inl rfl⟩
          simp only [hcommit, Except.map]
      | ok after => simp [hcommit, Except.toOption] at h

end StoreCall

/-! ## The steps of a plan -/

inductive PlanStep where
  | store (call : StoreCall)
  | invoke (key : LedgerKey)
  | switchMode (mode : String)

namespace PlanStep

def run (env : Environment) : PlanStep → Activity Unit
  | .store call => onJournal (call.perform env)
  | .invoke key => modify (fun session =>
      { session with
        executions := session.executions + 1
        trace := session.trace ++ [.invoked key] })
  | .switchMode mode => updateEngine (fun engine => engine.setMode mode)

def call? : PlanStep → Option StoreCall
  | .store call => some call
  | _ => none

def marks : PlanStep → List Mark
  | .store call => call.marks
  | .invoke key => [.invoked key]
  | .switchMode _ => []

def invocations : PlanStep → ℕ
  | .invoke _ => 1
  | _ => 0

end PlanStep

def storeCalls (script : List PlanStep) : List StoreCall := script.filterMap PlanStep.call?

def effectScript : ActionEffect → List PlanStep
  | .setMode mode => [.switchMode mode, .store (.setState "mode" mode)]
  | .networkIsolation enabled =>
      [.store (.setState "network_isolated" (if enabled then "true" else "false"))]
  | .none => []

/-- The writes after the executor has answered. -/
def outcomeScript (env : Environment) (key : LedgerKey) :
    Except String ActionOutcome → List PlanStep
  | .ok outcome =>
      [.store (.recordAction key (if outcome.success then .succeeded else .failed)
          (some (env.serde.outcome outcome))),
        .store (.append (some key.eventId)
          (if outcome.success then "action_succeeded" else "action_failed") (some key.ruleId)
          (env.serde.outcome outcome))] ++
        if outcome.success && !outcome.dryRun then effectScript outcome.effect else []
  | .error message =>
      [.store (.recordAction key .failed
          (some (env.serde.object [("error", .text message)]))),
        .store (.append (some key.eventId) "action_failed" (some key.ruleId)
          (env.serde.object [("error", .text message)]))]

/-- All that handling a plan does. `n` is the number of executions so far. -/
def planScript (env : Environment) (executor : ExecutionContext) (event : Event)
    (plan : ActionPlan) (n : ℕ) (store : DaemonStore) : List PlanStep :=
  let key := ledgerKey env event plan
  .store (.actionCompleted key) ::
    if store.actionCompleted key then []
    else
      [.store (.recordAction key .started none),
        .store (.append (some key.eventId) "action_started" (some key.ruleId)
          (env.serde.action plan.action)),
        .invoke key] ++
      outcomeScript env key (executor.execute (env.tools n) plan.action event)

/-! ## The script is what `execute_plan` does -/

section Script

variable {env : Environment}

/-- The script behind the call of a step. -/
def runScript (env : Environment) (script : List PlanStep) : Activity Unit :=
  forEach (PlanStep.run env) script

theorem runScript_nil : runScript env [] = pure () := rfl

theorem runScript_cons (step : PlanStep) (script : List PlanStep) :
    runScript env (step :: script) = step.run env >>= fun _ => runScript env script := rfl

theorem runScript_append (left right : List PlanStep) :
    runScript env (left ++ right) = runScript env left >>= fun _ => runScript env right := by
  induction left with
  | nil => rfl
  | cons step left ih =>
      rw [List.cons_append, runScript_cons, runScript_cons, ih, bind_assoc]

theorem applyEffect_eq (effect : ActionEffect) :
    applyEffect env effect = runScript env (effectScript effect) := by
  cases effect with
  | none => rfl
  | setMode mode =>
      rw [effectScript, runScript_cons, runScript_cons, runScript_nil, bind_pure_unit]
      rfl
  | networkIsolation enabled =>
      rw [effectScript, runScript_cons, runScript_nil, bind_pure_unit]
      rfl

theorem recordOutcome_eq (key : LedgerKey) (success : Bool) (payload : String) :
    recordOutcome env key success payload = runScript env
      [.store (.recordAction key (if success then .succeeded else .failed) (some payload)),
        .store (.append (some key.eventId)
          (if success then "action_succeeded" else "action_failed") (some key.ruleId) payload)] := by
  rw [runScript_cons, runScript_cons, runScript_nil, bind_pure_unit]
  rfl

theorem concludePlan_eq (key : LedgerKey) (result : Except String ActionOutcome) :
    concludePlan env key result = runScript env (outcomeScript env key result) := by
  cases result with
  | error message => exact recordOutcome_eq key false _
  | ok outcome =>
      rw [concludePlan, outcomeScript, runScript_append, ← recordOutcome_eq]
      split
      · rw [applyEffect_eq]
      · rfl

theorem run_store_served {call : StoreCall} {session : Session} {store : DaemonStore}
    (h : call.serve env session.calls session.store = some store) :
    (PlanStep.store call).run env session = (.ok (),
      { session with
        calls := session.calls + 1
        store := store
        trace := session.trace ++ call.marks }) := by
  have hperform : call.perform env session.toJournal = _ := StoreCall.perform_served h
  simp only [PlanStep.run, onJournal, zoom, hperform, Journal.mark]

theorem run_store_refused {call : StoreCall} {session : Session}
    (h : call.serve env session.calls session.store = none) :
    ∃ stop mark, (PlanStep.store call).run env session = (.error stop,
        { session with
          calls := session.calls + 1
          trace := session.trace ++ [mark] }) ∧ (mark = .failed ∨ mark = .crashed) := by
  obtain ⟨stop, mark, hperform, hmark⟩ : ∃ stop mark,
      call.perform env session.toJournal = (.error stop, _) ∧ _ := StoreCall.perform_refused h
  refine ⟨stop, mark, ?_, hmark⟩
  simp only [PlanStep.run, onJournal, zoom, hperform, Journal.mark]

/-- Two programs agree behind a store call if they agree on the sessions it can lead to. -/
theorem bind_store_congr {call : StoreCall} {session : Session} {f g : Activity Unit}
    (h : ∀ next, next.runtime = session.runtime → next.executions = session.executions →
      f next = g next) :
    ((PlanStep.store call).run env >>= fun _ => f) session =
      ((PlanStep.store call).run env >>= fun _ => g) session := by
  cases hserve : call.serve env session.calls session.store with
  | none =>
      obtain ⟨stop, mark, hrun, _⟩ := run_store_refused hserve
      rw [bind_error hrun, bind_error hrun]
  | some store =>
      rw [bind_ok (run_store_served hserve), bind_ok (run_store_served hserve)]
      exact h _ rfl rfl

/-- The answer of `action_completed` is known before the call. -/
theorem actionCompleted_bind {key : LedgerKey} {session : Session} (f : Bool → Activity Unit) :
    (onJournal (Journal.actionCompleted env key) >>= f) session =
      ((PlanStep.store (.actionCompleted key)).run env >>=
        fun _ => f (session.store.actionCompleted key)) session := by
  cases hanswer : env.answer session.calls <;>
    simp only [Bind.bind, Fallible.bind, PlanStep.run, onJournal, zoom, StoreCall.perform,
      Journal.actionCompleted, Journal.storeCall, hanswer, StoreCall.commit, Except.map,
      StoreCall.marks]

theorem executePlan_eq (event : Event) (plan : ActionPlan) (session : Session) :
    executePlan env event plan session =
      runScript env (planScript env session.runtime.executor event plan session.executions
          session.store)
        { session with trace := session.trace ++ [.planned (ledgerKey env event plan)] } := by
  let key := ledgerKey env event plan
  let planned : Session := { session with trace := session.trace ++ [.planned key] }
  let started : PlanStep := .store (.recordAction key .started none)
  let announced : PlanStep := .store (.append (some key.eventId) "action_started"
    (some key.ruleId) (env.serde.action plan.action))
  let result := session.runtime.executor.execute (env.tools session.executions) plan.action event
  change (onJournal (Journal.actionCompleted env key) >>= fun completed =>
    if completed then pure ()
    else started.run env >>= fun _ => announced.run env >>= fun _ =>
      execute env key plan.action event >>= concludePlan env key) planned = _
  rw [actionCompleted_bind, planScript, runScript_cons]
  refine bind_store_congr fun next hruntime hexecutions => ?_
  change (if session.store.actionCompleted key then _ else _ : Activity Unit) next =
    runScript env (if session.store.actionCompleted key then _ else _) next
  split
  · rfl
  · change (started.run env >>= _) next = (started.run env >>= fun _ => announced.run env >>=
      fun _ => runScript env (.invoke key :: outcomeScript env key result)) next
    refine bind_store_congr fun next' hruntime' hexecutions' => ?_
    refine bind_store_congr fun next'' hruntime'' hexecutions'' => ?_
    -- neither write touched what the executor's answer depends on
    have hanswer : next''.runtime.executor.execute (env.tools next''.executions) plan.action
        event = result := by
      rw [hruntime'', hruntime', hruntime, hexecutions'', hexecutions', hexecutions]
    change concludePlan env key (next''.runtime.executor.execute _ plan.action event) _ = _
    rw [concludePlan_eq, hanswer]
    rfl

/-! ## Carrying out a script -/

/-- The runtime after a change of the mode, or an unchanged one. -/
def Runtime.UpToMode (before after : Runtime) : Prop :=
  ∃ mode, after = { before with engine := before.engine.setMode mode }

theorem Runtime.UpToMode.refl (runtime : Runtime) : runtime.UpToMode runtime :=
  ⟨runtime.engine.snapshot.mode, rfl⟩

theorem Runtime.UpToMode.trans {first second third : Runtime} (h : first.UpToMode second)
    (h' : second.UpToMode third) : first.UpToMode third := by
  obtain ⟨mode, rfl⟩ := h
  obtain ⟨mode', rfl⟩ := h'
  exact ⟨mode', rfl⟩

theorem Runtime.UpToMode.executor_eq {before after : Runtime} (h : before.UpToMode after) :
    after.executor = before.executor := by
  obtain ⟨mode, rfl⟩ := h
  rfl

/-- A session in which the whole script has been carried out. -/
structure ScriptDone (script : List PlanStep) (store : DaemonStore) (before after : Session) :
    Prop where
  store_eq : after.store = store
  calls_eq : after.calls = before.calls + (storeCalls script).length
  executions_eq : after.executions = before.executions + (script.map PlanStep.invocations).sum
  trace_eq : after.trace = before.trace ++ script.flatMap PlanStep.marks
  runtime_upToMode : before.runtime.UpToMode after.runtime

/-- A session in which the store has refused a call of the script. -/
structure ScriptCut (before after : Session) : Prop where
  trace_cut : ∃ marks, after.trace = before.trace ++ marks ∧
    (Mark.failed ∈ marks ∨ Mark.crashed ∈ marks) ∧ ∀ key, Mark.planned key ∉ marks
  runtime_upToMode : before.runtime.UpToMode after.runtime

theorem StoreCall.planned_notMem_marks (call : StoreCall) (key : LedgerKey) :
    Mark.planned key ∉ call.marks := by
  cases call <;> simp [StoreCall.marks]

theorem PlanStep.planned_notMem_marks (step : PlanStep) (key : LedgerKey) :
    Mark.planned key ∉ step.marks := by
  cases step with
  | store call => exact call.planned_notMem_marks key
  | invoke other => simp [PlanStep.marks]
  | switchMode mode => simp [PlanStep.marks]

/-- One step of a script: it is done, or the store refuses its call. -/
theorem PlanStep.run_cases (env : Environment) (step : PlanStep) (session : Session) :
    (∃ store next, step.run env session = (.ok (), next) ∧ ScriptDone [step] store session next ∧
      StoreCall.serves env (storeCalls [step]) session.calls session.store = some store) ∨
    (∃ stop next, step.run env session = (.error stop, next) ∧ ScriptCut session next ∧
      StoreCall.serves env (storeCalls [step]) session.calls session.store = none) := by
  cases step with
  | invoke key =>
      exact Or.inl ⟨_, _, rfl, ⟨rfl, rfl, rfl, rfl, Runtime.UpToMode.refl _⟩, rfl⟩
  | switchMode mode =>
      refine Or.inl ⟨_, _, rfl, ⟨rfl, rfl, rfl, ?_, ⟨mode, rfl⟩⟩, rfl⟩
      exact (List.append_nil _).symm
  | store call =>
      cases hserve : call.serve env session.calls session.store with
      | some store =>
          refine Or.inl ⟨store, _, run_store_served hserve, ⟨rfl, rfl, rfl, ?_, ?_⟩, ?_⟩
          · simp [PlanStep.marks]
          · exact Runtime.UpToMode.refl _
          · simp [storeCalls, PlanStep.call?, StoreCall.serves, hserve]
      | none =>
          obtain ⟨stop, mark, hrun, hmark⟩ := run_store_refused hserve
          refine Or.inr ⟨stop, _, hrun, ⟨⟨[mark], rfl, ?_, ?_⟩, Runtime.UpToMode.refl _⟩, ?_⟩
          · rcases hmark with rfl | rfl <;> simp
          · rcases hmark with rfl | rfl <;> simp
          · simp [storeCalls, PlanStep.call?, StoreCall.serves, hserve]

theorem StoreCall.serves_append (left right : List StoreCall) (n : ℕ) (store : DaemonStore) :
    serves env (left ++ right) n store =
      (serves env left n store).bind (serves env right (n + left.length)) := by
  induction left generalizing n store with
  | nil => rfl
  | cons call left ih =>
      rw [List.cons_append, serves, serves, Option.bind_assoc]
      refine congrArg _ (funext fun next => ?_)
      rw [ih, List.length_cons, Nat.add_assoc, Nat.add_comm 1]

theorem ScriptDone.trans {left right : List PlanStep} {store store' : DaemonStore}
    {first second third : Session} (h : ScriptDone left store first second)
    (h' : ScriptDone right store' second third) :
    ScriptDone (left ++ right) store' first third where
  store_eq := h'.store_eq
  calls_eq := by
    rw [h'.calls_eq, h.calls_eq, storeCalls, storeCalls, storeCalls, List.filterMap_append,
      List.length_append, Nat.add_assoc]
  executions_eq := by
    rw [h'.executions_eq, h.executions_eq, List.map_append, List.sum_append, Nat.add_assoc]
  trace_eq := by
    rw [h'.trace_eq, h.trace_eq, List.flatMap_append, List.append_assoc]
  runtime_upToMode := h.runtime_upToMode.trans h'.runtime_upToMode

theorem ScriptCut.after_done {script : List PlanStep} {store : DaemonStore}
    {first second third : Session} (h : ScriptDone script store first second)
    (h' : ScriptCut second third) : ScriptCut first third := by
  obtain ⟨marks, htrace, hmark, hplanned⟩ := h'.trace_cut
  refine ⟨⟨script.flatMap PlanStep.marks ++ marks, ?_, ?_, ?_⟩,
    h.runtime_upToMode.trans h'.runtime_upToMode⟩
  · rw [htrace, h.trace_eq, List.append_assoc]
  · exact hmark.imp (List.mem_append_right _) (List.mem_append_right _)
  · intro key hmem
    rcases List.mem_append.mp hmem with hmem | hmem
    · obtain ⟨step, _, hstep⟩ := List.mem_flatMap.mp hmem
      exact step.planned_notMem_marks key hstep
    · exact hplanned key hmem

/-- A script is carried out whole, or up to the call that the store refuses. -/
theorem runScript_cases (env : Environment) (script : List PlanStep) (session : Session) :
    (∃ store next, runScript env script session = (.ok (), next) ∧
      ScriptDone script store session next ∧
      StoreCall.serves env (storeCalls script) session.calls session.store = some store) ∨
    (∃ stop next, runScript env script session = (.error stop, next) ∧ ScriptCut session next ∧
      StoreCall.serves env (storeCalls script) session.calls session.store = none) := by
  induction script generalizing session with
  | nil =>
      refine Or.inl ⟨_, session, rfl, ⟨rfl, rfl, rfl, ?_, Runtime.UpToMode.refl _⟩, rfl⟩
      exact (List.append_nil _).symm
  | cons step script ih =>
      have hcalls : storeCalls (step :: script) = storeCalls [step] ++ storeCalls script :=
        List.filterMap_append (l := [step])
      rw [runScript_cons, hcalls, StoreCall.serves_append]
      rcases step.run_cases env session with
        ⟨store, next, hrun, hdone, hserve⟩ | ⟨stop, next, hrun, hcut, hserve⟩
      · rw [bind_ok hrun, hserve, Option.bind_some, ← hdone.calls_eq, ← hdone.store_eq]
        rcases ih next with ⟨store', last, hrun', hdone', hserve'⟩ | ⟨stop, last, hrun', hcut, hserve'⟩
        · exact Or.inl ⟨store', last, hrun', hdone.trans hdone', hserve'⟩
        · exact Or.inr ⟨stop, last, hrun', hcut.after_done hdone, hserve'⟩
      · rw [bind_error hrun, hserve]
        exact Or.inr ⟨stop, next, rfl, hcut, rfl⟩

/-- The session in which `execute_plan` starts. -/
def Session.opening (session : Session) (key : LedgerKey) : Session :=
  { session with trace := session.trace ++ [.planned key] }

/-- What this session does for a plan. -/
def Session.script (env : Environment) (event : Event) (session : Session) (plan : ActionPlan) :
    List PlanStep :=
  planScript env session.runtime.executor event plan session.executions session.store

/-- A plan is carried out, or cut short where the store refuses a call. -/
theorem executePlan_cases (env : Environment) (event : Event) (plan : ActionPlan)
    (session : Session) :
    (∃ store next, executePlan env event plan session = (.ok (), next) ∧
      ScriptDone (session.script env event plan) store
        (session.opening (ledgerKey env event plan)) next ∧
      StoreCall.serves env (storeCalls (session.script env event plan)) session.calls
        session.store = some store) ∨
    (∃ stop next, executePlan env event plan session = (.error stop, next) ∧
      ScriptCut (session.opening (ledgerKey env event plan)) next ∧
      StoreCall.serves env (storeCalls (session.script env event plan)) session.calls
        session.store = none) := by
  rw [executePlan_eq]
  exact runScript_cases env (session.script env event plan)
    (session.opening (ledgerKey env event plan))

/-! ## The plans of an event -/

/-- The loop over the plans with the entries it adds to the trace: each plan is
carried out, until the store refuses a call for one. -/
inductive PlansRun (env : Environment) (event : Event) :
    List ActionPlan → Session → List Mark → Session → Prop where
  | finished (session : Session) : PlansRun env event [] session [] session
  | carriedOut {plan : ActionPlan} {rest : List ActionPlan} {store : DaemonStore}
      {session next last : Session} {gained : List Mark}
      (hdone : ScriptDone (session.script env event plan) store
        (session.opening (ledgerKey env event plan)) next)
      (hserve : StoreCall.serves env (storeCalls (session.script env event plan)) session.calls
        session.store = some store)
      (hrest : PlansRun env event rest next gained last) :
      PlansRun env event (plan :: rest) session (.planned (ledgerKey env event plan) ::
        ((session.script env event plan).flatMap PlanStep.marks ++ gained)) last
  | cutShort {plan : ActionPlan} {rest : List ActionPlan} {session last : Session}
      {marks : List Mark} (hmode : session.runtime.UpToMode last.runtime)
      (hmark : Mark.failed ∈ marks ∨ Mark.crashed ∈ marks)
      (hplanned : ∀ key, Mark.planned key ∉ marks)
      (hserve : StoreCall.serves env (storeCalls (session.script env event plan)) session.calls
        session.store = none) :
      PlansRun env event (plan :: rest) session (.planned (ledgerKey env event plan) :: marks) last

theorem forEach_plansRun (env : Environment) (event : Event) (plans : List ActionPlan)
    (session : Session) :
    ∃ gained, (forEach (executePlan env event) plans session).2.trace = session.trace ++ gained ∧
      PlansRun env event plans session gained
        (forEach (executePlan env event) plans session).2 := by
  induction plans generalizing session with
  | nil => exact ⟨[], (List.append_nil _).symm, .finished session⟩
  | cons plan rest ih =>
      have hloop : forEach (executePlan env event) (plan :: rest) session =
          (executePlan env event plan >>= fun _ => forEach (executePlan env event) rest)
            session := rfl
      rw [hloop]
      rcases executePlan_cases env event plan session with
        ⟨store, next, hrun, hdone, hserve⟩ | ⟨stop, next, hrun, hcut, hserve⟩
      · rw [bind_ok hrun]
        obtain ⟨gained, htrace, hrest⟩ := ih next
        refine ⟨_, ?_, .carriedOut hdone hserve hrest⟩
        rw [htrace, hdone.trace_eq, Session.opening, List.append_assoc, List.append_assoc]
        rfl
      · rw [bind_error hrun]
        obtain ⟨marks, htrace, hmark, hplanned⟩ := hcut.trace_cut
        refine ⟨_, ?_, .cutShort hcut.runtime_upToMode hmark hplanned hserve⟩
        rw [htrace, Session.opening, List.append_assoc]
        rfl

/-- Only the mode of the runtime may change. -/
theorem PlansRun.upToMode {event : Event} {plans : List ActionPlan} {session last : Session}
    {gained : List Mark} (h : PlansRun env event plans session gained last) :
    session.runtime.UpToMode last.runtime := by
  induction h with
  | finished session => exact Runtime.UpToMode.refl _
  | carriedOut hdone _ _ ih => exact hdone.runtime_upToMode.trans ih
  | cutShort hmode _ _ _ => exact hmode

end Script

section Event

variable {env : Environment} {event : Event}

/-! ## One event -/

def eventCall (event : Event) (payload : String) : StoreCall :=
  .append (some (uuidText event.id)) "event" none payload

/-- The event serializes and its audit record is committed, leaving this store. -/
def EventRecorded (env : Environment) (event : Event) (session : Session) (store : DaemonStore) :
    Prop :=
  ∃ payload, env.serde.event event = .ok payload ∧
    (eventCall event payload).serve env session.calls session.store = some store

theorem EventRecorded.unique {session : Session} {store store' : DaemonStore}
    (h : EventRecorded env event session store) (h' : EventRecorded env event session store') :
    store = store' := by
  obtain ⟨payload, hpayload, hserve⟩ := h
  obtain ⟨payload', hpayload', hserve'⟩ := h'
  cases hpayload.symm.trans hpayload'
  exact Option.some.inj (hserve.symm.trans hserve')

/-- The session in which the plans of a recorded event are carried out. -/
def Session.withPlans (session : Session) (event : Event) (engine : PolicyEngine)
    (store : DaemonStore) : Session :=
  { session with
    calls := session.calls + 1
    store := store
    trace := session.trace ++ [.audited (some (uuidText event.id)) "event" none]
    runtime := { session.runtime with engine := engine } }

theorem processEvent_eq (host : Host) (session : Session) {payload : String}
    (hpayload : env.serde.event event = .ok payload) :
    processEvent env host event session =
      ((PlanStep.store (eventCall event payload)).run env >>= fun _ => handle host event >>=
        fun plans => forEach (executePlan env event) plans >>= fun _ => pure plans.length)
        session := by
  unfold processEvent
  rw [hpayload]
  rfl

theorem processEvent_recorded {host : Host} {session : Session} {engine : PolicyEngine}
    {plans : List ActionPlan} {store : DaemonStore}
    (hhandle : session.runtime.engine.handle host event = some (engine, plans))
    (hrecorded : EventRecorded env event session store) :
    (processEvent env host event session).2 =
      (forEach (executePlan env event) plans (session.withPlans event engine store)).2 := by
  obtain ⟨payload, hpayload, hserve⟩ := hrecorded
  have hplans : handle host event
      { session with
        calls := session.calls + 1
        store := store
        trace := session.trace ++ (eventCall event payload).marks } =
      (.ok plans, session.withPlans event engine store) := by
    unfold handle
    simp only [hhandle]
    rfl
  rw [processEvent_eq host session hpayload, bind_ok (run_store_served hserve), bind_ok hplans]
  exact bind_pure_snd _ (fun _ => plans.length) _

/-- An event that is not recorded does not reach the engine. -/
theorem processEvent_lost (host : Host) {session : Session}
    (hlost : ∀ store, ¬ EventRecorded env event session store) :
    (processEvent env host event session).2.runtime = session.runtime ∧
      ∃ marks, (processEvent env host event session).2.trace = session.trace ++ marks ∧
        ((env.serde.event event).isOk = true → Mark.failed ∈ marks ∨ Mark.crashed ∈ marks) ∧
        ∀ mark ∈ marks, mark = .failed ∨ mark = .crashed := by
  cases hpayload : env.serde.event event with
  | error message =>
      have hresult : processEvent env host event session = (.error (.failed message), session) := by
        unfold processEvent
        rw [hpayload]
        rfl
      rw [hresult]
      refine ⟨rfl, [], (List.append_nil _).symm, ?_, ?_⟩
      · intro hok
        cases hok
      · intro mark hmark
        cases hmark
  | ok payload =>
      have hserve : (eventCall event payload).serve env session.calls session.store = none := by
        cases hserve : (eventCall event payload).serve env session.calls session.store with
        | none => rfl
        | some store => exact absurd ⟨payload, hpayload, hserve⟩ (hlost store)
      obtain ⟨stop, mark, hrun, hmark⟩ := run_store_refused hserve
      rw [processEvent_eq host session hpayload, bind_error hrun]
      refine ⟨rfl, [mark], rfl, ?_, ?_⟩
      · intro _
        rcases hmark with rfl | rfl <;> simp
      · intro other hother
        rw [List.mem_singleton.mp hother]
        exact hmark

end Event

end Kovert
