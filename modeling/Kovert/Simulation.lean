import Kovert.ProcessLife
import Kovert.SensorTasks
import Kovert.SnapshotHistory

/-!
# Simulations come true

Requests that only look are invisible: a run of the daemon and the same run
without them end in the same daemon. What a simulation answers is what becomes of
the event when it is handled next, whatever else was looked at in between, until
the store refuses a call.
-/

namespace Kovert

open Fallible Session

variable {env : Environment}

/-- Requests that look at the runtime and ask nothing of the store. -/
def Request.isQuery : Request → Bool
  | .status | .rules | .simulate _ => true
  | _ => false

def DaemonOp.isQuery : DaemonOp → Bool
  | .control _ request => request.isQuery
  | _ => false

/-- The host conditions that a step meets. -/
def DaemonOp.host : DaemonOp → Option Host
  | .event host _ => some host
  | .control situation _ => some situation.host
  | _ => none

def simulationResponse (plans : List ActionPlan) : Response :=
  .success ("simulation produced " ++ toString plans.length ++ " action(s)") (some (.plans plans))

/-- The plans are carried out in order, all of them unless the event does not
serialize or the store refuses a call. -/
def CarriesOut (env : Environment) (event : Event) (plans : List ActionPlan)
    (before after : Journal) : Prop :=
  ∃ gained, after.trace = before.trace ++ gained ∧
    gained.filterMap Mark.planned? <+: plans.map (ledgerKey env event) ∧
    ((env.serde.event event).isOk = true → Mark.failed ∉ gained → Mark.crashed ∉ gained →
      gained.filterMap Mark.planned? = plans.map (ledgerKey env event))

/-! ## Requests that look -/

theorem simulate_answers {session : Session} {engine : PolicyEngine} {plans : List ActionPlan}
    (situation : Situation) (event : Event)
    (hh : session.runtime.engine.handle situation.host event = some (engine, plans)) :
    handleControl env situation (.simulate event) session =
      (.ok (simulationResponse plans), session) := by
  have hplans : simulate situation.host event session = (.ok plans, session) := by
    unfold simulate
    rw [hh]
  have hresult : handleControlResult env situation (.simulate event) session =
      (.ok (simulationResponse plans), session) := bind_ok hplans
  unfold handleControl
  rw [hresult]

theorem query_answers {session : Session} (situation : Situation) {request : Request}
    (hquery : request.isQuery = true) (h : SequencesInBounds session.runtime.engine) :
    ∃ response, handleControl env situation request session = (.ok response, session) := by
  cases request with
  | status => exact ⟨_, rfl⟩
  | rules => exact ⟨_, rfl⟩
  | simulate event =>
      obtain ⟨engine, plans, hh, _⟩ := h.handle situation.host event
      exact ⟨_, simulate_answers situation event hh⟩
  | _ => cases hquery

theorem query_step {daemon after : Daemon} {op : DaemonOp} (hquery : op.isQuery = true)
    (h : BoundedDaemon daemon) (hs : daemon.step env op = some after) : after = daemon := by
  cases op with
  | control situation request =>
      obtain ⟨runtime, hruntime, rfl⟩ := Option.map_eq_some_iff.mp hs
      have hbounds : SequencesInBounds
          ({ daemon.toJournal with runtime := runtime } : Session).runtime.engine :=
        h runtime hruntime
      obtain ⟨response, hanswer⟩ : ∃ response,
          handleControl env situation request { daemon.toJournal with runtime := runtime } =
            (.ok response, { daemon.toJournal with runtime := runtime }) :=
        query_answers situation hquery hbounds
      unfold Daemon.activate
      rw [hanswer]
      cases daemon
      cases hruntime
      rfl
  | _ => cases hquery

/-- However often the daemon is asked, it is the same daemon. -/
theorem run_queries {daemon after : Daemon} {queries : List DaemonOp}
    (hqueries : ∀ query ∈ queries, query.isQuery = true) (h : BoundedDaemon daemon)
    (hrun : Execution.run (Daemon.step env) daemon queries = some after) : after = daemon := by
  induction queries with
  | nil =>
      cases hrun
      rfl
  | cons query queries ih =>
      obtain ⟨next, hs, hrest⟩ := Option.bind_eq_some_iff.mp hrun
      obtain rfl := query_step (hqueries query List.mem_cons_self) h hs
      exact ih (fun other hother => hqueries other (List.mem_cons_of_mem query hother)) hrest

/-! ## The event itself -/

theorem PlansRun.planned_front {event : Event} {plans : List ActionPlan}
    {session last : Session} {gained : List Mark} (h : PlansRun env event plans session gained last) :
    gained.filterMap Mark.planned? <+: plans.map (ledgerKey env event) ∧
      (Mark.failed ∉ gained → Mark.crashed ∉ gained →
        gained.filterMap Mark.planned? = plans.map (ledgerKey env event)) := by
  induction h with
  | finished session => exact ⟨List.prefix_rfl, fun _ _ => rfl⟩
  | @carriedOut plan rest store session next last gained hdone hserve _ ih =>
      rw [List.filterMap_cons_some (f := Mark.planned?) rfl, List.filterMap_append,
        planned_flatMap_marks, List.nil_append, List.map_cons]
      refine ⟨(List.prefix_cons_inj _).mpr ih.1, fun hfailed hcrashed => ?_⟩
      simp only [List.mem_cons, List.mem_append, not_or] at hfailed hcrashed
      rw [ih.2 hfailed.2.2 hcrashed.2.2]
  | @cutShort plan rest session last marks _ hmark hplanned _ =>
      rw [List.filterMap_cons_some (f := Mark.planned?) rfl, filterMap_planned?_eq_nil hplanned,
        List.map_cons]
      refine ⟨(List.prefix_cons_inj _).mpr List.nil_prefix, fun hfailed hcrashed => ?_⟩
      rcases hmark with hmem | hmem
      · exact absurd (List.mem_cons_of_mem _ hmem) hfailed
      · exact absurd (List.mem_cons_of_mem _ hmem) hcrashed

theorem processEvent_carriesOut {host : Host} {event : Event} {session : Session}
    {engine : PolicyEngine} {plans : List ActionPlan}
    (hh : session.runtime.engine.handle host event = some (engine, plans)) :
    CarriesOut env event plans session.toJournal
      (processEvent env host event session).2.toJournal := by
  by_cases hrecorded : ∃ store, EventRecorded env event session store
  · obtain ⟨store, hrecorded⟩ := hrecorded
    obtain ⟨gained, htrace, hloop⟩ :=
      forEach_plansRun env event plans (session.withPlans event engine store)
    rw [← processEvent_recorded hh hrecorded] at htrace
    obtain ⟨hfront, hall⟩ := hloop.planned_front
    refine ⟨.audited (some (uuidText event.id)) "event" none :: gained, ?_, hfront, ?_⟩
    · rw [htrace, Session.withPlans, List.append_assoc]
      rfl
    · intro _ hfailed hcrashed
      exact hall (fun hmem => hfailed (List.mem_cons_of_mem _ hmem))
        (fun hmem => hcrashed (List.mem_cons_of_mem _ hmem))
  · obtain ⟨_, marks, htrace, hrefused, hmarks⟩ :=
      processEvent_lost host (fun store h => hrecorded ⟨store, h⟩)
    have hnone : marks.filterMap Mark.planned? = [] :=
      filterMap_planned?_eq_nil fun key hmem => by cases hmarks _ hmem <;> contradiction
    refine ⟨marks, htrace, by rw [hnone]; exact List.nil_prefix, fun hok hfailed hcrashed => ?_⟩
    rcases hrefused hok with hmem | hmem
    · exact absurd hmem hfailed
    · exact absurd hmem hcrashed

/-- A sensor's event and a manual one are handled alike. -/
theorem step_carriesOut {daemon after : Daemon} {runtime : Runtime} {op : DaemonOp} {host : Host}
    {event : Event} {engine : PolicyEngine} {plans : List ActionPlan}
    (hup : daemon.runtime = some runtime) (hevent : op.processed = some event)
    (hhost : op.host = some host)
    (hh : runtime.engine.handle host event = some (engine, plans))
    (hs : daemon.step env op = some after) :
    CarriesOut env event plans daemon.toJournal after.toJournal := by
  cases op with
  | event host' received =>
      cases hevent
      cases hhost
      obtain ⟨runtime', hup', rfl⟩ := Option.map_eq_some_iff.mp hs
      cases hup.symm.trans hup'
      rw [Daemon.activate_toJournal]
      exact processEvent_carriesOut hh
  | control situation request =>
      cases request with
      | trigger name =>
          cases hevent
          cases hhost
          obtain ⟨runtime', hup', rfl⟩ := Option.map_eq_some_iff.mp hs
          cases hup.symm.trans hup'
          rw [Daemon.activate_toJournal, trigger_snd]
          exact processEvent_carriesOut hh
      | _ => cases hevent
  | _ => cases hevent

/-! ## Runs -/

/-- Queries can be dropped from every run, and a simulation says which plans the
event leads to if it is the next thing handled. -/
theorem simulations_come_true (env : Environment) (store : DaemonStore) (ops : List DaemonOp)
    (daemon : Daemon)
    (hroomy : Execution.AllSteps (Daemon.step env) RoomyOp (Daemon.down store) ops)
    (hrun : Execution.run (Daemon.step env) (Daemon.down store) ops = some daemon) :
    Execution.run (Daemon.step env) (Daemon.down store) (ops.filter (fun op => !op.isQuery)) =
        some daemon ∧
      ∀ runtime situation event, daemon.runtime = some runtime → ∃ plans,
        handleControl env situation (.simulate event)
            { daemon.toJournal with runtime := runtime } =
          (.ok (simulationResponse plans), { daemon.toJournal with runtime := runtime }) ∧
        ∀ queries op after, (∀ query ∈ queries, query.isQuery = true) →
          op.processed = some event → op.host = some situation.host →
          Execution.run (Daemon.step env) daemon (queries ++ [op]) = some after →
          CarriesOut env event plans daemon.toJournal after.toJournal := by
  have hdown : BoundedDaemon (Daemon.down store) := fun runtime hruntime => by cases hruntime
  constructor
  · refine Execution.run_filter (fun _ _ _ hop h hs => step_bounded hop h hs) ?_ hdown hrun hroomy
    intro daemon op after hp h hs
    exact query_step (by simpa using hp) h hs
  · intro runtime situation event hup
    have hbounded : BoundedDaemon daemon :=
      Execution.run_invariant (C := RoomyOp) (P := BoundedDaemon) hdown
        (fun _ _ _ hop h hs => step_bounded hop h hs) hrun hroomy
    obtain ⟨engine, plans, hh, _⟩ := (hbounded runtime hup).handle situation.host event
    refine ⟨plans, simulate_answers situation event hh, ?_⟩
    intro queries op after hqueries hevent hhost hafter
    obtain ⟨reached, hreached, hs⟩ := (Execution.run_snoc_eq_some (Daemon.step env)).mp hafter
    obtain rfl := run_queries hqueries hbounded hreached
    exact step_carriesOut hup hevent hhost hh hs

/-! ## A sequence simulated twice -/

/-- The first step arrives, the second is only simulated. -/
def rehearsedRun : List DaemonOp :=
  [.start (sampleSituation (stagedConfig ["a", "b"])) 0 false,
    .event bareHost (eventAt (.manual "a") 0),
    .control (sampleSituation (stagedConfig ["a", "b"])) (.simulate (eventAt (.manual "b") 1)),
    .control (sampleSituation (stagedConfig ["a", "b"])) (.simulate (eventAt (.manual "b") 1))]

def rehearsedEvent : List DaemonOp :=
  [.control (sampleSituation (stagedConfig ["a", "b"])) .status,
    .event bareHost (eventAt (.manual "b") 1)]

theorem simulations_come_true_rehearsed : ∃ daemon plans after,
    Execution.run (Daemon.step (sampleEnv [])) (Daemon.down emptyStore)
        (rehearsedRun.take 2) = some daemon ∧
      Execution.run (Daemon.step (sampleEnv [])) daemon rehearsedEvent = some after ∧
      plans.length = 1 ∧
      CarriesOut (sampleEnv []) (eventAt (.manual "b") 1) plans daemon.toJournal
        after.toJournal := by
  have hroomy : Execution.AllSteps (Daemon.step (sampleEnv [])) RoomyOp
      (Daemon.down emptyStore) rehearsedRun := by
    refine fun n daemon op hv => ?_
    have hmem : op ∈ rehearsedRun := List.mem_of_getElem? hv.1
    simp only [rehearsedRun, List.mem_cons, List.not_mem_nil, or_false] at hmem
    rcases hmem with rfl | rfl | rfl | rfl
    · trivial
    · trivial
    · exact fun _ _ hreload => by cases hreload
    · exact fun _ _ hreload => by cases hreload
  have hrun : ((Execution.run (Daemon.step (sampleEnv [])) (Daemon.down emptyStore)
      rehearsedRun).bind fun daemon => daemon.runtime.bind fun runtime =>
        (runtime.engine.handle bareHost (eventAt (.manual "b") 1)).bind fun result =>
          (Execution.run (Daemon.step (sampleEnv [])) daemon rehearsedEvent).map fun _ =>
            result.2.length) = some 1 := by decide +kernel
  obtain ⟨daemon, hdaemon, hlive⟩ := Option.bind_eq_some_iff.mp hrun
  obtain ⟨runtime, hup, hhandled⟩ := Option.bind_eq_some_iff.mp hlive
  obtain ⟨⟨engine, planned⟩, hh, hstepped⟩ := Option.bind_eq_some_iff.mp hhandled
  obtain ⟨after, hafter, hlength⟩ := Option.map_eq_some_iff.mp hstepped
  obtain ⟨hdropped, hsimulated⟩ :=
    simulations_come_true (sampleEnv []) emptyStore rehearsedRun daemon hroomy hdaemon
  obtain ⟨plans, hanswer, hcomes⟩ := hsimulated runtime
    (sampleSituation (stagedConfig ["a", "b"])) (eventAt (.manual "b") 1) hup
  have hplans : plans = planned := by
    have hsame := hanswer.symm.trans
      (simulate_answers (sampleSituation (stagedConfig ["a", "b"])) (eventAt (.manual "b") 1) hh)
    simp only [Prod.mk.injEq, Except.ok.injEq, simulationResponse, Response.success,
      Response.mk.injEq, Option.some.injEq, ResponseData.plans.injEq] at hsame
    exact hsame.1.2.2.2
  refine ⟨daemon, plans, after, hdropped, hafter, hplans ▸ hlength, ?_⟩
  exact hcomes [.control (sampleSituation (stagedConfig ["a", "b"])) .status] _ after
    (by simp [DaemonOp.isQuery, Request.isQuery]) rfl rfl hafter

end Kovert
