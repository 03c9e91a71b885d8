import Kovert.JournalRules
import Kovert.Recovery
import Kovert.Restart
import Kovert.SensorTasks

/-!
# Recovery mode over the lives of the daemon

A recovery request that was answered with success is on disk. From then on no
event has an effect until a request lifts recovery: not after a reload, a lost
write, a crash or any number of restarts, and whatever rules the daemon comes
back with.
-/

namespace Kovert

open Fallible Session Execution

/-! ## While recovery is on -/

/-- Recovery is on disk, and no action has been carried out since `start`. -/
structure Suspended (start journal : Journal) : Prop where
  stored : journal.store.getState "recovery_mode" = some "true"
  executions : journal.executions = start.executions
  ledger : journal.store.ledger = start.store.ledger
  isolation : journal.store.getState "network_isolated" = start.store.getState "network_isolated"

/-- The same, and the engine is in recovery. -/
def InRecovery (start : Journal) : Session → Prop :=
  JournalInvariant.OfSession (Suspended start) (fun runtime => runtime.engine.recoveryMode = true)

section Steps

variable {α : Type} {env : Environment} {start : Journal}

theorem Suspended.moved {before after : Journal} (h : Suspended start before)
    (hstored : after.store.getState "recovery_mode" = some "true")
    (hexecutions : after.executions = before.executions)
    (hledger : after.store.ledger = before.store.ledger)
    (hisolation : after.store.getState "network_isolated" =
      before.store.getState "network_isolated") : Suspended start after :=
  ⟨hstored, hexecutions.trans h.executions, hledger.trans h.ledger, hisolation.trans h.isolation⟩

/-- What changes neither the store nor the executions. -/
theorem Suspended.frame {before after : Journal} (h : Suspended start before)
    (hstore : after.store = before.store) (hexecutions : after.executions = before.executions) :
    Suspended start after := by
  refine h.moved ?_ hexecutions ?_ ?_
  · rw [hstore]
    exact h.stored
  · rw [hstore]
  · rw [hstore]

theorem keeps_suspended_storeCall
    {body : String → DaemonStore → Except String (α × DaemonStore)} {marks : List Mark}
    (hbody : ∀ clock store result after, body clock store = .ok (result, after) →
      (store.getState "recovery_mode" = some "true" →
        after.getState "recovery_mode" = some "true") ∧ after.ledger = store.ledger ∧
      after.getState "network_isolated" = store.getState "network_isolated") :
    Keeps (Suspended start) (Journal.storeCall env body marks) := by
  refine Journal.keeps_storeCall ?_ ?_ ?_
  · exact fun journal h => h.frame rfl rfl
  · exact fun journal h => h.frame rfl rfl
  · intro journal clock result store h hstore
    obtain ⟨hstored, hledger, hisolation⟩ := hbody clock journal.store result store hstore
    exact h.moved (hstored h.stored) rfl hledger hisolation

theorem keeps_suspended_query (body : DaemonStore → Except String α) :
    Keeps (Suspended start) (Journal.storeCall env
      (fun _ store => (body store).map (fun value => (value, store))) []) := by
  refine keeps_suspended_storeCall fun clock store result after hafter => ?_
  obtain ⟨value, _, heq⟩ := exists_ok_of_map hafter
  cases heq
  exact ⟨id, rfl, rfl⟩

theorem keeps_suspended_append (eventId ruleId : Option String) (kind payload : String) :
    Keeps (Suspended start) (Journal.append env eventId kind ruleId payload) := by
  refine keeps_suspended_storeCall fun clock store result after hafter => ?_
  obtain ⟨next, happend, heq⟩ := exists_ok_of_map hafter
  cases heq
  refine ⟨fun h => ?_, DaemonStore.append_ledger happend, ?_⟩
  · rw [DaemonStore.append_getState happend (by decide), h]
  · exact DaemonStore.append_getState happend (by decide)

/-- Of the two values that requests store, only the flag speaks of recovery. -/
theorem keeps_suspended_setState {key value : String} (hisolation : key ≠ "network_isolated")
    (hvalue : key = "recovery_mode" → value = "true") :
    Keeps (Suspended start) (Journal.setState env key value) := by
  refine keeps_suspended_storeCall fun clock store result after hafter => ?_
  cases hafter
  refine ⟨fun h => ?_, rfl, Function.update_of_ne hisolation.symm ..⟩
  by_cases hkey : key = "recovery_mode"
  · subst hkey
    rw [hvalue rfl]
    rfl
  · exact (Function.update_of_ne (Ne.symm hkey) ..).trans h

theorem keeps_suspended_startSensors (situation : Situation) (context : String)
    (config : Config) : Keeps (Suspended start) (Journal.startSensors situation context config) :=
  Journal.keeps_startSensors situation context config fun _ _ h => h.frame rfl rfl

theorem keeps_inRecovery_append (eventId ruleId : Option String) (kind payload : String) :
    Keeps (InRecovery start) (Session.append env eventId kind ruleId payload) :=
  JournalInvariant.keeps_journal (keeps_suspended_append eventId ruleId kind payload)

/-! ## Events and requests -/

/-- In recovery an event is recorded and moves the snapshot; there is no plan. -/
theorem keeps_inRecovery_processEvent (host : Host) (event : Event) :
    Keeps (InRecovery start) (processEvent env host event) := by
  refine Keeps.bind (fun session hs => wp_ofExcept (fun _ _ => hs) fun _ _ => hs) fun payload => ?_
  refine (keeps_inRecovery_append _ _ _ _).bind fun _ => ?_
  intro session hs
  refine wp_seq (fun plans after => plans = [] ∧ InRecovery start after) ?_ ?_
  · unfold wp Session.handle
    rw [PolicyEngine.handle_recovery hs.2]
    exact ⟨rfl, hs.1, hs.2⟩
  · rintro plans after ⟨rfl, hafter⟩
    exact hafter

theorem keeps_inRecovery_reload (situation : Situation) :
    Keeps (InRecovery start) (reload env situation) := by
  refine Keeps.bind (fun session hs => wp_ofExcept (fun _ _ => hs) fun _ _ => hs) fun config => ?_
  refine (JournalInvariant.keeps_journal
    (keeps_suspended_startSensors situation _ config)).bind fun handles => ?_
  -- new rules are taken over by an engine that stays in recovery
  refine Keeps.bind (fun session hs => ⟨hs.1.frame rfl rfl, hs.2⟩) fun _ => ?_
  exact Keeps.bind (fun session hs => hs) fun session => keeps_inRecovery_append _ _ _ _

theorem keeps_inRecovery_setMode (mode : String) :
    Keeps (InRecovery start) (Session.setMode env mode) := by
  refine Keeps.bind (fun session hs => hs) fun session => ?_
  split
  · exact fun session hs => hs
  · refine Keeps.bind (fun session hs => ⟨hs.1, hs.2⟩) fun _ => ?_
    refine (JournalInvariant.keeps_journal
      (keeps_suspended_setState (by decide) fun h => absurd h (by decide))).bind fun _ => ?_
    exact keeps_inRecovery_append _ _ _ _

theorem keeps_inRecovery_setRecovery : Keeps (InRecovery start) (setRecovery env true) := by
  refine Keeps.bind (fun session hs => ⟨hs.1, rfl⟩) fun _ => ?_
  refine (JournalInvariant.keeps_journal
    (keeps_suspended_setState (by decide) fun _ => rfl)).bind fun _ => ?_
  exact keeps_inRecovery_append _ _ _ _

theorem keeps_inRecovery_handleControl (situation : Situation) {request : Request}
    (hrequest : request ≠ .recovery false) :
    Keeps (InRecovery start) (handleControl env situation request) := by
  refine Session.keeps_handleControl (keeps_handleControlResult ?_ ?_ ?_ ?_ ?_ ?_)
  · exact fun body => JournalInvariant.keeps_journal (keeps_suspended_query body)
  · exact fun session hs => ⟨hs.1.frame rfl rfl, hs.2⟩
  · exact fun _ => keeps_inRecovery_reload situation
  · exact fun name _ => keeps_inRecovery_processEvent _ _
  · exact fun mode _ => keeps_inRecovery_setMode mode
  · intro enabled heq
    cases enabled with
    | true => exact keeps_inRecovery_setRecovery
    | false => exact absurd heq hrequest

/-! ## Starting -/

/-- A start over a store that says so comes up in recovery. -/
theorem boot_inRecovery (env : Environment) (situation : Situation) (maxRecords : ℕ)
    (verifyOnStart : Bool) {journal : Journal} (h : Suspended start journal) :
    wp (Daemon.boot env situation maxRecords verifyOnStart)
      (fun runtime after => InRecovery start { after with runtime := runtime })
      (fun _ => Suspended start) journal := by
  refine wp_seq (fun _ => Suspended start) (wp_ofExcept (fun _ _ => h) fun _ _ => h)
    fun config loaded hloaded => ?_
  refine wp_seq (fun _ => Suspended start) (hloaded.moved hloaded.stored rfl rfl rfl)
    fun _ opened hopened => ?_
  refine wp_seq (fun _ => Suspended start) ?_ fun _ verified hverified => ?_
  · split
    · exact keeps_suspended_query (fun store => store.database.verify env.blake3) opened hopened
    · exact hopened
  refine wp_seq (fun _ => Suspended start)
    (keeps_suspended_startSensors situation _ config verified hverified)
    fun handles started hstarted => ?_
  refine wp_seq (fun runtime after => InRecovery start { after with runtime := runtime }) ?_ ?_
  · -- the flag that is read is the one on disk
    have hnew : Keeps (Suspended start) (Runtime.new env config handles situation.now) := by
      have hget : ∀ key, Keeps (Suspended start) (Journal.getState env key) :=
        fun key => keeps_suspended_query fun store => .ok (store.getState key)
      exact (hget "mode").bind fun _ => (hget "recovery_mode").bind fun _ => Keeps.pure _
    refine wp_mono (wp_and (wp_new config handles situation.now started)
      (hnew started hstarted)) ?_ fun _ _ h => h.2
    rintro runtime built ⟨⟨hread, _⟩, hkept⟩
    refine ⟨hkept, hread.recovery_eq.trans ?_⟩
    rw [hstarted.stored]
    rfl
  · intro runtime built hbuilt
    refine wp_seq (fun _ => Suspended start) ?_ fun _ _ hafter => ⟨hafter, hbuilt.2⟩
    exact keeps_suspended_append _ _ _ _ built hbuilt.1

/-! ## Runs -/

/-- Down, or up and in recovery. -/
structure DaemonSuspended (start : Journal) (daemon : Daemon) : Prop where
  journal : Suspended start daemon.toJournal
  engine : ∀ runtime, daemon.runtime = some runtime → runtime.engine.recoveryMode = true

/-- A request to leave recovery. -/
def DaemonOp.LiftsRecovery : DaemonOp → Prop
  | .control _ (.recovery false) => True
  | _ => False

theorem activate_suspended {x : Activity α} {daemon : Daemon} {runtime : Runtime}
    (hx : Keeps (InRecovery start) x) (h : DaemonSuspended start daemon)
    (hruntime : daemon.runtime = some runtime) :
    DaemonSuspended start (daemon.activate x runtime) := by
  have hafter := hx.apply (s := { daemon.toJournal with runtime := runtime })
    ⟨h.journal, h.engine runtime hruntime⟩
  constructor
  · rw [Daemon.activate_toJournal]
    exact hafter.1
  · intro next hnext
    rw [Daemon.activate_runtime hnext]
    exact hafter.2

theorem step_suspended {daemon after : Daemon} {op : DaemonOp} (hop : ¬ op.LiftsRecovery)
    (h : DaemonSuspended start daemon) (hs : daemon.step env op = some after) :
    DaemonSuspended start after := by
  cases op with
  | start situation maxRecords verifyOnStart =>
      have hboot := boot_inRecovery env situation maxRecords verifyOnStart h.journal
      rcases Daemon.step_start hs with ⟨runtime, journal, heq, rfl⟩ | ⟨stop, journal, heq, rfl⟩
      · have hup := wp_of_ok hboot heq
        refine ⟨hup.1, fun next hnext => ?_⟩
        cases hnext
        exact hup.2
      · exact ⟨wp_of_error (E := fun _ => Suspended start) hboot heq, fun next hnext => by cases hnext⟩
  | event host event =>
      obtain ⟨runtime, hruntime, rfl⟩ := Option.map_eq_some_iff.mp hs
      exact activate_suspended (keeps_inRecovery_processEvent host event) h hruntime
  | control situation request =>
      obtain ⟨runtime, hruntime, rfl⟩ := Option.map_eq_some_iff.mp hs
      have hrequest : request ≠ .recovery false := by
        rintro rfl
        exact hop trivial
      exact activate_suspended (keeps_inRecovery_handleControl situation hrequest) h hruntime
  | shutdown =>
      obtain ⟨runtime, _, rfl⟩ := Option.map_eq_some_iff.mp hs
      have hstopped : Suspended start
          { daemon.toJournal with aborted := daemon.aborted ++ runtime.sensorHandles } :=
        h.journal.frame rfl rfl
      exact ⟨(keeps_suspended_append none none "daemon_stopped" _).apply hstopped,
        fun next hnext => by cases hnext⟩
  | kill =>
      cases hs
      exact ⟨h.journal, fun next hnext => by cases hnext⟩

/-- The daemon answers the request with success. -/
def Daemon.confirms (env : Environment) (daemon : Daemon) (situation : Situation)
    (request : Request) : Bool :=
  daemon.runtime.any fun runtime =>
    match handleControl env situation request { daemon.toJournal with runtime := runtime } with
    | (.ok response, _) => response.ok
    | (.error _, _) => false

/-- Both writes of the request have gone through when it returns. -/
theorem wp_setRecovery_true (session : Session) :
    wp (setRecovery env true) (fun _ after => InRecovery after.toJournal after)
      (fun _ _ => True) session := by
  refine wp_seq (fun _ after => after.runtime.engine.recoveryMode = true) rfl
    fun _ switched hswitched => ?_
  refine wp_seq (fun _ after => InRecovery after.toJournal after) ?_ fun _ stored hstored => ?_
  · refine wp_onJournal.mpr (Journal.wp_storeCall trivial (fun _ => trivial) ?_)
    intro clock result store _ hbody
    cases hbody
    exact ⟨⟨rfl, rfl, rfl, rfl⟩, hswitched⟩
  · refine wp_mono (keeps_inRecovery_append none none _ _ stored hstored) ?_ fun _ _ _ => trivial
    exact fun _ after hafter => ⟨⟨hafter.1.stored, rfl, rfl, rfl⟩, hafter.2⟩

theorem confirmed_suspended {situation : Situation} {before held : Daemon}
    (hon : before.confirms env situation (.recovery true) = true)
    (hheld : before.step env (.control situation (.recovery true)) = some held) :
    DaemonSuspended held.toJournal held := by
  obtain ⟨runtime, hruntime, rfl⟩ := Option.map_eq_some_iff.mp hheld
  generalize hsession : ({ before.toJournal with runtime := runtime } : Session) = session at *
  have hset : wp (setRecovery env true) (fun _ after => InRecovery after.toJournal after) _ session :=
    wp_setRecovery_true session
  have hresult : handleControlResult env situation (.recovery true) =
      setRecovery env true >>= fun _ => pure (.success
        "recovery mode enabled; automatic rules are suspended" none) := rfl
  rw [Daemon.confirms, hruntime, Option.any_some, hsession] at hon
  unfold Daemon.activate
  rw [hsession]
  cases hswitch : setRecovery env true session with
  | mk result switched =>
      cases result with
      | ok _ =>
          rw [handleControl, hresult, bind_ok hswitch]
          refine ⟨(wp_of_ok hset hswitch).1, fun next hnext => ?_⟩
          cases hnext
          exact (wp_of_ok hset hswitch).2
      | error stop =>
          rw [handleControl, hresult, bind_error hswitch] at hon
          cases stop <;> cases hon

end Steps

/-- Once a recovery request was answered with success, no run without a request
to lift recovery carries out an action: the executor is not called, the ledger
and the network isolation stay, and the engine is in recovery whenever the
daemon is up. -/
theorem recovery_holds_until_lifted (env : Environment) (situation : Situation)
    (before held after : Daemon) (ops : List DaemonOp)
    (hon : before.confirms env situation (.recovery true) = true)
    (hheld : before.step env (.control situation (.recovery true)) = some held)
    (hops : ∀ op ∈ ops, ¬ op.LiftsRecovery)
    (hrun : run (Daemon.step env) held ops = some after) :
    after.executions = held.executions ∧ after.store.ledger = held.store.ledger ∧
      after.store.getState "network_isolated" = held.store.getState "network_isolated" ∧
      ∀ runtime, after.runtime = some runtime → runtime.engine.recoveryMode = true := by
  have hafter : DaemonSuspended held.toJournal after := by
    refine run_invariant (C := fun _ op => ¬ op.LiftsRecovery)
      (P := DaemonSuspended held.toJournal) (confirmed_suspended hon hheld) ?_ hrun
      (allSteps_of_forall_mem hops)
    exact fun daemon op next hop h hs => step_suspended hop h hs
  obtain ⟨⟨_, hexecutions, hledger, hisolation⟩, hengine⟩ := hafter
  exact ⟨hexecutions, hledger, hisolation, hengine⟩

def recoveringStart : DaemonOp := .start (sampleSituation leavingConfig) 0 false

/-- The process is killed in recovery and comes back. -/
def recoveringOps : List DaemonOp :=
  [.control (sampleSituation leavingConfig) (.trigger "panic"), .kill, recoveringStart,
    .event bareHost panicEvent]

/-- The event would have switched the mode without the request. -/
theorem recovery_holds_until_lifted_killed : ∃ before held after,
    run (Daemon.step (sampleEnv [])) (Daemon.down emptyStore) [recoveringStart] = some before ∧
    before.step (sampleEnv []) (.control (sampleSituation leavingConfig) (.recovery true)) =
      some held ∧
    run (Daemon.step (sampleEnv [])) held recoveringOps = some after ∧
    after.executions = held.executions ∧ after.runtime.isSome = true ∧
    (∀ runtime, after.runtime = some runtime → runtime.engine.recoveryMode = true) ∧
    (run (Daemon.step (sampleEnv [])) before recoveringOps).map (·.executions) = some 2 := by
  obtain ⟨before, hbefore, hon, hlive⟩ : ∃ before,
      run (Daemon.step (sampleEnv [])) (Daemon.down emptyStore) [recoveringStart] = some before ∧
      before.confirms (sampleEnv []) (sampleSituation leavingConfig) (.recovery true) = true ∧
      (run (Daemon.step (sampleEnv [])) before recoveringOps).map (·.executions) = some 2 := by
    have hstart : (run (Daemon.step (sampleEnv [])) (Daemon.down emptyStore)
        [recoveringStart]).any (fun before =>
          before.confirms (sampleEnv []) (sampleSituation leavingConfig) (.recovery true) &&
          (run (Daemon.step (sampleEnv [])) before recoveringOps).map (·.executions) == some 2) =
            true := by
      decide +kernel
    rw [Option.any_eq_true] at hstart
    simpa only [Bool.and_eq_true, beq_iff_eq] using hstart
  obtain ⟨after, hafter, hup⟩ : ∃ after, run (Daemon.step (sampleEnv [])) before
      (.control (sampleSituation leavingConfig) (.recovery true) :: recoveringOps) = some after ∧
      after.runtime.isSome = true := by
    have hresumed : (run (Daemon.step (sampleEnv [])) (Daemon.down emptyStore)
        (recoveringStart :: .control (sampleSituation leavingConfig) (.recovery true) ::
          recoveringOps)).any (fun after => after.runtime.isSome) = true := by
      decide +kernel
    rw [← List.singleton_append, run_append, hbefore, Option.any_eq_true] at hresumed
    exact hresumed
  rw [run_cons] at hafter
  obtain ⟨held, hheld, hrun⟩ := Option.bind_eq_some_iff.mp hafter
  obtain ⟨hnone, _, _, hengine⟩ := recovery_holds_until_lifted (sampleEnv [])
    (sampleSituation leavingConfig) before held after recoveringOps hon hheld
    (by simp [recoveringOps, recoveringStart, DaemonOp.LiftsRecovery]) hrun
  exact ⟨before, held, after, hbefore, hheld, hrun, hnone, hup, hengine, hlive⟩

end Kovert
