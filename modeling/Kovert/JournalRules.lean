import Kovert.AuditChain
import Kovert.PlanScript

/-!
# Invariants about the journal

The daemon changes its store by four calls only, and between them it leaves
entries in the trace that commit nothing. `JournalInvariant` says what an
invariant of the journal owes to each; events and requests keep it. Only a start,
a reload and a shutdown touch the sensor tasks, so an invariant that does not
speak of these is kept along whole runs.
-/

namespace Kovert

open Fallible Session

/-- Entries that commit nothing. -/
def Mark.Idle : Mark → Prop
  | .planned _ | .invoked _ | .failed | .crashed => True
  | .recorded .. | .audited .. | .stored .. => False

/-- State is stored under the keys of the runtime. -/
def StoreCall.Allowed : StoreCall → Prop
  | .setState key _ => key ∈ runtimeKeys
  | .append .. | .actionCompleted _ | .recordAction .. => True

/-- The sensor tasks are as they were. -/
def SameTasks (before after : Journal) : Prop :=
  after.spawned = before.spawned ∧ after.aborted = before.aborted

/-- An invariant of the journal while the sensors stay. -/
structure JournalInvariant (env : Environment) (J : Journal → Prop) : Prop where
  idle : ∀ (before after : Journal) (marks : List Mark), J before → SameTasks before after →
    after.store = before.store → after.trace = before.trace ++ marks →
    (∀ mark ∈ marks, mark.Idle) → J after
  committed : ∀ (call : StoreCall) (clock : String) (before after : Journal), J before →
    SameTasks before after → call.Allowed →
    call.commit env.blake3 clock before.store = .ok after.store →
    after.trace = before.trace ++ call.marks → J after

/-- An invariant that does not speak of the sensor tasks. -/
def TaskBlind (J : Journal → Prop) : Prop :=
  ∀ before after : Journal, J before → after.store = before.store → after.trace = before.trace →
    J after

theorem TaskBlind.keeps_startSensors {J : Journal → Prop} (h : TaskBlind J)
    (situation : Situation) (context : String) (config : Config) :
    Keeps J (Journal.startSensors situation context config) :=
  Journal.keeps_startSensors situation context config fun _ _ hj => h _ _ hj rfl rfl

/-- A property of the runtime apart from its engine. -/
def EngineBlind (K : Runtime → Prop) : Prop :=
  ∀ (runtime : Runtime) (engine : PolicyEngine), K runtime → K { runtime with engine := engine }

theorem engineBlind_true : EngineBlind (fun _ => True) := fun _ _ h => h

namespace JournalInvariant

variable {env : Environment} {J : Journal → Prop}

theorem marked (h : JournalInvariant env J) (mark : Mark) {before after : Journal}
    (hbefore : J before) (hmark : mark.Idle) (htasks : SameTasks before after)
    (hstore : after.store = before.store) (htrace : after.trace = before.trace ++ [mark]) :
    J after := by
  refine h.idle before after [mark] hbefore htasks hstore htrace ?_
  intro other hmem
  rwa [List.mem_singleton.mp hmem]

/-! ## Calls -/

theorem keeps_query {α : Type} (h : JournalInvariant env J)
    (body : DaemonStore → Except String α) :
    Keeps J (Journal.storeCall env
      (fun _ store => (body store).map (fun value => (value, store))) []) := by
  refine Journal.keeps_storeCall ?_ ?_ ?_
  · exact fun journal hj => h.marked .crashed hj trivial ⟨rfl, rfl⟩ rfl rfl
  · exact fun journal hj => h.marked .failed hj trivial ⟨rfl, rfl⟩ rfl rfl
  · intro journal clock result store hj hbody
    obtain ⟨value, _, heq⟩ := exists_ok_of_map hbody
    cases heq
    exact h.idle journal _ [] hj ⟨rfl, rfl⟩ rfl rfl fun _ hmem => by cases hmem

theorem keeps_perform (h : JournalInvariant env J) (call : StoreCall) (hcall : call.Allowed) :
    Keeps J (call.perform env) := by
  refine Journal.keeps_storeCall ?_ ?_ ?_
  · exact fun journal hj => h.marked .crashed hj trivial ⟨rfl, rfl⟩ rfl rfl
  · exact fun journal hj => h.marked .failed hj trivial ⟨rfl, rfl⟩ rfl rfl
  · intro journal clock result store hj hbody
    obtain ⟨after, hcommit, heq⟩ := exists_ok_of_map hbody
    cases heq
    exact h.committed call clock journal _ hj ⟨rfl, rfl⟩ hcall hcommit rfl

theorem keeps_append (h : JournalInvariant env J) (eventId ruleId : Option String)
    (kind payload : String) : Keeps J (Journal.append env eventId kind ruleId payload) :=
  h.keeps_perform (.append eventId kind ruleId payload) trivial

theorem keeps_setState (h : JournalInvariant env J) {key : String} (hkey : key ∈ runtimeKeys)
    (value : String) : Keeps J (Journal.setState env key value) :=
  h.keeps_perform (.setState key value) hkey

theorem keeps_recordAction (h : JournalInvariant env J) (key : LedgerKey)
    (status : ActionStatus) (outcome : Option String) :
    Keeps J (Journal.recordAction env key status outcome) :=
  h.keeps_perform (.recordAction key status outcome) trivial

/-! ## Events and requests -/

variable {K : Runtime → Prop}

/-- The invariant seen from a session, with a property of its runtime. -/
def OfSession (J : Journal → Prop) (K : Runtime → Prop) (session : Session) : Prop :=
  J session.toJournal ∧ K session.runtime

theorem keeps_journal {α : Type} {x : Fallible Journal Stop α} (hx : Keeps J x) :
    Keeps (OfSession J K) (onJournal x) := by
  intro session hs
  refine wp_onJournal.mpr (wp_mono (hx session.toJournal hs.1) ?_ ?_)
  · exact fun a journal hj => ⟨hj, hs.2⟩
  · exact fun e journal hj => ⟨hj, hs.2⟩

theorem keeps_updateEngine (hK : EngineBlind K) (f : PolicyEngine → PolicyEngine) :
    Keeps (OfSession J K) (updateEngine f) :=
  fun _ hs => ⟨hs.1, hK _ _ hs.2⟩

theorem keeps_applyEffect (h : JournalInvariant env J) (hK : EngineBlind K)
    (effect : ActionEffect) : Keeps (OfSession J K) (applyEffect env effect) := by
  cases effect with
  | none => exact Keeps.pure ()
  | setMode mode =>
      refine (keeps_updateEngine hK _).bind fun _ => ?_
      exact keeps_journal (h.keeps_setState (by decide) mode)
  | networkIsolation enabled => exact keeps_journal (h.keeps_setState (by decide) _)

theorem keeps_recordOutcome (h : JournalInvariant env J) (key : LedgerKey) (success : Bool)
    (payload : String) : Keeps (OfSession J K) (recordOutcome env key success payload) := by
  refine (keeps_journal (h.keeps_recordAction _ _ _)).bind fun _ => ?_
  exact keeps_journal (h.keeps_append _ _ _ _)

theorem keeps_concludePlan (h : JournalInvariant env J) (hK : EngineBlind K) (key : LedgerKey)
    (result : Except String ActionOutcome) :
    Keeps (OfSession J K) (concludePlan env key result) := by
  cases result with
  | error message => exact h.keeps_recordOutcome key false _
  | ok outcome =>
      refine (h.keeps_recordOutcome key _ _).bind fun _ => ?_
      split
      · exact h.keeps_applyEffect hK _
      · exact Keeps.pure ()

theorem keeps_executePlan (h : JournalInvariant env J) (hK : EngineBlind K) (event : Event)
    (plan : ActionPlan) : Keeps (OfSession J K) (executePlan env event plan) := by
  have hplanned : Keeps J (modify (Journal.mark · [.planned (ledgerKey env event plan)]) :
      Fallible Journal Stop Unit) :=
    fun journal hj => h.marked (.planned _) hj trivial ⟨rfl, rfl⟩ rfl rfl
  have hexecute : ∀ key, Keeps (OfSession J K) (Session.execute env key plan.action event) :=
    fun key session hs => ⟨h.marked (.invoked key) hs.1 trivial ⟨rfl, rfl⟩ rfl rfl, hs.2⟩
  refine (keeps_journal hplanned).bind fun _ => ?_
  refine (keeps_journal (h.keeps_query fun store =>
    .ok (store.actionCompleted (ledgerKey env event plan)))).bind fun completed => ?_
  split
  · exact Keeps.pure ()
  · refine (keeps_journal (h.keeps_recordAction _ _ _)).bind fun _ => ?_
    refine (keeps_journal (h.keeps_append _ _ _ _)).bind fun _ => ?_
    exact (hexecute _).bind fun result => h.keeps_concludePlan hK _ result

theorem keeps_processEvent (h : JournalInvariant env J) (hK : EngineBlind K) (host : Host)
    (event : Event) : Keeps (OfSession J K) (processEvent env host event) := by
  refine Keeps.bind (fun session hs => wp_ofExcept (fun _ _ => hs) fun _ _ => hs) fun payload => ?_
  refine (keeps_journal (h.keeps_append _ _ _ _)).bind fun _ => ?_
  refine Keeps.bind ?_ fun plans => ?_
  · intro session hs
    unfold wp handle
    cases session.runtime.engine.handle host event with
    | none => exact ⟨h.marked .crashed hs.1 trivial ⟨rfl, rfl⟩ rfl rfl, hs.2⟩
    | some result => exact ⟨hs.1, hK _ _ hs.2⟩
  · refine Keeps.bind (Keeps.forEach fun plan _ => ?_) fun _ => Keeps.pure _
    exact h.keeps_executePlan hK event plan

theorem keeps_setMode (h : JournalInvariant env J) (hK : EngineBlind K) (mode : String) :
    Keeps (OfSession J K) (Session.setMode env mode) := by
  refine Keeps.bind (fun session hs => hs) fun session => ?_
  split
  · exact fun session hs => hs
  · refine (keeps_updateEngine hK _).bind fun _ => ?_
    refine (keeps_journal (h.keeps_setState (by decide) _)).bind fun _ => ?_
    exact keeps_journal (h.keeps_append _ _ _ _)

theorem keeps_setRecovery (h : JournalInvariant env J) (hK : EngineBlind K) (enabled : Bool) :
    Keeps (OfSession J K) (setRecovery env enabled) := by
  refine (keeps_updateEngine hK _).bind fun _ => ?_
  refine (keeps_journal (h.keeps_setState (by decide) _)).bind fun _ => ?_
  exact keeps_journal (h.keeps_append _ _ _ _)

theorem keeps_handleControl (h : JournalInvariant env J) (hK : EngineBlind K)
    (situation : Situation) {request : Request}
    (hreload : request = .reload → Keeps (OfSession J K) (reload env situation)) :
    Keeps (OfSession J K) (handleControl env situation request) := by
  refine Session.keeps_handleControl (keeps_handleControlResult ?_ ?_ hreload
    (fun _ _ => h.keeps_processEvent hK _ _) (fun mode _ => h.keeps_setMode hK mode)
    (fun enabled _ => h.keeps_setRecovery hK enabled))
  · exact fun body => keeps_journal (h.keeps_query body)
  · exact fun session hs => ⟨h.marked .crashed hs.1 trivial ⟨rfl, rfl⟩ rfl rfl, hs.2⟩

/-! ## Runs of the daemon -/

theorem keeps_new (h : JournalInvariant env J) (config : Config) (handles : List ℕ)
    (now : Timestamp) : Keeps J (Runtime.new env config handles now) := by
  have hget : ∀ key, Keeps J (Journal.getState env key) :=
    fun key => h.keeps_query fun store => .ok (store.getState key)
  exact (hget "mode").bind fun _ => (hget "recovery_mode").bind fun _ => Keeps.pure _

section Runs

variable (h : JournalInvariant env J) (hblind : TaskBlind J)
include h hblind

theorem keeps_reload (situation : Situation) :
    Keeps (OfSession J fun _ => True) (reload env situation) := by
  refine Keeps.bind (fun session hs => wp_ofExcept (fun _ _ => hs) fun _ _ => hs) fun config => ?_
  refine (keeps_journal (hblind.keeps_startSensors situation _ config)).bind fun handles => ?_
  refine Keeps.bind (fun session hs => ⟨hblind _ _ hs.1 rfl rfl, trivial⟩) fun _ => ?_
  exact Keeps.bind (fun session hs => hs) fun session => keeps_journal (h.keeps_append _ _ _ _)

/-- A start keeps an invariant that outlives the limit of the records. -/
theorem keeps_boot (situation : Situation) (maxRecords : ℕ) (verifyOnStart : Bool)
    (hreopen : ∀ journal : Journal, J journal →
      J { journal with store := { journal.store with maxRecords := maxRecords } }) :
    Keeps J (Daemon.boot env situation maxRecords verifyOnStart) := by
  refine Keeps.bind (fun journal hj => wp_ofExcept (fun _ _ => hj) fun _ _ => hj) fun config => ?_
  refine Keeps.bind hreopen fun _ => ?_
  refine Keeps.bind ?_ fun _ => ?_
  · split
    · exact h.keeps_query fun store => store.database.verify env.blake3
    · exact Keeps.pure 0
  refine (hblind.keeps_startSensors situation _ config).bind fun handles => ?_
  refine (h.keeps_new config handles situation.now).bind fun runtime => ?_
  exact (h.keeps_append _ _ _ _).bind fun _ => Keeps.pure _

/-- Every step but a start. -/
theorem step_running {daemon after : Daemon} {op : DaemonOp}
    (hop : ∀ situation maxRecords verifyOnStart, op ≠ .start situation maxRecords verifyOnStart)
    (hdaemon : J daemon.toJournal) (hs : daemon.step env op = some after) : J after.toJournal := by
  have hactivate : ∀ {α : Type} {x : Activity α} {runtime : Runtime},
      Keeps (OfSession J fun _ => True) x → J (daemon.activate x runtime).toJournal := by
    intro α x runtime hx
    refine Daemon.activate_journal (fun session hj => ?_) hdaemon
    exact wp_mono (hx session ⟨hj, trivial⟩) (fun _ _ h => h.1) fun _ _ h => h.1
  cases op with
  | start situation maxRecords verifyOnStart =>
      exact absurd rfl (hop situation maxRecords verifyOnStart)
  | event host event =>
      obtain ⟨runtime, _, rfl⟩ := Option.map_eq_some_iff.mp hs
      exact hactivate (h.keeps_processEvent engineBlind_true host event)
  | control situation request =>
      obtain ⟨runtime, _, rfl⟩ := Option.map_eq_some_iff.mp hs
      exact hactivate (h.keeps_handleControl engineBlind_true situation
        fun _ => h.keeps_reload hblind situation)
  | shutdown =>
      obtain ⟨runtime, _, rfl⟩ := Option.map_eq_some_iff.mp hs
      exact (h.keeps_append none none "daemon_stopped" _).apply (hblind _ _ hdaemon rfl rfl)
  | kill =>
      cases hs
      exact hdaemon

end Runs

/-- The limits with which the store is opened along a run. -/
def Limits (C : ℕ → Prop) : DaemonOp → Prop
  | .start _ maxRecords _ => C maxRecords
  | _ => True

variable {C : ℕ → Prop} (h : JournalInvariant env J) (hblind : TaskBlind J)
  (hreopen : ∀ (journal : Journal) (maxRecords : ℕ), C maxRecords → J journal →
    J { journal with store := { journal.store with maxRecords := maxRecords } })
include h hblind hreopen

theorem step {daemon after : Daemon} {op : DaemonOp} (hop : Limits C op)
    (hdaemon : J daemon.toJournal) (hs : daemon.step env op = some after) : J after.toJournal := by
  cases op with
  | start situation maxRecords verifyOnStart =>
      have hboot : J (Daemon.boot env situation maxRecords verifyOnStart daemon.toJournal).2 :=
        (h.keeps_boot hblind situation maxRecords verifyOnStart
          fun journal hj => hreopen journal maxRecords hop hj).apply hdaemon
      rcases Daemon.step_start hs with ⟨runtime, journal, heq, rfl⟩ | ⟨stop, journal, heq, rfl⟩
      · rw [heq] at hboot
        exact hboot
      · rw [heq] at hboot
        exact hboot
  | event | control | shutdown | kill => exact h.step_running hblind (by simp) hdaemon hs

theorem run {start daemon : Daemon} {ops : List DaemonOp} (hops : ∀ op ∈ ops, Limits C op)
    (hstart : J start.toJournal)
    (hrun : Execution.run (Daemon.step env) start ops = some daemon) : J daemon.toJournal := by
  refine Execution.run_invariant (C := fun _ op => Limits C op)
    (P := fun daemon => J daemon.toJournal) hstart ?_ hrun (Execution.allSteps_of_forall_mem hops)
  exact fun daemon op after hop hdaemon hs => h.step hblind hreopen hop hdaemon hs

end JournalInvariant

end Kovert
