import Kovert.Control
import Kovert.Modes
import Kovert.SequenceBounds

/-!
# When the process ends

The only panic of the runtime is the index into the steps of a sequence. As long
as the reloads leave room for the partial matches they inherit, no event, no
request and no simulation reaches it: the process ends when it is told to, or
when the store takes it down.
-/

namespace Kovert

open Fallible Session

/-! ## Programs that end only with the store -/

/-- One of the calls between the two journals has taken the process down. -/
def TakenDown (env : Environment) (before after : Journal) : Prop :=
  ∃ n, before.calls ≤ n ∧ n < after.calls ∧ env.answer n = .crashes

theorem TakenDown.or_of {env : Environment} {first second third : Journal}
    (h : TakenDown env first third) : TakenDown env first second ∨ TakenDown env second third := by
  obtain ⟨n, hn, hlt, hcrash⟩ := h
  by_cases hle : second.calls ≤ n
  · exact Or.inr ⟨n, hle, hlt, hcrash⟩
  · exact Or.inl ⟨n, hn, Nat.lt_of_not_le hle, hcrash⟩

theorem TakenDown.after {env : Environment} {first second third : Journal}
    (h : TakenDown env second third) (hle : first.calls ≤ second.calls) :
    TakenDown env first third := by
  obtain ⟨n, hn, hlt, hcrash⟩ := h
  exact ⟨n, hle.trans hn, hlt, hcrash⟩

theorem not_takenDown_of_calls {env : Environment} {before after : Journal}
    (h : after.calls = before.calls) : ¬ TakenDown env before after := by
  rintro ⟨n, hn, hlt, _⟩
  omega

/-- How a program that returns leaves the calls. -/
def Survives (env : Environment) (before after : Journal) : Prop :=
  before.calls ≤ after.calls ∧ ¬ TakenDown env before after

/-- How a program that is stopped leaves them. -/
def StopsWith (env : Environment) (before : Journal) (e : Stop) (after : Journal) : Prop :=
  before.calls ≤ after.calls ∧ (e = .crashed ↔ TakenDown env before after)

theorem Survives.of_calls {env : Environment} {before after : Journal}
    (h : after.calls = before.calls) : Survives env before after :=
  ⟨h.ge, not_takenDown_of_calls h⟩

theorem Survives.trans {env : Environment} {first second third : Journal}
    (h : Survives env first second) (h' : Survives env second third) :
    Survives env first third :=
  ⟨h.1.trans h'.1, fun hdown => hdown.or_of.elim h.2 h'.2⟩

theorem Survives.stopsWith {env : Environment} {first second third : Journal} {e : Stop}
    (h : Survives env first second) (h' : StopsWith env second e third) :
    StopsWith env first e third := by
  refine ⟨h.1.trans h'.1, ?_⟩
  constructor
  · exact fun hcrash => (h'.2.mp hcrash).after h.1
  · exact fun hdown => h'.2.mpr (hdown.or_of.resolve_left h.2)

theorem StopsWith.failed {env : Environment} {before after : Journal} {message : String}
    (h : Survives env before after) : StopsWith env before (.failed message) after :=
  ⟨h.1, iff_of_false (fun heq => by cases heq) h.2⟩

/-- The program crashes with one of its calls, and with nothing else. -/
def Steady {α : Type} (env : Environment) (x : Fallible Journal Stop α) : Prop :=
  ∀ journal, wp x (fun _ after => Survives env journal after) (StopsWith env journal) journal

variable {α β : Type} {env : Environment}

namespace Steady

theorem pure (a : α) : Steady env (pure a) := fun _ => .of_calls rfl

theorem bind {x : Fallible Journal Stop α} {f : α → Fallible Journal Stop β} (hx : Steady env x)
    (hf : ∀ a, Steady env (f a)) : Steady env (x >>= f) := by
  intro journal
  refine wp_bind.mpr (wp_mono (hx journal) ?_ fun _ _ h => h)
  intro a middle hle
  exact wp_mono (hf a middle) (fun _ _ h => hle.trans h) fun _ _ h => hle.stopsWith h

/-- A call that is answered takes nothing down. -/
theorem survives_call {journal after : Journal} (hanswer : env.answer journal.calls ≠ .crashes)
    (hcalls : after.calls = journal.calls + 1) : Survives env journal after := by
  refine ⟨by omega, ?_⟩
  rintro ⟨n, hn, hlt, hcrash⟩
  have heq : n = journal.calls := by omega
  exact hanswer (heq ▸ hcrash)

theorem storeCall (body : String → DaemonStore → Except String (α × DaemonStore))
    (marks : List Mark) : Steady env (Journal.storeCall env body marks) := by
  intro journal
  unfold wp Journal.storeCall
  cases hanswer : env.answer journal.calls with
  | crashes =>
      refine ⟨Nat.le_succ _, iff_of_true rfl ?_⟩
      exact ⟨journal.calls, Nat.le_refl _, Nat.lt_succ_self _, hanswer⟩
  | fails message => exact .failed (survives_call (by simp [hanswer]) rfl)
  | succeeds clock =>
      cases hbody : body clock journal.store with
      | error message =>
          simp only [hbody]
          exact .failed (survives_call (by simp [hanswer]) rfl)
      | ok result =>
          simp only [hbody]
          exact survives_call (by simp [hanswer]) rfl

theorem startSensors (situation : Situation) (context : String) (config : Config) :
    Steady env (Journal.startSensors situation context config) := by
  have htask : ∀ context result, Steady env (Journal.spawnTask context result) := by
    intro context result journal
    cases result with
    | ok _ => exact .of_calls rfl
    | error _ => exact .failed (.of_calls rfl)
  have hhotkeys : ∀ hotkeys, Steady env (Journal.spawnHotkeys situation hotkeys) := by
    intro hotkeys
    induction hotkeys with
    | nil => exact pure []
    | cons hotkey hotkeys ih =>
        unfold Journal.spawnHotkeys
        cases situation.hotkeySpawn hotkey with
        | error _ => exact ih
        | ok _ => exact (htask _ _).bind fun handle => ih.bind fun handles => pure _
  refine Steady.bind ?_ fun watcher => (hhotkeys _).bind fun hotkeys =>
    (htask _ _).bind fun poller => pure _
  unfold Journal.spawnWatcher
  split
  · exact pure []
  · exact (htask _ _).bind fun handle => pure _

end Steady

/-- From this session the program crashes with one of its calls and with nothing
else, and short of that it leaves an engine whose sequences are in bounds. -/
def UpheldAt (env : Environment) (x : Activity α) (session : Session) : Prop :=
  wp x (fun _ after => SequencesInBounds after.runtime.engine ∧
      Survives env session.toJournal after.toJournal)
    (fun e after => StopsWith env session.toJournal e after.toJournal ∧
      (e ≠ .crashed → SequencesInBounds after.runtime.engine)) session

/-- The same from every session whose engine has its sequences in bounds. -/
def Upholds (env : Environment) (x : Activity α) : Prop :=
  ∀ session, SequencesInBounds session.runtime.engine → UpheldAt env x session

namespace Upholds

theorem pure (a : α) : Upholds env (pure a) := fun _ h => ⟨h, .of_calls rfl⟩

theorem stop (message : String) : Upholds env (Fallible.stop (.failed message) : Activity α) :=
  fun _ h => ⟨.failed (.of_calls rfl), fun _ => h⟩

theorem bind_at {x : Activity α} {f : α → Activity β} {session : Session}
    (hx : UpheldAt env x session) (hf : ∀ a, Upholds env (f a)) :
    UpheldAt env (x >>= f) session := by
  refine wp_bind.mpr (wp_mono hx ?_ fun _ _ h => h)
  rintro a middle ⟨hmiddle, hsurvives⟩
  refine wp_mono (hf a middle hmiddle) (fun _ _ h => ⟨h.1, hsurvives.trans h.2⟩) ?_
  exact fun e after h => ⟨hsurvives.stopsWith h.1, h.2⟩

theorem bind {x : Activity α} {f : α → Activity β} (hx : Upholds env x)
    (hf : ∀ a, Upholds env (f a)) : Upholds env (x >>= f) :=
  fun session h => bind_at (hx session h) hf

theorem journal {x : Fallible Journal Stop α} (hx : Steady env x) :
    Upholds env (onJournal x) := by
  intro session h
  refine wp_onJournal.mpr (wp_mono (hx session.toJournal) ?_ ?_)
  · exact fun a after hsurvives => ⟨h, hsurvives⟩
  · exact fun e after hstop => ⟨hstop, fun _ => h⟩

theorem append (eventId ruleId : Option String) (kind payload : String) :
    Upholds env (Session.append env eventId kind ruleId payload) :=
  journal (.storeCall _ _)

theorem setState (key value : String) : Upholds env (Session.setState env key value) :=
  journal (.storeCall _ _)

theorem updateEngine {f : PolicyEngine → PolicyEngine}
    (hf : ∀ engine, SequencesInBounds engine → SequencesInBounds (f engine)) :
    Upholds env (Session.updateEngine f) :=
  fun _ h => ⟨hf _ h, .of_calls rfl⟩

theorem forEach {body : α → Activity Unit} (hbody : ∀ a, Upholds env (body a)) (as : List α) :
    Upholds env (Fallible.forEach body as) := by
  induction as with
  | nil => exact pure ()
  | cons a as ih => exact (hbody a).bind fun _ => ih

theorem read : Upholds env Fallible.read := fun _ h => ⟨h, .of_calls rfl⟩

end Upholds

/-! ## The functions of the runtime -/

/-- Any time format will do where no reload is concerned. -/
theorem SequencesInBounds.step {engine engine' : PolicyEngine} (h : SequencesInBounds engine)
    (op : EngineOp) (hop : FittingReload (fun _ => none) engine op)
    (hs : engine.step op = some engine') : SequencesInBounds engine' :=
  step_sequencesInBounds hop h hs

theorem upholds_setRecoveryMode (enabled : Bool) :
    Upholds env (updateEngine (fun engine => engine.setRecoveryMode enabled)) :=
  Upholds.updateEngine fun _ h => h.step (.setRecoveryMode enabled) trivial rfl

theorem upholds_setMode (mode : String) :
    Upholds env (updateEngine (fun engine => engine.setMode mode)) :=
  Upholds.updateEngine fun _ h => h.step (.setMode mode) trivial rfl

theorem upholds_applyEffect (effect : ActionEffect) : Upholds env (applyEffect env effect) := by
  cases effect with
  | none => exact .pure ()
  | setMode mode => exact (upholds_setMode mode).bind fun _ => .setState _ _
  | networkIsolation enabled => exact .setState _ _

theorem upholds_recordOutcome (key : LedgerKey) (success : Bool) (payload : String) :
    Upholds env (recordOutcome env key success payload) :=
  (Upholds.journal (.storeCall _ _)).bind fun _ => .append _ _ _ _

theorem upholds_concludePlan (key : LedgerKey) (result : Except String ActionOutcome) :
    Upholds env (concludePlan env key result) := by
  cases result with
  | error message => exact upholds_recordOutcome key false _
  | ok outcome =>
      refine (upholds_recordOutcome key _ _).bind fun _ => ?_
      split
      · exact upholds_applyEffect _
      · exact .pure ()

theorem upholds_executePlan (event : Event) (plan : ActionPlan) :
    Upholds env (executePlan env event plan) := by
  have hplanned : Upholds env
      (onJournal (modify (Journal.mark · [.planned (ledgerKey env event plan)]))) :=
    fun session h => ⟨h, .of_calls rfl⟩
  have hexecute : ∀ key, Upholds env (Session.execute env key plan.action event) :=
    fun key session h => ⟨h, .of_calls rfl⟩
  refine hplanned.bind fun _ => (Upholds.journal (.storeCall _ _)).bind fun completed => ?_
  split
  · exact .pure ()
  · refine (Upholds.journal (.storeCall _ _)).bind fun _ => ?_
    refine (Upholds.append _ _ _ _).bind fun _ => ?_
    exact (hexecute _).bind fun result => upholds_concludePlan _ result

/-- In bounds the engine answers every event. -/
theorem SequencesInBounds.handle {engine : PolicyEngine} (h : SequencesInBounds engine)
    (host : Host) (event : Event) :
    ∃ engine' plans, engine.handle host event = some (engine', plans) ∧
      SequencesInBounds engine' := by
  obtain ⟨⟨engine', plans⟩, hh⟩ := Option.isSome_iff_exists.mp (h.handle_isSome host event)
  refine ⟨engine', plans, hh, h.step (.handle host event) trivial ?_⟩
  rw [PolicyEngine.step, hh]
  rfl

theorem upholds_processEvent (host : Host) (event : Event) :
    Upholds env (processEvent env host event) := by
  have hencode : Upholds env (ofExcept ((env.serde.event event).mapError Stop.failed)) := by
    cases env.serde.event event with
    | error message => exact .stop message
    | ok payload => exact .pure payload
  have hhandle : Upholds env (Session.handle host event) := by
    intro session h
    obtain ⟨engine, plans, hh, hengine⟩ := h.handle host event
    unfold UpheldAt wp Session.handle
    rw [hh]
    exact ⟨hengine, .of_calls rfl⟩
  refine hencode.bind fun payload => (Upholds.append _ _ _ _).bind fun _ => ?_
  refine hhandle.bind fun plans => ?_
  exact (Upholds.forEach (upholds_executePlan event) plans).bind fun _ => .pure _

theorem upholds_simulate (host : Host) (event : Event) :
    Upholds env (Session.simulate host event) := by
  intro session h
  obtain ⟨engine, plans, hh, _⟩ := h.handle host event
  unfold UpheldAt wp Session.simulate
  rw [hh]
  exact ⟨h, .of_calls rfl⟩

theorem upholds_sessionSetMode (mode : String) : Upholds env (Session.setMode env mode) := by
  refine Upholds.read.bind fun session => ?_
  split
  · exact .stop _
  · exact (upholds_setMode mode).bind fun _ => (Upholds.setState _ _).bind fun _ => .append _ _ _ _

theorem upholds_setRecovery (enabled : Bool) : Upholds env (setRecovery env enabled) :=
  (upholds_setRecoveryMode enabled).bind fun _ =>
    (Upholds.setState _ _).bind fun _ => .append _ _ _ _

/-- A reload that leaves room for the partial matches it inherits. -/
def RoomyReload (situation : Situation) (engine : PolicyEngine) : Prop :=
  ∀ config, loadConfig situation = .ok config → ReloadFits engine (.replaceRules config.rules)

theorem loadConfig_failed {situation : Situation} {stop : Stop}
    (h : loadConfig situation = .error stop) : ∃ message, stop = .failed message := by
  unfold loadConfig at h
  split at h
  · cases h
    exact ⟨_, rfl⟩
  · split at h
    · cases h
    · cases h
      exact ⟨_, rfl⟩

theorem reload_upheldAt {situation : Situation} {session : Session}
    (hroomy : RoomyReload situation session.runtime.engine)
    (h : SequencesInBounds session.runtime.engine) :
    UpheldAt env (reload env situation) session := by
  have hsteady : ∀ config, Steady env (Journal.startSensors situation "restart sensors" config) :=
    fun config => .startSensors situation _ config
  unfold UpheldAt wp
  rcases reload_cases env situation session with ⟨stop, hload, hreload⟩ |
    ⟨config, stop, journal, _, hsensors, hreload⟩ |
    ⟨config, handles, journal, hload, hsensors, hreload⟩
  · obtain ⟨message, rfl⟩ := loadConfig_failed hload
    rw [hreload]
    exact ⟨.failed (.of_calls rfl), fun _ => h⟩
  · have hstop := wp_of_error (hsteady config session.toJournal) hsensors
    rw [hreload]
    exact ⟨hstop, fun _ => h⟩
  · have hsurvives : Survives env session.toJournal journal :=
      wp_of_ok (Q := fun _ after => Survives env session.toJournal after)
        (hsteady config session.toJournal) hsensors
    have hfitting : FittingReload situation.host.parseTime session.runtime.engine
        (.replaceRules config.rules) :=
      ⟨⟨config, rfl, validated_of_loadConfig hload⟩, hroomy config hload⟩
    have hnext : SequencesInBounds (session.runtime.engine.replaceRules config.rules) :=
      step_sequencesInBounds hfitting h rfl
    have happend : Upholds env (Session.append env none "configuration_reloaded" none
        (env.serde.object [("rules", .number config.rules.length)])) := .append _ _ _ _
    replace happend := happend
      (switchConfig config handles { session with toJournal := journal }) hnext
    rw [hreload]
    exact wp_mono happend (fun _ _ h => ⟨h.1, hsurvives.trans h.2⟩)
      fun _ _ h => ⟨hsurvives.stopsWith h.1, h.2⟩

/-- A request whose reload, if it is one, is roomy. -/
def RoomyRequest (situation : Situation) (request : Request) (engine : PolicyEngine) : Prop :=
  request = .reload → RoomyReload situation engine

theorem handleControl_upheldAt {situation : Situation} {request : Request} {session : Session}
    (hroomy : RoomyRequest situation request session.runtime.engine)
    (h : SequencesInBounds session.runtime.engine) :
    UpheldAt env (handleControl env situation request) session := by
  have hresult : UpheldAt env (handleControlResult env situation request) session := by
    cases request with
    | status => exact ⟨h, .of_calls rfl⟩
    | rules => exact ⟨h, .of_calls rfl⟩
    | audit limit =>
        exact (Upholds.journal (.storeCall _ _)).bind (fun _ => .pure _) session h
    | reload => exact Upholds.bind_at (reload_upheldAt (hroomy rfl) h) fun _ => .pure _
    | trigger name => exact (upholds_processEvent _ _).bind (fun _ => .pure _) session h
    | simulate event => exact (upholds_simulate _ _).bind (fun _ => .pure _) session h
    | setMode mode => exact (upholds_sessionSetMode mode).bind (fun _ => .pure _) session h
    | recovery enabled => exact (upholds_setRecovery enabled).bind (fun _ => .pure _) session h
    | verifyAudit => exact (Upholds.journal (.storeCall _ _)).bind (fun _ => .pure _) session h
  unfold UpheldAt wp handleControl at *
  cases hrun : handleControlResult env situation request session with
  | mk result after =>
      rw [hrun] at hresult
      cases result with
      | ok response => exact hresult
      | error stop =>
          cases stop with
          | crashed => exact hresult
          | failed message =>
              -- the error becomes an answer
              obtain ⟨⟨hcalls, hstop⟩, hkept⟩ := hresult
              have hup : ¬ TakenDown env session.toJournal after.toJournal :=
                fun hdown => by cases hstop.mpr hdown
              exact ⟨hkept (by simp), hcalls, hup⟩

/-! ## Runs of the daemon -/

/-- The sequences of a daemon that is up are in bounds. -/
def BoundedDaemon (daemon : Daemon) : Prop :=
  ∀ runtime, daemon.runtime = some runtime → SequencesInBounds runtime.engine

/-- A reload requested of this daemon is roomy. -/
def RoomyOp (daemon : Daemon) : DaemonOp → Prop
  | .control situation request =>
      ∀ runtime, daemon.runtime = some runtime → RoomyRequest situation request runtime.engine
  | _ => True

theorem boot_inBounds {situation : Situation} {maxRecords : ℕ} {verifyOnStart : Bool}
    {journal after : Journal} {runtime : Runtime}
    (h : Daemon.boot env situation maxRecords verifyOnStart journal = (.ok runtime, after)) :
    SequencesInBounds runtime.engine := by
  have hwp : wp (Daemon.boot env situation maxRecords verifyOnStart)
      (fun runtime _ => SequencesInBounds runtime.engine) (fun _ _ => True) journal := by
    refine wp_seq (fun config _ => loadConfig situation = .ok config)
      (wp_ofExcept (fun _ h => h) fun _ _ => trivial) fun config loaded hload => ?_
    refine wp_seq (fun _ _ => True) (wp_true _ _) fun _ _ _ => ?_
    refine wp_seq (fun _ _ => True) (wp_true _ _) fun _ _ _ => ?_
    refine wp_seq (fun _ _ => True) (wp_true _ _) fun handles _ _ => ?_
    refine wp_seq (fun runtime _ => SequencesInBounds runtime.engine) ?_
      fun runtime _ hbounds => wp_seq (fun _ _ => True) (wp_true _ _) fun _ _ _ => hbounds
    refine wp_seq (fun _ _ => True) (wp_true _ _) fun stored _ _ => ?_
    refine wp_seq (fun _ _ => True) (wp_true _ _) fun recovery _ _ => ?_
    have haccepted : Accepted situation.host.parseTime config.rules :=
      ⟨config, rfl, validated_of_loadConfig hload⟩
    have hnew := new_sequencesInBounds haccepted (config.restoredMode stored) situation.now
    exact hnew.step (.setRecoveryMode (recovery == some "true")) trivial rfl
  exact wp_of_ok (Q := fun runtime _ => SequencesInBounds runtime.engine) hwp h

/-- How a step of the event loop ends. -/
theorem activate_upheld {x : Activity α} {daemon : Daemon} {runtime : Runtime}
    (h : UpheldAt env x { daemon.toJournal with runtime := runtime }) :
    BoundedDaemon (daemon.activate x runtime) ∧
      ((daemon.activate x runtime).runtime = none ↔
        TakenDown env daemon.toJournal (daemon.activate x runtime).toJournal) := by
  unfold UpheldAt wp at h
  unfold BoundedDaemon Daemon.activate
  cases hx : x { daemon.toJournal with runtime := runtime } with
  | mk result session =>
      rw [hx] at h
      cases result with
      | ok a =>
          obtain ⟨hbounds, hsurvives⟩ := h
          refine ⟨?_, iff_of_false (by simp) hsurvives.2⟩
          intro next hnext
          cases hnext
          exact hbounds
      | error stop =>
          obtain ⟨hstop, hkept⟩ := h
          cases stop with
          | crashed => exact ⟨fun _ hnext => (by cases hnext), iff_of_true rfl (hstop.2.mp rfl)⟩
          | failed message =>
              have hup : ¬ TakenDown env daemon.toJournal session.toJournal :=
                fun hdown => by cases hstop.2.mpr hdown
              refine ⟨?_, iff_of_false (by simp) hup⟩
              intro next hnext
              cases hnext
              exact hkept (by simp)

theorem step_bounded {daemon after : Daemon} {op : DaemonOp} (hroomy : RoomyOp daemon op)
    (h : BoundedDaemon daemon) (hs : daemon.step env op = some after) : BoundedDaemon after := by
  cases op with
  | start situation maxRecords verifyOnStart =>
      intro next hnext
      rcases Daemon.step_start hs with ⟨runtime, journal, hboot, rfl⟩ | ⟨stop, journal, _, rfl⟩
      · cases hnext
        exact boot_inBounds hboot
      · cases hnext
  | event host event =>
      obtain ⟨runtime, hruntime, rfl⟩ := Option.map_eq_some_iff.mp hs
      exact (activate_upheld (upholds_processEvent host event _ (h runtime hruntime))).1
  | control situation request =>
      obtain ⟨runtime, hruntime, rfl⟩ := Option.map_eq_some_iff.mp hs
      exact (activate_upheld
        (handleControl_upheldAt (hroomy runtime hruntime) (h runtime hruntime))).1
  | shutdown =>
      obtain ⟨runtime, _, rfl⟩ := Option.map_eq_some_iff.mp hs
      intro next hnext
      cases hnext
  | kill =>
      cases hs
      intro next hnext
      cases hnext

/-- What ends a process that is up. -/
def EndsAsTold (env : Environment) (daemon : Daemon) (op : DaemonOp) : Prop :=
  ∀ after, daemon.runtime.isSome → daemon.step env op = some after →
    (after.runtime = none ↔
      op = .shutdown ∨ op = .kill ∨ TakenDown env daemon.toJournal after.toJournal)

theorem endsAsTold_of_bounded {daemon : Daemon} {op : DaemonOp} (hroomy : RoomyOp daemon op)
    (h : BoundedDaemon daemon) : EndsAsTold env daemon op := by
  intro after hup hs
  cases op with
  | start situation maxRecords verifyOnStart =>
      obtain ⟨runtime, hruntime⟩ := Option.isSome_iff_exists.mp hup
      rw [Daemon.step, hruntime] at hs
      cases hs
  | event host event =>
      obtain ⟨runtime, hruntime, rfl⟩ := Option.map_eq_some_iff.mp hs
      simpa using (activate_upheld (upholds_processEvent host event _ (h runtime hruntime))).2
  | control situation request =>
      obtain ⟨runtime, hruntime, rfl⟩ := Option.map_eq_some_iff.mp hs
      simpa using (activate_upheld
        (handleControl_upheldAt (hroomy runtime hruntime) (h runtime hruntime))).2
  | shutdown =>
      obtain ⟨runtime, _, rfl⟩ := Option.map_eq_some_iff.mp hs
      exact iff_of_true rfl (Or.inl rfl)
  | kill =>
      cases hs
      exact iff_of_true rfl (Or.inr (Or.inl rfl))

/-- A daemon whose reloads leave room for the partial matches they inherit goes
down with a shutdown, with a kill or with a call of its store, and stays up
through everything else. -/
theorem process_ends_as_told (env : Environment) (store : DaemonStore) (ops : List DaemonOp)
    (hroomy : Execution.AllSteps (Daemon.step env) RoomyOp (Daemon.down store) ops) :
    Execution.AllSteps (Daemon.step env) (EndsAsTold env) (Daemon.down store) ops := by
  intro n daemon op hv
  have hdown : BoundedDaemon (Daemon.down store) := fun runtime hruntime => by cases hruntime
  have hbounded : BoundedDaemon daemon :=
    Execution.run_invariant (C := RoomyOp) (P := BoundedDaemon) hdown
      (fun _ _ _ hop h hs => step_bounded hop h hs) hv.2 (hroomy.take n)
  exact endsAsTold_of_bounded (hroomy n daemon op hv) hbounded

/-! ## A reload under a partial match -/

def stagedConfig (names : List String) : Config := liveConfig [] [manualSequence names]

/-- The sequence grows while it waits for its second step, which the store does
not live to see. -/
def stagedRun : List DaemonOp :=
  [.start (sampleSituation (stagedConfig ["a", "b"])) 0 false,
    .event bareHost (eventAt (.manual "a") 0),
    .control (sampleSituation (stagedConfig ["a", "b", "c"])) .reload,
    .event bareHost (eventAt (.manual "b") 1)]

def stagedEnv : Environment := sampleEnv [(5, .crashes)]

theorem process_ends_as_told_staged :
    ((Execution.run (Daemon.step stagedEnv) (Daemon.down emptyStore) stagedRun).map
        fun daemon => (daemon.runtime.isSome, daemon.calls)) = some (false, 6) ∧
      Execution.AllSteps (Daemon.step stagedEnv) (EndsAsTold stagedEnv) (Daemon.down emptyStore)
        stagedRun := by
  refine ⟨by decide +kernel, process_ends_as_told stagedEnv emptyStore stagedRun ?_⟩
  have hwaiting : (((Execution.run (Daemon.step stagedEnv) (Daemon.down emptyStore)
      (stagedRun.take 2)).bind fun daemon => daemon.runtime).map fun runtime =>
        (runtime.engine.ruleRuntime (manualSequence ["a", "b", "c"]).id).sequenceIndex) =
          some 1 := by
    decide +kernel
  rintro n daemon op ⟨hop, hrun⟩
  rcases n with _ | _ | _ | _ | n
  · cases Option.some.inj hop
    trivial
  · cases Option.some.inj hop
    trivial
  · cases Option.some.inj hop
    rintro runtime hruntime - config hload rule hrule steps within htrigger
    have hvalid : validateConfig bareHost.parseTime (stagedConfig ["a", "b", "c"]) = .ok () := rfl
    have hconfig : config = stagedConfig ["a", "b", "c"] := by
      simpa only [loadConfig, sampleSituation, hvalid, Except.ok.injEq, eq_comm] using hload
    subst hconfig
    obtain rfl : rule = manualSequence ["a", "b", "c"] := List.mem_singleton.mp hrule
    rw [hrun, Option.bind_some, hruntime] at hwaiting
    have hindex : (runtime.engine.ruleRuntime (manualSequence ["a", "b", "c"]).id).sequenceIndex =
        1 := Option.some.inj hwaiting
    rw [hindex, ← (TriggerSpec.sequence.inj htrigger).1]
    exact Nat.lt_succ_of_lt Nat.one_lt_two
  · cases Option.some.inj hop
    trivial
  · cases hop

end Kovert
