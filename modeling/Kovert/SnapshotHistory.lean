import Kovert.Modes
import Kovert.StoreFailures
import Kovert.PollAgreement
import Kovert.ControlLimits

/-!
# The snapshot over whole runs

What the engine knows of the host is the history of the events whose audit
records were committed since the start, folded into a fresh snapshot: no
request, no plan, no reload and no failure changes it in any other way. With the
order of the event channel this carries the agreement of the poller with the
host over to the running daemon.
-/

namespace Kovert

open Fallible Session Replay

variable {env : Environment}

/-! ## The observer -/

/-- The event that a step of the daemon processes. -/
def DaemonOp.processed : DaemonOp → Option Event
  | .event _ received => some received
  | .control situation (.trigger name) => some (manualEvent situation name)
  | _ => none

/-- The audit record of the event is committed when it is processed in this state. -/
def Journal.records (env : Environment) (event : Event) (journal : Journal) : Bool :=
  match env.serde.event event with
  | .error _ => false
  | .ok payload => ((eventCall event payload).serve env journal.calls journal.store).isSome

/-- A start forgets everything, a recorded event is applied. -/
def observe (env : Environment) (seen : SystemSnapshot) (daemon : Daemon) (op : DaemonOp) :
    SystemSnapshot :=
  match op with
  | .start situation _ _ => .default situation.now
  | op =>
    match op.processed with
    | some event => if daemon.records env event then seen.apply event else seen
    | none => seen

/-- The daemon beside an observer that only sees which events were recorded. -/
structure Watched where
  daemon : Daemon
  seen : SystemSnapshot

def Watched.step (env : Environment) (watched : Watched) (op : DaemonOp) : Option Watched :=
  (watched.daemon.step env op).map (fun daemon =>
    ⟨daemon, observe env watched.seen watched.daemon op⟩)

/-- The engine's snapshot is the observer's, with a mode of its own. -/
def Shows (seen : SystemSnapshot) (runtime : Runtime) : Prop :=
  ∃ mode, runtime.engine.snapshot = seen.withMode mode

theorem records_iff {event : Event} {session : Session} :
    session.records env event = true ↔ ∃ store, EventRecorded env event session store := by
  unfold Journal.records EventRecorded
  cases env.serde.event event with
  | error message => simp
  | ok payload => simp [Option.isSome_iff_exists]

/-! ## What moves the snapshot -/

theorem Shows.upToMode {seen : SystemSnapshot} {before after : Runtime} (h : Shows seen before)
    (hmode : before.UpToMode after) : Shows seen after := by
  obtain ⟨mode, rfl⟩ := hmode
  obtain ⟨current, hcurrent⟩ := h
  refine ⟨mode, ?_⟩
  change before.engine.snapshot.withMode mode = _
  rw [hcurrent]
  rfl

theorem SystemSnapshot.apply_withMode (seen : SystemSnapshot) (mode : String) (event : Event) :
    (seen.withMode mode).apply event = (seen.apply event).withMode mode := by
  obtain ⟨id, timestamp, source, kind⟩ := event
  cases kind with
  | mount action path mounted => cases action <;> rfl
  | process name running pid => cases running <;> rfl
  | port port protocol opened => cases opened <;> rfl
  | _ => rfl

/-- The engine's panic on a recorded event ends the process. -/
theorem processEvent_panics {host : Host} {event : Event} {session : Session}
    {store : DaemonStore} (hhandle : session.runtime.engine.handle host event = none)
    (hrecorded : EventRecorded env event session store) :
    (processEvent env host event session).1 = .error .crashed := by
  obtain ⟨payload, hpayload, hserve⟩ := hrecorded
  obtain ⟨after, hcrash⟩ : ∃ after, handle host event
      { session with
        calls := session.calls + 1
        store := store
        trace := session.trace ++ (eventCall event payload).marks } =
      (.error .crashed, after) := by
    unfold handle
    simp only [hhandle]
    exact ⟨_, rfl⟩
  rw [processEvent_eq host session hpayload, bind_ok (run_store_served hserve),
    bind_error hcrash]

/-- An event is applied exactly when it is recorded. -/
theorem processEvent_shows {host : Host} {event : Event} {seen : SystemSnapshot}
    {session : Session} (h : Shows seen session.runtime)
    (hup : (processEvent env host event session).1 ≠ .error .crashed) :
    Shows (if session.records env event then seen.apply event else seen)
      (processEvent env host event session).2.runtime := by
  by_cases hrecords : session.records env event = true
  · rw [if_pos hrecords]
    obtain ⟨store, hrecorded⟩ := records_iff.mp hrecords
    cases hhandle : session.runtime.engine.handle host event with
    | none => exact absurd (processEvent_panics hhandle hrecorded) hup
    | some result =>
        obtain ⟨engine, plans⟩ := result
        rw [processEvent_recorded hhandle hrecorded]
        obtain ⟨gained, _, hplans⟩ := forEach_plansRun env event plans
          (session.withPlans event engine store)
        refine Shows.upToMode ?_ hplans.upToMode
        obtain ⟨mode, hmode⟩ := h
        refine ⟨mode, ?_⟩
        change engine.snapshot = _
        rw [(PolicyEngine.handle_frame hhandle).2.2, hmode, SystemSnapshot.apply_withMode]
  · rw [if_neg hrecords]
    have hlost : ∀ store, ¬ EventRecorded env event session store :=
      fun store hstore => hrecords (records_iff.mpr ⟨store, hstore⟩)
    rw [(processEvent_lost host hlost).1]
    exact h

theorem keeps_shows {α : Type} (seen : SystemSnapshot) (x : Fallible Journal Stop α) :
    Keeps (fun session => Shows seen session.runtime) (onJournal x) := by
  refine keeps_of_runtime fun before after hsame h => ?_
  rw [hsame]
  exact h

/-- No request but a manual event touches more of the snapshot than the mode. -/
theorem control_shows {situation : Situation} {request : Request} (seen : SystemSnapshot)
    (hrequest : ∀ name, request ≠ .trigger name) :
    Keeps (fun session => Shows seen session.runtime)
      (handleControl env situation request) := by
  refine keeps_handleControl (keeps_handleControlResult (fun _ => keeps_shows seen _)
    (fun _ h => h) (fun _ => ?_) (fun name heq => absurd heq (hrequest name)) (fun mode _ => ?_)
    (fun enabled _ => ?_))
  · unfold reload
    refine Keeps.bind (fun session h => wp_ofExcept (fun _ _ => h) fun _ _ => h) fun config => ?_
    refine (keeps_shows seen _).bind fun handles => ?_
    refine Keeps.bind (fun session h => h) fun _ => ?_
    refine Keeps.bind (fun session h => h) fun session => ?_
    exact keeps_shows seen _
  · unfold Session.setMode
    refine Keeps.bind (fun session h => h) fun session => ?_
    split
    · exact fun _ h => h
    · refine Keeps.bind ?_ fun _ => (keeps_shows seen _).bind fun _ => keeps_shows seen _
      exact fun session h => h.upToMode ⟨mode, rfl⟩
  · unfold setRecovery
    refine Keeps.bind ?_ fun _ => (keeps_shows seen _).bind fun _ => keeps_shows seen _
    exact fun session h => h

/-- A manual event is processed like one of a sensor. -/
theorem trigger_snd (situation : Situation) (name : String) (session : Session) :
    (handleControl env situation (.trigger name) session).2 =
      (processEvent env situation.host (manualEvent situation name) session).2 := by
  rw [handleControl_snd]
  exact bind_pure_snd _ (fun count => Response.success
    ("manual event processed; " ++ toString count ++ " action(s) planned") none) _

theorem trigger_crashed {situation : Situation} {name : String} {session : Session}
    (h : (processEvent env situation.host (manualEvent situation name) session).1 =
      .error .crashed) :
    (handleControl env situation (.trigger name) session).1 = .error .crashed := by
  have hresult : handleControlResult env situation (.trigger name) session =
      (.error .crashed, (processEvent env situation.host (manualEvent situation name) session).2) :=
    bind_error (Prod.ext h rfl)
  unfold handleControl
  rw [hresult]

/-! ## Steps -/

/-- A runtime that survives a step was not stopped by it. -/
theorem Daemon.activate_survives {α : Type} {x : Activity α} {daemon : Daemon}
    {runtime next : Runtime} (h : (daemon.activate x runtime).runtime = some next) :
    (x { daemon.toJournal with runtime := runtime }).1 ≠ .error .crashed := by
  intro hcrash
  unfold Daemon.activate at h
  cases hx : x { daemon.toJournal with runtime := runtime } with
  | mk result session =>
      rw [hx] at h hcrash
      cases hcrash
      cases h

theorem boot_shows {situation : Situation} {maxRecords : ℕ} {verifyOnStart : Bool}
    {journal after : Journal} {runtime : Runtime}
    (h : Daemon.boot env situation maxRecords verifyOnStart journal = (.ok runtime, after)) :
    Shows (.default situation.now) runtime := by
  have hwp : wp (Daemon.boot env situation maxRecords verifyOnStart)
      (fun runtime _ => Shows (.default situation.now) runtime) (fun _ _ => True) journal := by
    refine wp_seq (fun _ _ => True) (wp_true _ _) fun config _ _ => ?_
    refine wp_seq (fun _ _ => True) (wp_true _ _) fun _ _ _ => ?_
    refine wp_seq (fun _ _ => True) (wp_true _ _) fun _ _ _ => ?_
    refine wp_seq (fun _ _ => True) (wp_true _ _) fun handles started _ => ?_
    refine wp_seq (fun runtime _ => Shows (.default situation.now) runtime) ?_
      fun runtime _ hshows => wp_seq (fun _ _ => True) (wp_true _ _) fun _ _ _ => hshows
    refine wp_seq (fun _ _ => True) (wp_true _ _) fun stored _ _ => ?_
    refine wp_seq (fun _ _ => True) (wp_true _ _) fun recovery _ _ => ?_
    exact ⟨config.restoredMode stored, rfl⟩
  exact wp_of_ok (Q := fun runtime _ => Shows (.default situation.now) runtime) hwp h

/-- The step lemma: the observer keeps up with the engine. -/
theorem step_shows {daemon after : Daemon} {op : DaemonOp} {seen : SystemSnapshot}
    (h : ∀ runtime, daemon.runtime = some runtime → Shows seen runtime)
    (hs : daemon.step env op = some after) (next : Runtime) (hnext : after.runtime = some next) :
    Shows (observe env seen daemon op) next := by
  cases op with
  | start situation maxRecords verifyOnStart =>
      rcases Daemon.step_start hs with ⟨runtime, journal, hboot, rfl⟩ | ⟨stop, journal, _, rfl⟩
      · cases hnext
        exact boot_shows hboot
      · cases hnext
  | event host event =>
      obtain ⟨runtime, hruntime, rfl⟩ := Option.map_eq_some_iff.mp hs
      rw [Daemon.activate_runtime hnext]
      exact processEvent_shows (h runtime hruntime) (Daemon.activate_survives hnext)
  | control situation request =>
      obtain ⟨runtime, hruntime, rfl⟩ := Option.map_eq_some_iff.mp hs
      have hsurvives := Daemon.activate_survives hnext
      rw [Daemon.activate_runtime hnext]
      cases request with
      | trigger name =>
          rw [trigger_snd]
          exact processEvent_shows (h runtime hruntime)
            fun hcrash => hsurvives (trigger_crashed hcrash)
      | _ => exact (control_shows seen (by simp)).apply (h runtime hruntime)
  | shutdown =>
      obtain ⟨runtime, _, rfl⟩ := Option.map_eq_some_iff.mp hs
      cases hnext
  | kill =>
      cases hs
      cases hnext

/-- In every run, what the engine knows of the host is what an observer of the
committed event records knows: only an event whose record is committed moves the
snapshot, and each such event moves it once, whatever becomes of its plans. -/
theorem snapshot_follows_records (env : Environment) (store : DaemonStore)
    (initial : SystemSnapshot) (ops : List DaemonOp) (watched : Watched) (runtime : Runtime)
    (hrun : Execution.run (Watched.step env) ⟨Daemon.down store, initial⟩ ops = some watched)
    (hruntime : watched.daemon.runtime = some runtime) :
    runtime.engine.snapshot = watched.seen.withMode runtime.engine.snapshot.mode := by
  have hshows : ∀ runtime, watched.daemon.runtime = some runtime → Shows watched.seen runtime := by
    refine Execution.run_invariant (C := fun _ _ => True)
      (P := fun watched : Watched => ∀ runtime, watched.daemon.runtime = some runtime →
        Shows watched.seen runtime) ?_ ?_ hrun fun _ _ _ _ => trivial
    · intro runtime hnone
      cases hnone
    · intro before op after _ h hs
      obtain ⟨daemon, hdaemon, rfl⟩ := Option.map_eq_some_iff.mp hs
      exact step_shows h hdaemon
  obtain ⟨mode, hmode⟩ := hshows runtime hruntime
  rw [hmode]
  rfl

/-- The events of a run whose second power report is lost with its record. -/
def lostReport : List DaemonOp :=
  [.start (sampleSituation (liveConfig homeModes [])) 0 false,
    .event bareHost (eventAt (.power (some true) none none) 1),
    .event bareHost (eventAt (.power (some false) none none) 2),
    .control (sampleSituation (liveConfig homeModes [])) (.setMode "away")]

theorem snapshot_follows_records_lost : ∃ watched runtime,
    Execution.run (Watched.step (sampleEnv [(4, .fails "disk is full")]))
      ⟨Daemon.down emptyStore, .default 0⟩ lostReport = some watched ∧
      watched.daemon.runtime = some runtime ∧ watched.seen.onAc = some true ∧
      runtime.engine.snapshot = watched.seen.withMode runtime.engine.snapshot.mode := by
  have hrun : (Execution.run (Watched.step (sampleEnv [(4, .fails "disk is full")]))
      ⟨Daemon.down emptyStore, .default 0⟩ lostReport).map (fun watched =>
        (watched.daemon.runtime.isSome, watched.seen.onAc)) = some (true, some true) := by
    decide +kernel
  obtain ⟨watched, hwatched, hvalues⟩ := Option.map_eq_some_iff.mp hrun
  obtain ⟨hsome, honAc⟩ := Prod.ext_iff.mp hvalues
  obtain ⟨runtime, hruntime⟩ := Option.isSome_iff_exists.mp hsome
  exact ⟨watched, runtime, hwatched, hruntime, honAc,
    snapshot_follows_records _ _ _ _ _ _ hwatched hruntime⟩

/-! ## From the host to the engine -/

theorem Sensor.view_withMode (sensor : Sensor) (snapshot : SystemSnapshot) (mode : String) :
    sensor.view (snapshot.withMode mode) = sensor.view snapshot := by
  cases sensor <;> rfl

theorem Sensor.view_foldl_apply (sensor : Sensor) (events : List Event)
    (snapshot : SystemSnapshot) :
    sensor.view (events.foldl SystemSnapshot.apply snapshot) =
      events.foldl (fun view event => sensor.update view event.kind) (sensor.view snapshot) := by
  induction events generalizing snapshot with
  | nil => rfl
  | cons event events ih => rw [List.foldl_cons, List.foldl_cons, ih, sensor.view_apply]

/-- What the sensor's events since the last start make of its part of the snapshot. -/
def Sensor.replayed (sensor : Sensor) (steps : List DaemonOp) : sensor.View :=
  (System.handledEvents steps).foldl (fun view event => sensor.update view event.kind)
    (sensor.view (.default 0))

/-- Every event of a sensor that the daemon takes is recorded. -/
def recordsEvent (env : Environment) (daemon : Daemon) : DaemonOp → Bool
  | .event _ received => daemon.records env received
  | _ => true

def RecordsEvent (env : Environment) (daemon : Daemon) (op : DaemonOp) : Prop :=
  recordsEvent env daemon op = true

/-- If every event is recorded, a sensor's part of the snapshot is the fold of
the events handled since the last start. -/
theorem view_replayed (sensor : Sensor) {store : DaemonStore} {steps : List DaemonOp}
    {daemon : Daemon} (hrun : Execution.run (Daemon.step env) (Daemon.down store) steps = some daemon)
    (hall : Execution.AllSteps (Daemon.step env) (RecordsEvent env) (Daemon.down store) steps)
    (runtime : Runtime) (hruntime : daemon.runtime = some runtime) :
    sensor.view runtime.engine.snapshot = sensor.replayed steps := by
  have hseen : ∀ runtime, daemon.runtime = some runtime →
      ∃ seen, Shows seen runtime ∧ sensor.view seen = sensor.replayed steps := by
    refine Execution.run_history (C := RecordsEvent env)
      (P := fun steps daemon => ∀ runtime, daemon.runtime = some runtime →
        ∃ seen, Shows seen runtime ∧ sensor.view seen = sensor.replayed steps) ?_ ?_ hrun hall
    · intro runtime hnone
      cases hnone
    · intro steps before op after _ _ hrecords h hs next hnext
      have hsnoc : sensor.replayed (steps ++ [op]) =
          (System.afterStep (System.handledEvents steps) op).foldl
            (fun view event => sensor.update view event.kind) (sensor.view (.default 0)) := by
        rw [Sensor.replayed, System.handledEvents_snoc]
      cases op with
      | start situation maxRecords verifyOnStart =>
          have hdown : before.runtime = none := by
            cases hbefore : before.runtime with
            | none => rfl
            | some runtime =>
                simp only [Daemon.step, hbefore] at hs
                cases hs
          have hnone : ∀ runtime, before.runtime = some runtime → Shows (.default 0) runtime := by
            rw [hdown]
            exact fun _ hsome => (by cases hsome)
          have hshows := step_shows hnone hs next hnext
          refine ⟨_, hshows, ?_⟩
          rw [hsnoc]
          cases sensor <;> rfl
      | event host event =>
          obtain ⟨runtime, hruntime, _⟩ := Option.map_eq_some_iff.mp hs
          obtain ⟨seen, hseen, hview⟩ := h runtime hruntime
          have hshows := step_shows (fun other hother => by
            rw [hruntime] at hother
            cases hother
            exact hseen) hs next hnext
          refine ⟨_, hshows, ?_⟩
          have hobserved : observe env seen before (.event host event) = seen.apply event :=
            if_pos hrecords
          rw [hobserved, sensor.view_apply, hview, hsnoc, System.afterStep, List.foldl_append]
          rfl
      | control situation request =>
          obtain ⟨runtime, hruntime, _⟩ := Option.map_eq_some_iff.mp hs
          obtain ⟨seen, hseen, hview⟩ := h runtime hruntime
          have hshows := step_shows (fun other hother => by
            rw [hruntime] at hother
            cases hother
            exact hseen) hs next hnext
          refine ⟨_, hshows, ?_⟩
          rw [hsnoc]
          refine Eq.trans ?_ hview
          -- a manual event carries no state of the host
          cases request with
          | trigger name =>
              simp only [observe, DaemonOp.processed]
              split
              · rw [sensor.view_apply]
                exact Sensor.update_inert rfl _
              · rfl
          | _ => rfl
      | shutdown =>
          obtain ⟨runtime, _, rfl⟩ := Option.map_eq_some_iff.mp hs
          cases hnext
      | kill =>
          cases hs
          cases hnext
  obtain ⟨seen, ⟨mode, hmode⟩, hview⟩ := hseen runtime hruntime
  rw [hmode, sensor.view_withMode]
  exact hview

/-- What the poller keeps of a required sensor over its cycles. -/
theorem Poller.Delivers.tracks {poller : Poller} {snapshot : SystemSnapshot} {cycles : List Cycle}
    (hsnapshot : DefaultSensorFields snapshot)
    (h : poller.Delivers (fun event => event.kind.inert = true) snapshot cycles)
    {sensor : Sensor} (hrequired : sensor.required poller.requirements = true) :
    poller.Tracks sensor cycles (poller.after snapshot cycles) := by
  refine h.invariant (I := poller.Tracks sensor) ?_ ?_
  · refine ⟨inStep_default _ _ hsnapshot, ?_, fun _ => rfl⟩
    intro value hnone
    cases hnone
  · intro cycles cycle htracks hw
    exact htracks.advance (fun _ hinert => hinert) hw hrequired

theorem Poller.after_snapshot (poller : Poller) (snapshot : SystemSnapshot)
    (cycles : List Cycle) :
    (poller.after snapshot cycles).snapshot =
      (cycles.flatMap Cycle.events).foldl SystemSnapshot.apply snapshot := by
  induction cycles using List.reverseRecOn with
  | nil => rfl
  | append_singleton cycles cycle ih =>
      rw [after_snoc, List.flatMap_append, List.foldl_append, ← ih, List.flatMap_singleton]
      rfl

/-- From the probes to the rules: when the runtime has handled all that the poller
and the other sensors have sent since the start, and every event was recorded,
the engine's snapshot agrees with the last successful probe of every required
sensor, whatever control requests, timeouts and connections came in between. -/
theorem runtime_follows_probes (env : Environment) (wire : WireFormat) (store : DaemonStore)
    (ops : List SystemOp) (system : System) (runtime : Runtime) (poller : Poller)
    (cycles : List Cycle)
    (hrun : Execution.run (System.step env wire) (.initial store) ops = some system)
    (hruntime : system.daemon.runtime = some runtime)
    (hrecorded : Execution.AllSteps (Daemon.step env) (RecordsEvent env) (Daemon.down store)
      system.steps)
    (hdrained : system.events.queue = [])
    (hposted : system.events.posted = cycles.flatMap Cycle.events)
    (hdelivers : poller.Delivers (fun event => event.kind.inert = true) (.default 0) cycles)
    (sensor : Sensor) (hrequired : sensor.required poller.requirements = true)
    (value : sensor.Value) (hlast : poller.lastValue sensor cycles = some value) :
    sensor.Agrees poller.requirements value runtime.engine.snapshot := by
  have hlistening : system.listening = true := by
    rw [System.listening, hruntime]
    rfl
  have hhandled : System.handledEvents system.steps = cycles.flatMap Cycle.events := by
    have horder := system.events.order
    rw [hdrained, List.append_nil] at horder
    rw [(System.run_streams hrun hlistening).handled, ← horder, hposted]
  have hview : sensor.view runtime.engine.snapshot =
      sensor.view (poller.after (.default 0) cycles).snapshot := by
    rw [view_replayed sensor (System.run_follows hrun).run hrecorded runtime hruntime,
      Sensor.replayed, hhandled, poller.after_snapshot, sensor.view_foldl_apply]
  have hdefault : DefaultSensorFields (.default 0) := rfl
  have htracks := hdelivers.tracks hdefault hrequired
  obtain ⟨cycle, _, hok⟩ := List.exists_of_findSome?_eq_some hlast
  have hprobed : cycle.probes.result poller.requirements sensor = .ok value := by
    cases hresult : cycle.probes.result poller.requirements sensor with
    | ok found => rw [hresult] at hok; cases hok; rfl
    | error message => rw [hresult] at hok; cases hok
  rw [Sensor.agrees_iff hprobed, hview, ← htracks.last value hlast]
  exact htracks.inStep

/-- The poller's cycle that finds the vault mounted, with the events it sends. -/
def vaultCycles : List Cycle := mountPoller.plainCycles (.default 0) [downProbes, vaultMounted]

/-- The sensors send the events of the cycles, and the runtime handles them. -/
def vaultRun : List SystemOp :=
  .start (sampleSituation (liveConfig homeModes [])) 0 false ::
    ((vaultCycles.flatMap Cycle.events).map SystemOp.send ++
      .connect 1000 :: (vaultCycles.flatMap Cycle.events).map (fun _ => SystemOp.handle bareHost))

/-- The check of `RecordsEvent` along a run. -/
def recordsAll (env : Environment) : Daemon → List DaemonOp → Bool
  | _, [] => true
  | daemon, op :: ops =>
    recordsEvent env daemon op &&
      (match daemon.step env op with
      | some next => recordsAll env next ops
      | none => true)

theorem allSteps_of_recordsAll {daemon : Daemon} {ops : List DaemonOp}
    (h : recordsAll env daemon ops = true) :
    Execution.AllSteps (Daemon.step env) (RecordsEvent env) daemon ops := by
  induction ops generalizing daemon with
  | nil =>
      intro n before op hvisits
      exact absurd hvisits.lt_length (Nat.not_lt_zero n)
  | cons head ops ih =>
      rw [recordsAll, Bool.and_eq_true] at h
      intro n before op hvisits
      cases n with
      | zero =>
          obtain ⟨rfl, rfl⟩ := Execution.visits_cons_zero.mp hvisits
          exact h.1
      | succ n =>
          obtain ⟨next, hstep, hrest⟩ := Execution.visits_cons_succ.mp hvisits
          rw [hstep] at h
          exact ih h.2 n before op hrest

theorem runtime_follows_probes_vault : ∃ system runtime,
    Execution.run (System.step (sampleEnv []) sampleWire) (.initial emptyStore) vaultRun =
      some system ∧ system.daemon.runtime = some runtime ∧
      runtime.engine.snapshot.mounts = mountPaths [(⟨"/mnt/vault"⟩, some "vault")] := by
  have hrun : (Execution.run (System.step (sampleEnv []) sampleWire) (.initial emptyStore)
      vaultRun).map (fun system => (system.daemon.runtime.isSome, system.events.queue,
        system.events.posted, recordsAll (sampleEnv []) (Daemon.down emptyStore) system.steps)) =
        some (true, [], vaultCycles.flatMap Cycle.events, true) := by
    decide +kernel
  obtain ⟨system, hsystem, hvalues⟩ := Option.map_eq_some_iff.mp hrun
  obtain ⟨hsome, hvalues⟩ := Prod.ext_iff.mp hvalues
  obtain ⟨hdrained, hvalues⟩ := Prod.ext_iff.mp hvalues
  obtain ⟨hposted, hrecorded⟩ := Prod.ext_iff.mp hvalues
  obtain ⟨runtime, hruntime⟩ := Option.isSome_iff_exists.mp hsome
  refine ⟨system, runtime, hsystem, hruntime, ?_⟩
  exact runtime_follows_probes (sampleEnv []) sampleWire emptyStore vaultRun system runtime
    mountPoller vaultCycles hsystem hruntime (allSteps_of_recordsAll hrecorded) hdrained hposted
    (mountPoller.delivers_plainCycles _ _ _) .mounts rfl _ rfl

end Kovert
