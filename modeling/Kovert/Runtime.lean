import Kovert.Actions
import Kovert.AuditStore
import Kovert.Engine
import Kovert.Requirements
import Kovert.Foundations.Fallible

/-!
# The daemon runtime

`Runtime` of `kovert-daemon/src/runtime.rs` with the parts of the store, the
configuration loader and the sensor hub it calls. A `Journal` is what outlives
a runtime: the durable store, and as history variables the number of store
calls and executions so far and the trace of what they committed. The
environment answers every store call; an answer may be an error, which leaves
the store as it was, or the death of the daemon.
-/

namespace Kovert

open Fallible

/-! ## The store -/

structure LedgerKey where
  eventId : String
  ruleId : String
  actionHash : String
  deriving DecidableEq, Repr

inductive ActionStatus where
  | started | succeeded | failed
  deriving DecidableEq, Repr

structure LedgerRow where
  status : ActionStatus
  outcome : Option String
  updatedAt : String
  deriving DecidableEq, Repr

/-- The audit store together with its `action_ledger` table. -/
structure DaemonStore extends AuditStore where
  ledger : LedgerKey → Option LedgerRow

namespace DaemonStore

def getState (store : DaemonStore) (key : String) : Option String := store.database.state key

def setState (store : DaemonStore) (key value : String) : DaemonStore :=
  { store with toAuditStore := store.toAuditStore.setState key value }

def append (blake3 : List UInt8 → String) (store : DaemonStore) (timestamp : String)
    (eventId : Option String) (kind : String) (ruleId : Option String) (payload : String) :
    Except String DaemonStore :=
  match store.toAuditStore.append blake3 timestamp eventId kind ruleId payload with
  | .error message => .error message
  | .ok (audit, _) => .ok { store with toAuditStore := audit }

/-- `SELECT id, .. FROM audit ORDER BY id DESC LIMIT min(limit, 1000)`. -/
def recent (store : DaemonStore) (limit : ℕ) : List AuditRow :=
  store.database.audit.reverse.take (min limit 1000)

def actionCompleted (store : DaemonStore) (key : LedgerKey) : Bool :=
  (store.ledger key).map (·.status) == some .succeeded

/-- The upsert of `record_action`. -/
def recordAction (store : DaemonStore) (key : LedgerKey) (status : ActionStatus)
    (outcome : Option String) (updatedAt : String) : DaemonStore :=
  { store with ledger := Function.update store.ledger key (some ⟨status, outcome, updatedAt⟩) }

end DaemonStore

/-! ## The environment -/

/-- Values of the small JSON objects the runtime writes itself. -/
inductive JsonValue where
  | text (value : String)
  | flag (value : Bool)
  | number (value : ℕ)
  deriving DecidableEq, Repr

/-- The texts of `serde_json`. Only an event can fail to serialize: it may
carry a path that is not valid UTF-8. -/
structure Serde where
  event : Event → Except String String
  action : ActionSpec → String
  actionBytes : ActionSpec → List UInt8
  outcome : ActionOutcome → String
  object : List (String × JsonValue) → String

/-- What becomes of one store call: it is carried out at the given time, it
returns an error, or the daemon dies before it. -/
inductive Answer where
  | succeeds (clock : String)
  | fails (message : String)
  | crashes
  deriving DecidableEq, Repr

structure Environment where
  blake3 : List UInt8 → String
  serde : Serde
  answer : ℕ → Answer
  tools : ℕ → Tools

/-- What the code around the runtime meets during one step: the host conditions
read, the configuration file, the start of each sensor provider, and the id and
time `Event::new` takes. -/
structure Situation where
  host : Host
  readConfig : Except String Config
  filesystemSpawn : Except String Unit
  hotkeySpawn : HotkeyConfig → Except String Unit
  pollingSpawn : Except String Unit
  eventId : Uuid
  now : Timestamp

/-! ## State -/

/-- History of the durable effects. `planned` opens a call of `execute_plan`. -/
inductive Mark where
  | planned (key : LedgerKey)
  | recorded (key : LedgerKey) (status : ActionStatus)
  | audited (eventId : Option String) (kind : String) (ruleId : Option String)
  | stored (key value : String)
  | invoked (key : LedgerKey)
  | failed
  | crashed
  deriving DecidableEq, Repr

structure Runtime where
  config : Config
  engine : PolicyEngine
  executor : ExecutionContext
  sensorHandles : List ℕ

structure Journal where
  store : DaemonStore
  calls : ℕ
  executions : ℕ
  spawned : ℕ
  aborted : List ℕ
  trace : List Mark

structure Session extends Journal where
  runtime : Runtime

/-- How a fallible function of the daemon ends early. -/
inductive Stop where
  | failed (message : String)
  | crashed
  deriving DecidableEq, Repr

abbrev Activity (α : Type) : Type := Fallible Session Stop α

namespace Journal

def mark (journal : Journal) (marks : List Mark) : Journal :=
  { journal with trace := journal.trace ++ marks }

/-- One call of the store. A call that is carried out leaves `marks`. -/
def storeCall {α : Type} (env : Environment)
    (body : String → DaemonStore → Except String (α × DaemonStore)) (marks : List Mark) :
    Fallible Journal Stop α := fun journal =>
  let called := { journal with calls := journal.calls + 1 }
  match env.answer journal.calls with
  | .crashes => (.error .crashed, called.mark [.crashed])
  | .fails message => (.error (.failed message), called.mark [.failed])
  | .succeeds clock =>
    match body clock journal.store with
    | .error message => (.error (.failed message), called.mark [.failed])
    | .ok (result, store) => (.ok result, { called with store := store }.mark marks)

def append (env : Environment) (eventId : Option String) (kind : String)
    (ruleId : Option String) (payload : String) : Fallible Journal Stop Unit :=
  storeCall env (fun clock store =>
    (store.append env.blake3 clock eventId kind ruleId payload).map (fun store => ((), store)))
    [.audited eventId kind ruleId]

def getState (env : Environment) (key : String) : Fallible Journal Stop (Option String) :=
  storeCall env (fun _ store => .ok (store.getState key, store)) []

def setState (env : Environment) (key value : String) : Fallible Journal Stop Unit :=
  storeCall env (fun _ store => .ok ((), store.setState key value)) [.stored key value]

def recent (env : Environment) (limit : ℕ) : Fallible Journal Stop (List AuditRow) :=
  storeCall env (fun _ store => .ok (store.recent limit, store)) []

def verify (env : Environment) : Fallible Journal Stop ℕ :=
  storeCall env (fun _ store =>
    (store.database.verify env.blake3).map (fun verified => (verified, store))) []

def actionCompleted (env : Environment) (key : LedgerKey) : Fallible Journal Stop Bool :=
  storeCall env (fun _ store => .ok (store.actionCompleted key, store)) []

def recordAction (env : Environment) (key : LedgerKey) (status : ActionStatus)
    (outcome : Option String) : Fallible Journal Stop Unit :=
  storeCall env (fun clock store => .ok ((), store.recordAction key status outcome clock))
    [.recorded key status]

/-! ## Sensors -/

/-- A provider that starts becomes a task with a fresh handle. -/
def spawnTask (context : String) (result : Except String Unit) : Fallible Journal Stop ℕ :=
  fun journal =>
    match result with
    | .ok _ => (.ok journal.spawned, { journal with spawned := journal.spawned + 1 })
    | .error _ => (.error (.failed context), journal)

/-- Hotkeys that do not start are reported as events and skipped. -/
def spawnHotkeys (situation : Situation) :
    List HotkeyConfig → Fallible Journal Stop (List ℕ)
  | [] => pure []
  | hotkey :: hotkeys =>
    match situation.hotkeySpawn hotkey with
    | .error _ => spawnHotkeys situation hotkeys
    | .ok _ => do
      let handle ← spawnTask "hotkeys" (.ok ())
      let handles ← spawnHotkeys situation hotkeys
      pure (handle :: handles)

/-- The file watcher runs only when a rule watches a path. -/
def spawnWatcher (situation : Situation) (context : String) (config : Config) :
    Fallible Journal Stop (List ℕ) :=
  if (SensorRequirements.fromConfig config).fileWatches.isEmpty then pure []
  else do
    let handle ← spawnTask context situation.filesystemSpawn
    pure [handle]

/-- `SensorHub::start`. -/
def startSensors (situation : Situation) (context : String) (config : Config) :
    Fallible Journal Stop (List ℕ) := do
  let watcher ← spawnWatcher situation context config
  let hotkeys ← spawnHotkeys situation config.hotkeys
  let poller ← spawnTask context situation.pollingSpawn
  pure (watcher ++ hotkeys ++ [poller])

end Journal

/-! ## Configuration -/

namespace ValidationError

/-- The `Display` texts. -/
def display : ValidationError → String
  | .version found => "unsupported configuration version " ++ toString found ++ "; expected 1"
  | .duplicate kind name => "duplicate " ++ kind ++ " name: " ++ name
  | .rule id message => "invalid rule " ++ id ++ ": " ++ message
  | .vault name message => "invalid vault " ++ name ++ ": " ++ message
  | .hotkey name message => "invalid hotkey " ++ name ++ ": " ++ message
  | .daemon message => "invalid daemon setting: " ++ message

end ValidationError

/-- `config_loader::load`, after the permission checks, the read and the parse. -/
def loadConfig (situation : Situation) : Except Stop Config :=
  match situation.readConfig with
  | .error message => .error (.failed message)
  | .ok config =>
    match validateConfig situation.host.parseTime config with
    | .ok _ => .ok config
    | .error errors =>
      .error (.failed ("configuration validation failed:\n" ++
        "\n".intercalate (errors.map (fun error => "- " ++ error.display))))

def executorFor (config : Config) : ExecutionContext where
  dryRun := config.daemon.dryRun
  commandTimeout := config.daemon.commandTimeout
  allowedExecutables := config.daemon.allowedExecutables
  managedProcesses := config.daemon.managedProcesses
  vaults := config.vaults
  desktopNotifications := config.daemon.desktopNotifications

def Config.knowsMode (config : Config) (mode : String) : Bool :=
  config.modes.any (fun item => item.name == mode)

/-- The initial mode, else the first one, else `normal`. -/
def Config.configuredMode (config : Config) : String :=
  match (config.modes.find? (·.initial)).or config.modes.head? with
  | some mode => mode.name
  | none => "normal"

/-- The stored mode if the configuration still has it, else the configured one. -/
def Config.restoredMode (config : Config) (stored : Option String) : String :=
  (stored.filter (fun mode => config.modes.isEmpty || config.knowsMode mode)).getD
    config.configuredMode

/-- `Runtime::new`; `now` is the instant the engine's snapshot starts at. -/
def Runtime.new (env : Environment) (config : Config) (sensorHandles : List ℕ) (now : Timestamp) :
    Fallible Journal Stop Runtime := do
  let storedMode ← Journal.getState env "mode"
  let engine := PolicyEngine.new config.rules (config.restoredMode storedMode) now
  let recovery ← Journal.getState env "recovery_mode"
  pure
    { config := config
      engine := engine.setRecoveryMode (recovery == some "true")
      executor := executorFor config
      sensorHandles := sensorHandles }

/-! ## Events -/

/-- The hyphenated lower-case text of `Uuid::to_string`. -/
def uuidText (id : Uuid) : String :=
  let digits := (List.range 32).map (fun i => Nat.digitChar (id.toNat / 16 ^ (31 - i) % 16))
  String.ofList (digits.take 8 ++ '-' :: (digits.drop 8).take 4 ++ '-' :: (digits.drop 12).take 4
    ++ '-' :: (digits.drop 16).take 4 ++ '-' :: digits.drop 20)

def ledgerKey (env : Environment) (event : Event) (plan : ActionPlan) : LedgerKey where
  eventId := uuidText event.id
  ruleId := plan.ruleId
  actionHash := env.blake3 (env.serde.actionBytes plan.action)

namespace Session

def onJournal {α : Type} (x : Fallible Journal Stop α) : Activity α :=
  zoom Session.toJournal (fun journal session => { session with toJournal := journal }) x

def append (env : Environment) (eventId : Option String) (kind : String)
    (ruleId : Option String) (payload : String) : Activity Unit :=
  onJournal (Journal.append env eventId kind ruleId payload)

def setState (env : Environment) (key value : String) : Activity Unit :=
  onJournal (Journal.setState env key value)

/-- Change the engine in memory. -/
def updateEngine (f : PolicyEngine → PolicyEngine) : Activity Unit :=
  modify (fun session =>
    { session with runtime := { session.runtime with engine := f session.runtime.engine } })

def applyEffect (env : Environment) : ActionEffect → Activity Unit
  | .setMode mode => do
    updateEngine (fun engine => engine.setMode mode)
    setState env "mode" mode
  | .networkIsolation enabled =>
    setState env "network_isolated" (if enabled then "true" else "false")
  | .none => pure ()

/-- The call of the executor. -/
def execute (env : Environment) (key : LedgerKey) (action : ActionSpec) (event : Event) :
    Activity (Except String ActionOutcome) := fun session =>
  (.ok (session.runtime.executor.execute (env.tools session.executions) action event),
    { session with
      executions := session.executions + 1
      trace := session.trace ++ [.invoked key] })

/-- The outcome's ledger row and audit record. -/
def recordOutcome (env : Environment) (key : LedgerKey) (success : Bool) (payload : String) :
    Activity Unit := do
  onJournal (Journal.recordAction env key (if success then .succeeded else .failed)
    (some payload))
  append env (some key.eventId) (if success then "action_succeeded" else "action_failed")
    (some key.ruleId) payload

/-- The part of `execute_plan` after the executor has answered. -/
def concludePlan (env : Environment) (key : LedgerKey) :
    Except String ActionOutcome → Activity Unit
  | .ok outcome => do
    recordOutcome env key outcome.success (env.serde.outcome outcome)
    if outcome.success && !outcome.dryRun then applyEffect env outcome.effect else pure ()
  | .error message =>
    recordOutcome env key false (env.serde.object [("error", .text message)])

def executePlan (env : Environment) (event : Event) (plan : ActionPlan) : Activity Unit := do
  let key := ledgerKey env event plan
  onJournal (modify (Journal.mark · [.planned key]))
  let completed ← onJournal (Journal.actionCompleted env key)
  if completed then pure ()
  else do
    onJournal (Journal.recordAction env key .started none)
    append env (some key.eventId) "action_started" (some key.ruleId) (env.serde.action plan.action)
    let result ← execute env key plan.action event
    concludePlan env key result

/-- `engine.handle`; its index panic takes the daemon down. -/
def handle (host : Host) (event : Event) : Activity (List ActionPlan) := fun session =>
  match session.runtime.engine.handle host event with
  | none => (.error .crashed, { session with trace := session.trace ++ [.crashed] })
  | some (engine, plans) =>
    (.ok plans, { session with runtime := { session.runtime with engine := engine } })

def processEvent (env : Environment) (host : Host) (event : Event) : Activity ℕ := do
  let payload ← ofExcept ((env.serde.event event).mapError Stop.failed)
  append env (some (uuidText event.id)) "event" none payload
  let plans ← handle host event
  forEach (executePlan env event) plans
  pure plans.length

end Session

/-! ## Control requests -/

inductive Request where
  | status
  | rules
  | audit (limit : ℕ)
  | reload
  | trigger (name : String)
  | simulate (event : Event)
  | setMode (mode : String)
  | recovery (enabled : Bool)
  | verifyAudit

inductive ResponseData where
  | status (version : String) (dryRun recoveryMode : Bool) (rules : ℕ) (snapshot : SystemSnapshot)
  | rules (rules : List Rule)
  | audit (records : List AuditRow)
  | plans (plans : List ActionPlan)
  | verified (count : ℕ)

structure Response where
  version : ℕ
  ok : Bool
  message : String
  data : Option ResponseData

def Response.success (message : String) (data : Option ResponseData) : Response :=
  ⟨1, true, message, data⟩

def Response.error (message : String) : Response := ⟨1, false, message, none⟩

def packageVersion : String := "0.1.0"

namespace Session

/-- The assignments of `reload` after its fallible steps: the old providers are
aborted and everything derived from the configuration is replaced. -/
def switchConfig (config : Config) (sensorHandles : List ℕ) (session : Session) : Session :=
  { session with
    aborted := session.aborted ++ session.runtime.sensorHandles
    runtime :=
      { config := config
        engine := session.runtime.engine.replaceRules config.rules
        executor := executorFor config
        sensorHandles := sensorHandles } }

def reload (env : Environment) (situation : Situation) : Activity Unit := do
  let config ← ofExcept (loadConfig situation)
  let handles ← onJournal (Journal.startSensors situation "restart sensors" config)
  modify (switchConfig config handles)
  let session ← read
  append env none "configuration_reloaded" none
    (env.serde.object [("rules", .number session.runtime.engine.rules.length)])

def manualEvent (situation : Situation) (name : String) : Event where
  id := situation.eventId
  timestamp := situation.now
  source := "manual"
  kind := .manual name

/-- Evaluate an event on a copy of the engine. -/
def simulate (host : Host) (event : Event) : Activity (List ActionPlan) := fun session =>
  match session.runtime.engine.handle host event with
  | none => (.error .crashed, { session with trace := session.trace ++ [.crashed] })
  | some (_, plans) => (.ok plans, session)

def setMode (env : Environment) (mode : String) : Activity Unit := do
  let session ← read
  if !session.runtime.config.knowsMode mode then
    stop (.failed ("unknown security mode " ++ mode))
  else do
    updateEngine (fun engine => engine.setMode mode)
    setState env "mode" mode
    append env none "mode_changed" none (env.serde.object [("mode", .text mode)])

def setRecovery (env : Environment) (enabled : Bool) : Activity Unit := do
  updateEngine (fun engine => engine.setRecoveryMode enabled)
  setState env "recovery_mode" (if enabled then "true" else "false")
  append env none "recovery_mode_changed" none (env.serde.object [("enabled", .flag enabled)])

def handleControlResult (env : Environment) (situation : Situation) :
    Request → Activity Response
  | .status => do
    let session ← read
    pure (.success "Kovert is running" (some (.status packageVersion
      session.runtime.config.daemon.dryRun session.runtime.engine.recoveryMode
      session.runtime.engine.rules.length session.runtime.engine.snapshot)))
  | .rules => do
    let session ← read
    pure (.success "active rules" (some (.rules session.runtime.engine.rules)))
  | .audit limit => do
    let records ← onJournal (Journal.recent env limit)
    pure (.success "audit records" (some (.audit records)))
  | .reload => do
    reload env situation
    pure (.success "configuration reloaded" none)
  | .trigger name => do
    let count ← processEvent env situation.host (manualEvent situation name)
    pure (.success ("manual event processed; " ++ toString count ++ " action(s) planned") none)
  | .simulate event => do
    let plans ← simulate situation.host event
    pure (.success ("simulation produced " ++ toString plans.length ++ " action(s)")
      (some (.plans plans)))
  | .setMode mode => do
    setMode env mode
    pure (.success "security mode changed" none)
  | .recovery enabled => do
    setRecovery env enabled
    pure (.success
      (if enabled then "recovery mode enabled; automatic rules are suspended"
        else "recovery mode disabled; automatic rules are active") none)
  | .verifyAudit => do
    let verified ← onJournal (Journal.verify env)
    pure (.success ("verified " ++ toString verified ++ " audit record(s)")
      (some (.verified verified)))

/-- An error becomes an error response; the effects up to it stay. -/
def handleControl (env : Environment) (situation : Situation) (request : Request) :
    Activity Response := fun session =>
  match handleControlResult env situation request session with
  | (.error (.failed message), session) => (.ok (.error message), session)
  | result => result

end Session

/-! ## The daemon process -/

/-- A daemon that runs, or one that is down and has left its journal. -/
structure Daemon extends Journal where
  runtime : Option Runtime

inductive DaemonOp where
  | start (situation : Situation) (maxRecords : ℕ) (verifyOnStart : Bool)
  | event (host : Host) (event : Event)
  | control (situation : Situation) (request : Request)
  | shutdown
  | kill

namespace Daemon

/-- The start-up of `main.rs` up to the loop of `Runtime::run`. -/
def boot (env : Environment) (situation : Situation) (maxRecords : ℕ) (verifyOnStart : Bool) :
    Fallible Journal Stop Runtime := do
  let config ← ofExcept (loadConfig situation)
  modify (fun journal =>
    { journal with store := { journal.store with maxRecords := maxRecords } })
  let _ ← (if verifyOnStart then Journal.verify env else pure 0)
  let handles ← Journal.startSensors situation "start sensors" config
  let runtime ← Runtime.new env config handles situation.now
  Journal.append env none "daemon_started" none
    (env.serde.object [("version", .text packageVersion), ("dry_run", .flag config.daemon.dryRun),
      ("recovery_mode", .flag runtime.engine.recoveryMode)])
  pure runtime

/-- A step of the event loop: an error is logged or answered, a crash ends the process. -/
def activate {α : Type} (x : Activity α) (runtime : Runtime) (daemon : Daemon) : Daemon :=
  match x { daemon.toJournal with runtime := runtime } with
  | (.error .crashed, session) => { session.toJournal with runtime := none }
  | (_, session) => { session.toJournal with runtime := some session.runtime }

/-- `none` marks a step that the state of the process rules out. -/
def step (env : Environment) (daemon : Daemon) : DaemonOp → Option Daemon
  | .start situation maxRecords verifyOnStart =>
    match daemon.runtime with
    | some _ => none
    | none =>
      match boot env situation maxRecords verifyOnStart daemon.toJournal with
      | (.ok runtime, journal) => some { journal with runtime := some runtime }
      | (.error _, journal) => some { journal with runtime := none }
  | .event host event =>
    daemon.runtime.map (fun runtime =>
      daemon.activate (Session.processEvent env host event) runtime)
  | .control situation request =>
    daemon.runtime.map (fun runtime =>
      daemon.activate (Session.handleControl env situation request) runtime)
  | .shutdown =>
    daemon.runtime.map (fun runtime =>
      { (Journal.append env none "daemon_stopped" none (env.serde.object [("graceful", .flag true)])
          { daemon.toJournal with aborted := daemon.aborted ++ runtime.sensorHandles }).2 with
        runtime := none })
  | .kill => some { daemon with runtime := none }

end Daemon

end Kovert
