import Mathlib.Data.Int.Notation
import Mathlib.Data.Nat.Notation

/-!
# Configuration data model

The policy language of `kovert-core/src/config.rs`: rules, triggers,
conditions and actions, together with the parts of the configuration that
validation and execution read. Durations are nanoseconds and timestamps are
nanoseconds since the Unix epoch. Paths are Unix paths with Rust's
component-wise reading.
-/

namespace Kovert

abbrev Duration := ℕ
abbrev Timestamp := ℤ

structure PathBuf where
  text : String
  deriving DecidableEq, Repr

inductive Component where
  | rootDir
  | curDir
  | parentDir
  | normal (name : List Char)
  deriving DecidableEq, Repr

namespace PathBuf

/-- One slash-separated piece after the start of the path: empty pieces and `.` vanish. -/
def pieceComponent : List Char → Option Component
  | [] => none
  | ['.'] => none
  | ['.', '.'] => some .parentDir
  | name => some (.normal name)

/-- `Path::components` on Unix. A leading `.` of a relative path is kept. -/
def components (path : PathBuf) : List Component :=
  match path.text.toList.splitOn '/' with
  | [] :: rest =>
    if path.text.isEmpty then [] else .rootDir :: rest.filterMap pieceComponent
  | ['.'] :: rest => .curDir :: rest.filterMap pieceComponent
  | pieces => pieces.filterMap pieceComponent

def isAbsolute (path : PathBuf) : Bool := path.text.toList.head? == some '/'

/-- Path equality is equality of components. -/
def pathEq (left right : PathBuf) : Bool := left.components == right.components

def startsWith (path base : PathBuf) : Bool := base.components.isPrefixOf path.components

end PathBuf

inductive FileOperation where
  | create | modify | rename | delete | access | metadata | other
  deriving DecidableEq, Repr

inductive DeviceAction where
  | added | removed | changed
  deriving DecidableEq, Repr

inductive NetworkProtocol where
  | tcp | udp
  deriving DecidableEq, Repr

inductive SessionState where
  | loggedIn | loggedOut | locked | unlocked
  deriving DecidableEq, Repr

inductive Weekday where
  | mon | tue | wed | thu | fri | sat | sun
  deriving DecidableEq, Repr

inductive SensorFailurePolicy where
  | alert | ignore | failClosed
  deriving DecidableEq, Repr

/-- Event matcher. -/
inductive TriggerSpec where
  | tick
  | file (path : PathBuf) (operations : List FileOperation) (recursive : Bool)
  | wifiChanged (ssid bssid : Option String) (connected : Option Bool)
  | networkChanged (interface : Option String) (online vpn : Option Bool)
  | usb (action : Option DeviceAction) (vendorId productId serial : Option String)
  | mount (action : Option DeviceAction) (path : Option PathBuf)
  | process (name : Option String) (running : Option Bool)
  | service (name : Option String) (active : Option Bool)
  | port (port : Option UInt16) (opened : Option Bool) (protocol : Option NetworkProtocol)
  | session (state : Option SessionState) (user : Option String) (remote : Option Bool)
  | power (onAc : Option Bool) (batteryBelow : Option UInt8) (lidClosed : Option Bool)
  | hotkey (name : String)
  | integrityFailure (component : Option String)
  | manual (name : String)
  | sensorFailure (sensor : Option String)
  | all (triggers : List TriggerSpec)
  | any (triggers : List TriggerSpec)
  | not (trigger : TriggerSpec)
  | sequence (steps : List TriggerSpec) (within : Duration)

/-- Persistent-state predicate evaluated after an event is received. -/
inductive ConditionSpec where
  | all (conditions : List ConditionSpec)
  | any (conditions : List ConditionSpec)
  | not (condition : ConditionSpec)
  | timeWindow (start finish : String) (outside : Bool) (weekdays : List Weekday)
  | wifi (ssid bssid : Option String) (connected : Option Bool)
  | network (online : Option Bool) (interface : Option String) (vpn : Option Bool)
  | mode (name : String)
  | pathExists (path : PathBuf) (expected : Bool)
  | mounted (path : PathBuf) (expected : Bool)
  | process (name : String) (running : Bool)
  | service (name : String) (active : Bool)
  | port (port : UInt16) (opened : Bool) (protocol : NetworkProtocol)
  | session (state : Option SessionState) (user : Option String) (remote : Option Bool)
  | power (onAc : Option Bool) (batteryBelow : Option UInt8) (lidClosed : Option Bool)
  | sensorHealthy (sensor : String) (healthy : Bool)

inductive ServiceAction where
  | start | stop | restart
  deriving DecidableEq, Repr

inductive ProcessSignal where
  | term | kill | hup | int
  deriving DecidableEq, Repr

inductive NotificationUrgency where
  | low | normal | critical
  deriving DecidableEq, Repr

/-- Typed defensive operation. -/
inductive ActionSpec where
  | lockVault (vault : String)
  | unlockVault (vault : String)
  | unmount (path : PathBuf)
  | networkIsolation (enabled : Bool)
  | interfaceState (interface : String) (up : Bool)
  | service (name : String) (state : ServiceAction)
  | terminateProcess (process : String) (signal : ProcessSignal)
  | notify (title message : String) (urgency : NotificationUrgency)
  | captureEvidence (paths : List PathBuf) (destination : PathBuf)
  | setMode (mode : String)
  | exec (executable : PathBuf) (args : List String) (expectedSha256 : Option String)
      (environment : List (String × String))
  deriving DecidableEq, Repr

/-- Key used to resolve mutually exclusive actions in one evaluation cycle. -/
def ActionSpec.conflictKey : ActionSpec → Option String
  | .lockVault vault | .unlockVault vault => some ("vault:" ++ vault)
  | .networkIsolation _ => some "network:isolation"
  | .interfaceState interface _ => some ("interface:" ++ interface)
  | .service name _ => some ("service:" ++ name)
  | .setMode _ => some "mode"
  | .unmount path => some ("mount:" ++ path.text)
  | .terminateProcess process _ => some ("process:" ++ process)
  | .notify .. | .captureEvidence .. | .exec .. => none

structure Rule where
  id : String
  enabled : Bool
  priority : ℤ
  cooldown : Duration
  sustainFor : Duration
  oncePerBoot : Bool
  onSensorFailure : SensorFailurePolicy
  trigger : TriggerSpec
  when : Option ConditionSpec
  actions : List ActionSpec

structure ModeConfig where
  name : String
  initial : Bool
  deriving DecidableEq, Repr

inductive VaultAdapter where
  | fscrypt | gocryptfs
  deriving DecidableEq, Repr

structure VaultConfig where
  name : String
  adapter : VaultAdapter
  path : PathBuf
  encryptedPath : Option PathBuf
  mountPath : Option PathBuf
  keyringDescription : Option String
  deriving DecidableEq, Repr

structure HotkeyConfig where
  name : String
  device : PathBuf
  sequence : List String
  within : Duration
  deriving DecidableEq, Repr

structure DaemonConfig where
  socketPath : PathBuf
  statePath : PathBuf
  dryRun : Bool
  pollInterval : Duration
  commandTimeout : Duration
  eventBuffer : ℕ
  allowedExecutables : List PathBuf
  managedProcesses : List String
  desktopNotifications : Bool
  deriving DecidableEq, Repr

structure Config where
  version : ℕ
  daemon : DaemonConfig
  modes : List ModeConfig
  vaults : List VaultConfig
  hotkeys : List HotkeyConfig
  rules : List Rule

end Kovert
