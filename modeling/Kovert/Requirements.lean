import Kovert.Matching
import Mathlib.Data.Finset.Basic

/-!
# Sensor requirements

`SensorRequirements` of `kovert-sensors/src/requirements.rs`: the providers
that the rules of a configuration ask for, collected from triggers and from
conditions. A `BTreeMap` of watches is a list in which inserting an equal path
replaces the flag.
-/

namespace Kovert

/-- Minimal sensor surface derived from configured rules. -/
structure SensorRequirements where
  fileWatches : List (PathBuf × Bool)
  wifi : Bool
  network : Bool
  usb : Bool
  mounts : Bool
  processes : Finset String
  services : Finset String
  ports : Finset (NetworkProtocol × UInt16)
  sessions : Bool
  power : Bool
  integrity : Bool

/-- `BTreeMap::insert`: the value of an equal path is replaced. -/
def insertWatch : List (PathBuf × Bool) → PathBuf → Bool → List (PathBuf × Bool)
  | [], path, recursive => [(path, recursive)]
  | watch :: watches, path, recursive =>
    if watch.1.pathEq path then (watch.1, recursive) :: watches
    else watch :: insertWatch watches path recursive

namespace SensorRequirements

def default : SensorRequirements where
  fileWatches := []
  wifi := false
  network := false
  usb := false
  mounts := false
  processes := ∅
  services := ∅
  ports := ∅
  sessions := false
  power := false
  integrity := false

mutual

def collectTrigger : TriggerSpec → SensorRequirements → SensorRequirements
  | .file path _ recursive, value =>
    { value with fileWatches := insertWatch value.fileWatches path recursive }
  | .wifiChanged .., value => { value with wifi := true }
  | .networkChanged .., value => { value with network := true }
  | .usb .., value => { value with usb := true }
  | .mount .., value => { value with mounts := true }
  | .process name _, value =>
    match name with
    | some name => { value with processes := insert name value.processes }
    | none => value
  | .service name _, value =>
    match name with
    | some name => { value with services := insert name value.services }
    | none => value
  | .port port _ protocol, value =>
    match port, protocol with
    | some port, some protocol => { value with ports := insert (protocol, port) value.ports }
    | some port, none =>
      { value with
        ports := insert (NetworkProtocol.udp, port) (insert (NetworkProtocol.tcp, port) value.ports) }
    | none, _ => value
  | .session .., value => { value with sessions := true }
  | .power .., value => { value with power := true }
  | .all triggers, value => collectTriggers triggers value
  | .any triggers, value => collectTriggers triggers value
  | .sequence steps _, value => collectTriggers steps value
  | .not trigger, value => collectTrigger trigger value
  | .integrityFailure _, value => { value with integrity := true }
  | .tick, value | .hotkey _, value | .manual _, value | .sensorFailure _, value => value

def collectTriggers : List TriggerSpec → SensorRequirements → SensorRequirements
  | [], value => value
  | item :: items, value => collectTriggers items (collectTrigger item value)

end

/-- The `SensorHealthy` arm of `collect_condition`. -/
def collectHealth (sensor : String) (value : SensorRequirements) : SensorRequirements :=
  if sensor = "wifi" then { value with wifi := true }
  else if sensor = "network" then { value with network := true }
  else if sensor = "usb" then { value with usb := true }
  else if sensor = "mounts" then { value with mounts := true }
  else if sensor = "sessions" then { value with sessions := true }
  else if sensor = "power" then { value with power := true }
  else if sensor = "integrity" ∨ sensor = "configuration" ∨ sensor = "binary" then
    { value with integrity := true }
  else value

mutual

def collectCondition : ConditionSpec → SensorRequirements → SensorRequirements
  | .wifi .., value => { value with wifi := true }
  | .network .., value => { value with network := true }
  | .mounted .., value => { value with mounts := true }
  | .process name _, value => { value with processes := insert name value.processes }
  | .service name _, value => { value with services := insert name value.services }
  | .port port _ protocol, value => { value with ports := insert (protocol, port) value.ports }
  | .session .., value => { value with sessions := true }
  | .power .., value => { value with power := true }
  | .all conditions, value => collectConditions conditions value
  | .any conditions, value => collectConditions conditions value
  | .not condition, value => collectCondition condition value
  | .sensorHealthy sensor _, value => collectHealth sensor value
  | .timeWindow .., value | .mode _, value | .pathExists .., value => value

def collectConditions : List ConditionSpec → SensorRequirements → SensorRequirements
  | [], value => value
  | item :: items, value => collectConditions items (collectCondition item value)

end

def collectRule (value : SensorRequirements) (rule : Rule) : SensorRequirements :=
  let value := collectTrigger rule.trigger value
  match rule.when with
  | some condition => collectCondition condition value
  | none => value

def fromConfig (config : Config) : SensorRequirements := config.rules.foldl collectRule default

/-- The names under which the providers that the requirements start report
their events and failures: the file watcher and the probes of `poll_cycle`. -/
def sensors (value : SensorRequirements) : List String :=
  (if value.fileWatches.isEmpty then [] else ["filesystem"])
    ++ (if value.wifi then ["wifi"] else [])
    ++ (if value.network then ["network"] else [])
    ++ (if value.usb then ["usb"] else [])
    ++ (if value.mounts then ["mounts"] else [])
    ++ (if value.processes = ∅ then [] else ["processes"])
    ++ (if value.services = ∅ then [] else ["services"])
    ++ (if value.ports = ∅ then [] else ["ports"])
    ++ (if value.sessions then ["sessions"] else [])
    ++ (if value.power then ["power"] else [])
    ++ (if value.integrity then ["integrity"] else [])

end SensorRequirements

/-- The sensors a rule depends on: those its trigger uses, and those that
`collect_condition` enables for its condition. -/
def Rule.DependsOn (rule : Rule) (sensor : String) : Prop :=
  triggerUsesSensor rule.trigger sensor = true ∨
    ∃ condition, rule.when = some condition ∧
      sensor ∈ (SensorRequirements.collectCondition condition .default).sensors

end Kovert
