import Kovert.Event
import Kovert.Requirements
import Mathlib.Data.Finset.Sort
import Mathlib.Data.Prod.Lex
import Mathlib.Data.String.Basic
import Mathlib.Order.WithBot

/-!
# The polling sensors

`poll_cycle` of `kovert-sensors/src/polling.rs`. The nine sensors that go
through `probe_value` are an enumeration: each has its own type of probed
values, its own baseline in `PollState` and its own rule for which changes to
report, and the cycle takes them in the order of the source. What the host
answers to the probes of one cycle is a parameter. `Event::new` draws a fresh
id and reads the clock, so a cycle returns emissions, which are events without
these two.
-/

namespace Kovert

structure WifiState where
  connected : Bool
  ssid : Option String
  bssid : Option String
  deriving DecidableEq, Repr

structure NetworkState where
  online : Bool
  interface : Option String
  vpn : Bool
  deriving DecidableEq, Repr

structure UsbDevice where
  vendorId : Option String
  productId : Option String
  serial : Option String
  deriving DecidableEq, Repr

structure SessionInfo where
  state : SessionState
  user : Option String
  remote : Bool
  deriving DecidableEq, Repr

structure PowerState where
  onAc : Option Bool
  batteryPercent : Option UInt8
  lidClosed : Option Bool
  deriving DecidableEq, Repr

/-- A `BTreeMap` from paths to sources, in iteration order. -/
abbrev MountMap := List (PathBuf × Option String)

/-- A `BTreeMap` from names to flags, in iteration order. -/
abbrev FlagMap := List (String × Bool)

abbrev PortSet := Finset (NetworkProtocol × UInt16)

def MountMap.containsKey (mounts : MountMap) (path : PathBuf) : Bool :=
  mounts.any (fun entry => entry.1.pathEq path)

/-! ## Iteration order of the sets -/

/-- The derived order of `UsbDevice`: field by field, `None` first. -/
def UsbDevice.key (device : UsbDevice) : WithBot String ×ₗ WithBot String ×ₗ WithBot String :=
  toLex (device.vendorId, toLex (device.productId, device.serial))

theorem UsbDevice.key_injective : Function.Injective UsbDevice.key := by
  intro left right h
  cases left
  cases right
  cases h
  rfl

/-- The derived order of a protocol and a port: TCP before UDP, then by number. -/
def portKey (port : NetworkProtocol × UInt16) : ℕ ×ₗ ℕ :=
  toLex (match port.1 with | .tcp => 0 | .udp => 1, port.2.toNat)

theorem portKey_injective : Function.Injective portKey := by
  rintro ⟨left, leftPort⟩ ⟨right, rightPort⟩ h
  obtain ⟨hprotocol, hport⟩ := Prod.mk.inj h
  have hsame : left = right := by cases left <;> cases right <;> first | rfl | cases hprotocol
  have hnumber : leftPort = rightPort := UInt16.toNat_inj.mp hport
  rw [hsame, hnumber]

/-- The elements of a `BTreeSet` in the order of the key. -/
def inKeyOrder {α κ : Type*} [LinearOrder κ] (key : α → κ) (h : Function.Injective key)
    (set : Finset α) : List α :=
  letI := LinearOrder.lift' key h
  set.sort

@[simp] theorem mem_inKeyOrder {α κ : Type*} [LinearOrder κ] {key : α → κ}
    {h : Function.Injective key} {set : Finset α} {a : α} : a ∈ inKeyOrder key h set ↔ a ∈ set :=
  letI := LinearOrder.lift' key h
  Finset.mem_sort _

def usbOrder (devices : Finset UsbDevice) : List UsbDevice :=
  inKeyOrder UsbDevice.key UsbDevice.key_injective devices

def portOrder (ports : PortSet) : List (NetworkProtocol × UInt16) :=
  inKeyOrder portKey portKey_injective ports

/-! ## The sensors of `probe_value` -/

inductive Sensor where
  | wifi | network | usb | mounts | processes | services | ports | sessions | power
  deriving DecidableEq, Repr

namespace Sensor

/-- In the order in which the cycle probes them. -/
def all : List Sensor :=
  [.wifi, .network, .usb, .mounts, .processes, .services, .ports, .sessions, .power]

def name : Sensor → String
  | .wifi => "wifi"
  | .network => "network"
  | .usb => "usb"
  | .mounts => "mounts"
  | .processes => "processes"
  | .services => "services"
  | .ports => "ports"
  | .sessions => "sessions"
  | .power => "power"

/-- The guard in front of the probe. -/
def required (requirements : SensorRequirements) : Sensor → Bool
  | .wifi => requirements.wifi
  | .network => requirements.network
  | .usb => requirements.usb
  | .mounts => requirements.mounts
  | .processes => requirements.processes ≠ ∅
  | .services => requirements.services ≠ ∅
  | .ports => requirements.ports ≠ ∅
  | .sessions => requirements.sessions
  | .power => requirements.power

/-- What a successful probe returns. -/
abbrev Value : Sensor → Type
  | .wifi => WifiState
  | .network => NetworkState
  | .usb => Finset UsbDevice
  | .mounts => MountMap
  | .processes => FlagMap
  | .services => FlagMap
  | .ports => PortSet
  | .sessions => SessionInfo
  | .power => PowerState

/-- What the poller keeps of the last successful probe. -/
abbrev Baseline : Sensor → Type
  | .wifi => Option WifiState
  | .network => Option NetworkState
  | .usb => Finset UsbDevice
  | .mounts => MountMap
  | .processes => FlagMap
  | .services => FlagMap
  | .ports => PortSet
  | .sessions => Option SessionInfo
  | .power => Option PowerState

end Sensor

/-- What the host answers in one cycle. For processes and services it says
which names are up, for ports which ones listen; the two files are read by the
integrity check. -/
structure Probes where
  wifi : Except String WifiState
  network : Except String NetworkState
  usb : Except String (Finset UsbDevice)
  mounts : Except String MountMap
  processes : Except String (String → Bool)
  services : Except String (String → Bool)
  ports : Except String PortSet
  sessions : Except String SessionInfo
  power : Except String PowerState
  configuration : Except String (List UInt8)
  binary : Except String (List UInt8)

/-- The map that `probe_processes` and `probe_services` build has the required names as keys. -/
def flagMap (names : Finset String) (up : String → Bool) : FlagMap :=
  names.sort.map (fun name => (name, up name))

/-- The names of a `BTreeSet` in their order. -/
def nameOrder (names : Finset String) : List String := names.sort

/-- `probe_ports` keeps the required ones of the ports that listen. -/
def openPorts (required listening : PortSet) : PortSet := required.filter (· ∈ listening)

def Probes.result (probes : Probes) (requirements : SensorRequirements) :
    (sensor : Sensor) → Except String sensor.Value
  | .wifi => probes.wifi
  | .network => probes.network
  | .usb => probes.usb
  | .mounts => probes.mounts
  | .processes => probes.processes.map (flagMap requirements.processes)
  | .services => probes.services.map (flagMap requirements.services)
  | .ports => probes.ports.map (openPorts requirements.ports)
  | .sessions => probes.sessions
  | .power => probes.power

structure PollState where
  initialized : Bool
  wifi : Option WifiState
  network : Option NetworkState
  usb : Finset UsbDevice
  mounts : MountMap
  processes : FlagMap
  services : FlagMap
  ports : PortSet
  session : Option SessionInfo
  power : Option PowerState
  configHash : Option String
  binaryHash : Option String
  failed : Finset String

namespace PollState

def default : PollState where
  initialized := false
  wifi := none
  network := none
  usb := ∅
  mounts := []
  processes := []
  services := []
  ports := ∅
  session := none
  power := none
  configHash := none
  binaryHash := none
  failed := ∅

def baseline (state : PollState) : (sensor : Sensor) → sensor.Baseline
  | .wifi => state.wifi
  | .network => state.network
  | .usb => state.usb
  | .mounts => state.mounts
  | .processes => state.processes
  | .services => state.services
  | .ports => state.ports
  | .sessions => state.session
  | .power => state.power

/-- The assignment that ends the block of a sensor. -/
def store (state : PollState) : (sensor : Sensor) → sensor.Value → PollState
  | .wifi, value => { state with wifi := some value }
  | .network, value => { state with network := some value }
  | .usb, value => { state with usb := value }
  | .mounts, value => { state with mounts := value }
  | .processes, value => { state with processes := value }
  | .services, value => { state with services := value }
  | .ports, value => { state with ports := value }
  | .sessions, value => { state with session := some value }
  | .power, value => { state with power := some value }

end PollState

/-! ## Events of a cycle -/

/-- An event without the id and the time that `Event::new` adds. -/
structure Emission where
  source : String
  kind : EventKind
  deriving DecidableEq, Repr

def Event.emission (event : Event) : Emission := ⟨event.source, event.kind⟩

def usbEvent (action : DeviceAction) (device : UsbDevice) : EventKind :=
  .usb action device.vendorId device.productId device.serial

def mountEvent (action : DeviceAction) (entry : PathBuf × Option String) : EventKind :=
  .mount action entry.1 entry.2

def portEvent (value : PortSet) (port : NetworkProtocol × UInt16) : EventKind :=
  .port port.2 port.1 (port ∈ value)

/-- A login is reported on the first cycle and after a logout. -/
def loginEvent (first : Bool) (previous : Option SessionInfo) (value : SessionInfo) :
    List EventKind :=
  if value.state ≠ .loggedOut ∧
      (first = true ∨ previous.any (fun previous => previous.state == .loggedOut) = true) then
    [.session .loggedIn value.user value.remote]
  else []

/-- The kinds of the events that a successful probe of the sensor gives. -/
def Sensor.report (requirements : SensorRequirements) (first : Bool) :
    (sensor : Sensor) → sensor.Baseline → sensor.Value → List EventKind
  | .wifi, previous, value =>
    if first = true ∨ previous ≠ some value then
      [.wifi value.connected value.ssid value.bssid]
    else []
  | .network, previous, value =>
    if first = true ∨ previous ≠ some value then
      [.network value.online value.interface value.vpn]
    else []
  | .usb, previous, value =>
    if first then (usbOrder value).map (usbEvent .added)
    else (usbOrder (value \ previous)).map (usbEvent .added)
      ++ (usbOrder (previous \ value)).map (usbEvent .removed)
  | .mounts, previous, value =>
    if first then value.map (mountEvent .added)
    else (value.filter (fun entry => !previous.containsKey entry.1)).map (mountEvent .added)
      ++ (previous.filter (fun entry => !value.containsKey entry.1)).map (mountEvent .removed)
  | .processes, previous, value =>
    (value.filter (fun entry => first || previous.lookup entry.1 != some entry.2)).map
      (fun entry => .process entry.1 entry.2 none)
  | .services, previous, value =>
    (value.filter (fun entry => first || previous.lookup entry.1 != some entry.2)).map
      (fun entry => .service entry.1 entry.2)
  | .ports, previous, value =>
    if first then (portOrder requirements.ports).map (portEvent value)
    else (portOrder (symmDiff value previous)).map (portEvent value)
  | .sessions, previous, value =>
    if first = true ∨ previous ≠ some value then
      loginEvent first previous value ++ [.session value.state value.user value.remote]
    else []
  | .power, previous, value =>
    if first = true ∨ previous ≠ some value then
      [.power value.onAc value.batteryPercent value.lidClosed]
    else []

/-- `probe_value`: a failure is an event only when the sensor had not failed before. -/
def probeValue {α : Type} (sensor : String) (result : Except String α) (state : PollState) :
    Option α × PollState × List Emission :=
  match result with
  | .ok value => (some value, { state with failed := state.failed.erase sensor }, [])
  | .error message =>
    if sensor ∈ state.failed then (none, state, [])
    else (none, { state with failed := insert sensor state.failed },
      [⟨sensor, .sensorFailure sensor message⟩])

/-- A poller: what it was started with, and the hash that the integrity check uses. -/
structure Poller where
  requirements : SensorRequirements
  configPath : PathBuf
  executable : PathBuf
  blake3 : List UInt8 → String

namespace Poller

/-- The block of one sensor in `poll_cycle`. -/
def pollSensor (poller : Poller) (probes : Probes) (first : Bool)
    (progress : PollState × List Emission) (sensor : Sensor) : PollState × List Emission :=
  if sensor.required poller.requirements then
    match probeValue sensor.name (probes.result poller.requirements sensor) progress.1 with
    | (none, state, events) => (state, progress.2 ++ events)
    | (some value, state, events) =>
      (state.store sensor value,
        progress.2 ++ events ++
          (sensor.report poller.requirements first (state.baseline sensor) value).map
            (Emission.mk sensor.name))
  else progress

/-- `check_integrity`: the new hash of the component, and the events. -/
def checkIntegrity (poller : Poller) (component : String) (path : PathBuf) (slot : Option String)
    (contents : Except String (List UInt8)) : Option String × List Emission :=
  match contents with
  | .ok bytes =>
    (some (poller.blake3 bytes),
      if slot.any (fun previous => previous != poller.blake3 bytes) then
        [⟨"integrity", .integrity component false (some (path.text ++ " changed on disk"))⟩]
      else [])
  | .error message =>
    (slot, [⟨"integrity", .sensorFailure "integrity" ("read " ++ path.text ++ ": " ++ message)⟩])

def probeIntegrity (poller : Poller) (probes : Probes) (state : PollState) :
    PollState × List Emission :=
  let configuration := poller.checkIntegrity "configuration" poller.configPath state.configHash
    probes.configuration
  let binary := poller.checkIntegrity "binary" poller.executable state.binaryHash probes.binary
  ({ state with configHash := configuration.1, binaryHash := binary.1 },
    configuration.2 ++ binary.2)

def pollSensors (poller : Poller) (probes : Probes) (state : PollState) :
    PollState × List Emission :=
  Sensor.all.foldl (poller.pollSensor probes (!state.initialized)) (state, [])

def pollCycle (poller : Poller) (probes : Probes) (state : PollState) :
    PollState × List Emission :=
  let sensors := poller.pollSensors probes state
  let integrity :=
    if poller.requirements.integrity then poller.probeIntegrity probes sensors.1
    else (sensors.1, [])
  ({ integrity.1 with initialized := true }, sensors.2 ++ integrity.2)

end Poller
end Kovert
