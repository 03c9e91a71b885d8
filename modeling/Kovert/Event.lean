import Kovert.Config
import Mathlib.Data.Finset.Basic
import Mathlib.Logic.Function.Basic

/-!
# Events and the system snapshot

Normalized sensor events and the latest-known host state they are folded into,
from `kovert-core/src/event.rs`. A `BTreeSet` is a finite set and a `BTreeMap`
is a partial function; the mount set is keyed by path components, which is what
Rust's path ordering compares.
-/

namespace Kovert

abbrev Uuid := BitVec 128

/-- Normalized event payloads understood by the policy engine. -/
inductive EventKind where
  | tick
  | file (path : PathBuf) (operation : FileOperation)
  | wifi (connected : Bool) (ssid bssid : Option String)
  | network (online : Bool) (interface : Option String) (vpn : Bool)
  | usb (action : DeviceAction) (vendorId productId serial : Option String)
  | mount (action : DeviceAction) (path : PathBuf) (source : Option String)
  | process (name : String) (running : Bool) (pid : Option UInt32)
  | service (name : String) (active : Bool)
  | port (port : UInt16) (protocol : NetworkProtocol) (opened : Bool)
  | session (state : SessionState) (user : Option String) (remote : Bool)
  | power (onAc : Option Bool) (batteryPercent : Option UInt8) (lidClosed : Option Bool)
  | hotkey (name : String)
  | integrity (component : String) (valid : Bool) (detail : Option String)
  | manual (name : String)
  | sensorFailure (sensor message : String)
  deriving DecidableEq, Repr

structure Event where
  id : Uuid
  timestamp : Timestamp
  source : String
  kind : EventKind
  deriving DecidableEq, Repr

/-- Latest known host state used by policy conditions. -/
structure SystemSnapshot where
  now : Timestamp
  wifiConnected : Bool
  wifiSsid : Option String
  wifiBssid : Option String
  networkOnline : Bool
  activeInterface : Option String
  vpnActive : Bool
  mounts : Finset (List Component)
  processes : Finset String
  services : String → Option Bool
  ports : Finset (NetworkProtocol × UInt16)
  sessionState : Option SessionState
  sessionUser : Option String
  sessionRemote : Bool
  onAc : Option Bool
  batteryPercent : Option UInt8
  lidClosed : Option Bool
  mode : String
  sensorHealth : String → Option Bool

namespace SystemSnapshot

/-- `SystemSnapshot::default` at the wall-clock instant `now`. -/
def default (now : Timestamp) : SystemSnapshot where
  now := now
  wifiConnected := false
  wifiSsid := none
  wifiBssid := none
  networkOnline := false
  activeInterface := none
  vpnActive := false
  mounts := ∅
  processes := ∅
  services := fun _ => none
  ports := ∅
  sessionState := none
  sessionUser := none
  sessionRemote := false
  onAc := none
  batteryPercent := none
  lidClosed := none
  mode := "normal"
  sensorHealth := fun _ => none

/-- The per-kind update of `SystemSnapshot::apply`, after the clock and the
health of the reporting source have been recorded. -/
def applyKind (s : SystemSnapshot) : EventKind → SystemSnapshot
  | .wifi connected ssid bssid =>
    { s with wifiConnected := connected, wifiSsid := ssid, wifiBssid := bssid }
  | .network online interface vpn =>
    { s with networkOnline := online, activeInterface := interface, vpnActive := vpn }
  | .mount .added path _ | .mount .changed path _ =>
    { s with mounts := insert path.components s.mounts }
  | .mount .removed path _ => { s with mounts := s.mounts.erase path.components }
  | .process name running _ =>
    if running then { s with processes := insert name s.processes }
    else { s with processes := s.processes.erase name }
  | .service name active => { s with services := Function.update s.services name (some active) }
  | .port port protocol opened =>
    if opened then { s with ports := insert (protocol, port) s.ports }
    else { s with ports := s.ports.erase (protocol, port) }
  | .session state user remote =>
    { s with sessionState := some state, sessionUser := user, sessionRemote := remote }
  | .power onAc batteryPercent lidClosed =>
    { s with onAc := onAc, batteryPercent := batteryPercent, lidClosed := lidClosed }
  | .integrity component valid _ =>
    { s with sensorHealth := Function.update s.sensorHealth component (some valid) }
  | .sensorFailure sensor _ =>
    { s with sensorHealth := Function.update s.sensorHealth sensor (some false) }
  | .tick | .file .. | .usb .. | .hotkey .. | .manual .. => s

/-- Apply a normalized event to the latest-known state. -/
def apply (s : SystemSnapshot) (event : Event) : SystemSnapshot :=
  applyKind { s with
    now := event.timestamp
    sensorHealth := Function.update s.sensorHealth event.source (some true) } event.kind

end SystemSnapshot
end Kovert
