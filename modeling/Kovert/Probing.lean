import Kovert.Polling
import Kovert.Validation

/-!
# The probes that list a directory

`probe_network`, `probe_usb` and `probe_power` of `kovert-sensors/src/polling.rs`
over what the host lists: the entries of a directory in the order in which
`read_dir` gives them, each with the contents of the files that are read in it.
-/

namespace Kovert

/-- The contents of a file, if it can be read. -/
abbrev Contents := Option String

/-- What `read_dir` gives: an error, or the entries, each of which may be one. -/
abbrev Directory (α : Type) := Except String (List (Except String α))

/-- `for entry in fs::read_dir(..).context(..)? { let entry = entry?; .. }`. -/
def scanDirectory {α σ : Type} (directory : Directory α) (context : String) (body : σ → α → σ)
    (start : σ) : Except String σ := do
  let entries ← directory.mapError (fun _ => context)
  entries.foldlM (fun state entry => entry.map (body state)) start

/-- `str::trim`. -/
def trimmed (text : String) : String := String.ofList (trim text.toList)

def readTrimmed (contents : Contents) : Option String :=
  (contents.map trimmed).filter (fun value => !value.isEmpty)

/-- `str::parse::<u8>`: decimal digits after an optional plus sign. -/
def parseU8 (text : String) : Option UInt8 :=
  let digits := match text.toList with
    | '+' :: digits => digits
    | digits => digits
  if digits.isEmpty || !digits.all Char.isDigit then none else
  let value := digits.foldl (fun value ch => 10 * value + (ch.toNat - '0'.toNat)) 0
  if value < 256 then some (UInt8.ofNat value) else none

/-! ## Network interfaces -/

/-- An entry of `/sys/class/net`. -/
structure NetworkEntry where
  name : String
  operstate : Contents
  deriving DecidableEq, Repr

namespace NetworkEntry

/-- An interface that counts: not the loopback, and up. -/
def isUp (entry : NetworkEntry) : Bool :=
  entry.name != "lo" && trimmed (entry.operstate.getD "") == "up"

def isVpn (entry : NetworkEntry) : Bool :=
  ["tun", "tap", "wg", "vpn"].any (fun start => start.toList.isPrefixOf entry.name.toList)

end NetworkEntry

namespace NetworkState

def start : NetworkState := ⟨false, none, false⟩

/-- The loop body of `probe_network`. -/
def scan (state : NetworkState) (entry : NetworkEntry) : NetworkState :=
  if entry.isUp then
    { online := true
      interface := if state.interface.isNone then some entry.name else state.interface
      vpn := if entry.isVpn then true else state.vpn }
  else state

end NetworkState

def probeNetwork (directory : Directory NetworkEntry) : Except String NetworkState :=
  scanDirectory directory "read network interfaces" NetworkState.scan NetworkState.start

/-! ## USB devices -/

/-- An entry of `/sys/bus/usb/devices`. -/
structure UsbEntry where
  idVendor : Contents
  idProduct : Contents
  serial : Contents
  deriving DecidableEq, Repr

namespace UsbEntry

def device (entry : UsbEntry) : UsbDevice where
  vendorId := readTrimmed entry.idVendor
  productId := readTrimmed entry.idProduct
  serial := readTrimmed entry.serial

/-- Entries without both ids, such as interfaces, are passed over. -/
def isDevice (entry : UsbEntry) : Bool :=
  !(entry.device.vendorId.isNone && entry.device.productId.isNone)

/-- The loop body of `probe_usb`. -/
def scan (devices : Finset UsbDevice) (entry : UsbEntry) : Finset UsbDevice :=
  if entry.isDevice then insert entry.device devices else devices

end UsbEntry

def probeUsb (directory : Directory UsbEntry) : Except String (Finset UsbDevice) :=
  scanDirectory directory "read USB devices" UsbEntry.scan ∅

/-! ## Power supplies -/

/-- An entry of `/sys/class/power_supply`. -/
structure PowerSupply where
  kind : Contents
  online : Contents
  capacity : Contents
  deriving DecidableEq, Repr

namespace PowerSupply

def isMains (supply : PowerSupply) : Bool :=
  ["Mains", "USB", "USB_C"].contains ((readTrimmed supply.kind).getD "")

def isBattery (supply : PowerSupply) : Bool := (readTrimmed supply.kind).getD "" == "Battery"

def supplyOnline (supply : PowerSupply) : Option Bool :=
  ((readTrimmed supply.online).bind parseU8).map (fun value => value == 1)

def percent (supply : PowerSupply) : Option UInt8 := (readTrimmed supply.capacity).bind parseU8

/-- The loop body of `probe_power`, over `on_ac` and `battery_percent`. -/
def scan (state : Option Bool × Option UInt8) (supply : PowerSupply) :
    Option Bool × Option UInt8 :=
  if supply.isMains then
    match supply.supplyOnline with
    | some online => (some (state.1.getD false || online), state.2)
    | none => state
  else if supply.isBattery && state.2.isNone then (state.1, supply.percent)
  else state

end PowerSupply

/-- The lid state, from the first entry of `/proc/acpi/button/lid`. -/
def probeLid (directory : Directory Contents) : Option Bool :=
  let first := directory.toOption.bind List.head?
  let contents := first.bind Except.toOption
  (contents.bind readTrimmed).map (fun value =>
    decide ("closed".toList <:+: value.toList.map Char.toLower))

/-- `none` for the supplies when `/sys/class/power_supply` does not exist. -/
def probePower (supplies : Option (Directory PowerSupply)) (lid : Directory Contents) :
    Except String PowerState := do
  let (onAc, batteryPercent) ← match supplies with
    | some directory => scanDirectory directory "read power supplies" PowerSupply.scan (none, none)
    | none => pure (none, none)
  pure ⟨onAc, batteryPercent, probeLid lid⟩

/-- A listing without errors is scanned as a list. -/
theorem scanDirectory_ok {α σ : Type} (entries : List α) (context : String) (body : σ → α → σ)
    (start : σ) :
    scanDirectory (.ok (entries.map .ok)) context body start = .ok (entries.foldl body start) := by
  change (entries.map Except.ok).foldlM _ start = _
  induction entries generalizing start with
  | nil => rfl
  | cons entry entries ih =>
      rw [List.map_cons, List.foldlM_cons, List.foldl_cons, ← ih]
      rfl

end Kovert
