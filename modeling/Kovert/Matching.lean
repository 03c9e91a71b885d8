import Kovert.Event

/-!
# Trigger and condition matching

`trigger_matches`, `condition_matches` and `trigger_uses_sensor` from
`kovert-core/src/engine.rs`. The source recurses through `Vec` iterators; here
each traversal of a list of subterms is a second function of the same
recursion, and the `_eq` lemmas identify it with `List.all` or `List.any`.
-/

namespace Kovert

/-- What a condition reads from outside the snapshot during one `handle` call:
`chrono` parsing of `%H:%M` as nanoseconds after midnight, the local time of
day and weekday of an instant, and the file system. -/
structure Host where
  parseTime : String → Option ℕ
  localTime : Timestamp → ℕ × Weekday
  pathExists : PathBuf → Bool

/-- `str::eq_ignore_ascii_case`. -/
def eqIgnoreAsciiCase (left right : String) : Bool :=
  left.toList.map Char.toLower == right.toList.map Char.toLower

def eqOptional (expected actual : Option String) : Bool :=
  expected.all (fun value => actual == some value)

def eqOptionalCi (expected actual : Option String) : Bool :=
  expected.all (fun value => actual.any (fun candidate => eqIgnoreAsciiCase candidate value))

def pathMatches (configured actual : PathBuf) (recursive : Bool) : Bool :=
  if recursive then actual.startsWith configured else actual.pathEq configured

mutual

def triggerMatches : TriggerSpec → Event → Bool
  | .tick, event => event.kind == .tick
  | .file path operations recursive, event =>
    match event.kind with
    | .file eventPath operation =>
      pathMatches path eventPath recursive
        && (operations.isEmpty || operations.contains operation)
    | _ => false
  | .wifiChanged ssid bssid connected, event =>
    match event.kind with
    | .wifi eventConnected eventSsid eventBssid =>
      connected.all (fun value => value == eventConnected)
        && ssid.all (fun value => eventSsid == some value)
        && bssid.all (fun value => eventBssid.any (fun actual => eqIgnoreAsciiCase actual value))
    | _ => false
  | .networkChanged interface online vpn, event =>
    match event.kind with
    | .network eventOnline eventInterface eventVpn =>
      online.all (fun value => value == eventOnline)
        && vpn.all (fun value => value == eventVpn)
        && interface.all (fun value => eventInterface == some value)
    | _ => false
  | .usb action vendorId productId serial, event =>
    match event.kind with
    | .usb eventAction eventVendor eventProduct eventSerial =>
      action.all (fun value => value == eventAction)
        && eqOptionalCi vendorId eventVendor
        && eqOptionalCi productId eventProduct
        && eqOptional serial eventSerial
    | _ => false
  | .mount action path, event =>
    match event.kind with
    | .mount eventAction eventPath _ =>
      action.all (fun value => value == eventAction)
        && path.all (fun value => value.pathEq eventPath)
    | _ => false
  | .process name running, event =>
    match event.kind with
    | .process eventName eventRunning _ =>
      running.all (fun value => value == eventRunning)
        && name.all (fun value => value == eventName)
    | _ => false
  | .service name active, event =>
    match event.kind with
    | .service eventName eventActive =>
      active.all (fun value => value == eventActive)
        && name.all (fun value => value == eventName)
    | _ => false
  | .port port opened protocol, event =>
    match event.kind with
    | .port eventPort eventProtocol eventOpened =>
      port.all (fun value => value == eventPort)
        && opened.all (fun value => value == eventOpened)
        && protocol.all (fun value => value == eventProtocol)
    | _ => false
  | .session state user remote, event =>
    match event.kind with
    | .session eventState eventUser eventRemote =>
      state.all (fun value => value == eventState)
        && remote.all (fun value => value == eventRemote)
        && user.all (fun value => eventUser == some value)
    | _ => false
  | .power onAc batteryBelow lidClosed, event =>
    match event.kind with
    | .power eventAc batteryPercent eventLid =>
      onAc.all (fun value => eventAc == some value)
        && lidClosed.all (fun value => eventLid == some value)
        && batteryBelow.all (fun limit => batteryPercent.any (fun actual => actual < limit))
    | _ => false
  | .hotkey name, event =>
    match event.kind with
    | .hotkey eventName => name == eventName
    | _ => false
  | .integrityFailure component, event =>
    match event.kind with
    | .integrity eventComponent valid _ =>
      !valid && component.all (fun value => value == eventComponent)
    | _ => false
  | .manual name, event =>
    match event.kind with
    | .manual eventName => name == eventName
    | _ => false
  | .sensorFailure sensor, event =>
    match event.kind with
    | .sensorFailure eventSensor _ => sensor.all (fun value => value == eventSensor)
    | _ => false
  | .all triggers, event => allTriggersMatch triggers event
  | .any triggers, event => anyTriggerMatches triggers event
  | .not trigger, event => !triggerMatches trigger event
  | .sequence _ _, _ => false

def allTriggersMatch : List TriggerSpec → Event → Bool
  | [], _ => true
  | item :: items, event => triggerMatches item event && allTriggersMatch items event

def anyTriggerMatches : List TriggerSpec → Event → Bool
  | [], _ => false
  | item :: items, event => triggerMatches item event || anyTriggerMatches items event

end

@[simp] theorem allTriggersMatch_eq (triggers : List TriggerSpec) (event : Event) :
    allTriggersMatch triggers event = triggers.all (fun item => triggerMatches item event) := by
  induction triggers with
  | nil => rfl
  | cons item items ih => simp only [allTriggersMatch, List.all_cons, ih]

@[simp] theorem anyTriggerMatches_eq (triggers : List TriggerSpec) (event : Event) :
    anyTriggerMatches triggers event = triggers.any (fun item => triggerMatches item event) := by
  induction triggers with
  | nil => rfl
  | cons item items ih => simp only [anyTriggerMatches, List.any_cons, ih]

/-- The `TimeWindow` arm of `condition_matches`. -/
def timeWindowMatches (host : Host) (snapshot : SystemSnapshot) (start finish : String)
    (outside : Bool) (weekdays : List Weekday) : Bool :=
  match host.parseTime start, host.parseTime finish with
  | some start, some finish =>
    let now := (host.localTime snapshot.now).1
    let inside :=
      if start ≤ finish then start ≤ now && now ≤ finish else start ≤ now || now ≤ finish
    let weekdayMatches :=
      weekdays.isEmpty || weekdays.contains (host.localTime snapshot.now).2
    weekdayMatches && if outside then !inside else inside
  | _, _ => false

mutual

def conditionMatches (host : Host) : ConditionSpec → SystemSnapshot → Bool
  | .all conditions, snapshot => allConditionsMatch host conditions snapshot
  | .any conditions, snapshot => anyConditionMatches host conditions snapshot
  | .not condition, snapshot => !conditionMatches host condition snapshot
  | .timeWindow start finish outside weekdays, snapshot =>
    timeWindowMatches host snapshot start finish outside weekdays
  | .wifi ssid bssid connected, snapshot =>
    connected.all (fun value => value == snapshot.wifiConnected)
      && ssid.all (fun value => snapshot.wifiSsid == some value)
      && bssid.all (fun value =>
        snapshot.wifiBssid.any (fun actual => eqIgnoreAsciiCase actual value))
  | .network online interface vpn, snapshot =>
    online.all (fun value => value == snapshot.networkOnline)
      && vpn.all (fun value => value == snapshot.vpnActive)
      && interface.all (fun value => snapshot.activeInterface == some value)
  | .mode name, snapshot => name == snapshot.mode
  | .pathExists path expected, _ => host.pathExists path == expected
  | .mounted path expected, snapshot => decide (path.components ∈ snapshot.mounts) == expected
  | .process name running, snapshot => decide (name ∈ snapshot.processes) == running
  | .service name active, snapshot => (snapshot.services name).getD false == active
  | .port port opened protocol, snapshot => decide ((protocol, port) ∈ snapshot.ports) == opened
  | .session state user remote, snapshot =>
    state.all (fun value => snapshot.sessionState == some value)
      && remote.all (fun value => snapshot.sessionRemote == value)
      && user.all (fun value => snapshot.sessionUser == some value)
  | .power onAc batteryBelow lidClosed, snapshot =>
    onAc.all (fun value => snapshot.onAc == some value)
      && lidClosed.all (fun value => snapshot.lidClosed == some value)
      && batteryBelow.all (fun limit => snapshot.batteryPercent.any (fun actual => actual < limit))
  | .sensorHealthy sensor healthy, snapshot =>
    (snapshot.sensorHealth sensor).getD false == healthy

def allConditionsMatch (host : Host) : List ConditionSpec → SystemSnapshot → Bool
  | [], _ => true
  | item :: items, snapshot =>
    conditionMatches host item snapshot && allConditionsMatch host items snapshot

def anyConditionMatches (host : Host) : List ConditionSpec → SystemSnapshot → Bool
  | [], _ => false
  | item :: items, snapshot =>
    conditionMatches host item snapshot || anyConditionMatches host items snapshot

end

mutual

def triggerUsesSensor : TriggerSpec → String → Bool
  | .tick, sensor => sensor == "time"
  | .file .., sensor => sensor == "filesystem"
  | .wifiChanged .., sensor => sensor == "wifi"
  | .networkChanged .., sensor => sensor == "network"
  | .usb .., sensor => sensor == "usb"
  | .mount .., sensor => sensor == "mounts"
  | .process .., sensor => sensor == "processes"
  | .service .., sensor => sensor == "services"
  | .port .., sensor => sensor == "ports"
  | .session .., sensor => sensor == "sessions"
  | .power .., sensor => sensor == "power"
  | .hotkey _, sensor => sensor == "hotkeys"
  | .integrityFailure _, sensor => sensor == "integrity"
  | .manual _, sensor => sensor == "manual"
  | .sensorFailure expected, sensor => expected.all (fun value => value == sensor)
  | .all triggers, sensor => anyTriggerUsesSensor triggers sensor
  | .any triggers, sensor => anyTriggerUsesSensor triggers sensor
  | .sequence steps _, sensor => anyTriggerUsesSensor steps sensor
  | .not trigger, sensor => triggerUsesSensor trigger sensor

def anyTriggerUsesSensor : List TriggerSpec → String → Bool
  | [], _ => false
  | item :: items, sensor => triggerUsesSensor item sensor || anyTriggerUsesSensor items sensor

end

end Kovert
