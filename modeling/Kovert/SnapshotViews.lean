import Kovert.PollingStep

/-!
# What a sensor sees of the snapshot

Each polled sensor has its own part of the snapshot, and only events of its own
kind move it. So the effect of a whole cycle on that part is the effect of the
sensor's own events, whatever the other sensors report and whatever events that
carry no host state come in between.
-/

namespace Kovert

open Replay

/-- The sensor that reports events of this kind. -/
def EventKind.topic : EventKind → Option Sensor
  | .wifi .. => some .wifi
  | .network .. => some .network
  | .usb .. => some .usb
  | .mount .. => some .mounts
  | .process .. => some .processes
  | .service .. => some .services
  | .port .. => some .ports
  | .session .. => some .sessions
  | .power .. => some .power
  | .tick | .file .. | .hotkey _ | .integrity .. | .manual _ | .sensorFailure .. => none

/-- Tick, file, USB, hotkey and manual events: they carry no host state. -/
def EventKind.inert : EventKind → Bool
  | .tick | .file .. | .usb .. | .hotkey _ | .manual _ => true
  | _ => false

namespace Sensor

/-- The part of the snapshot that belongs to the sensor; USB devices are not kept. -/
abbrev View : Sensor → Type
  | .wifi => WifiState
  | .network => NetworkState
  | .usb => Unit
  | .mounts => Finset (List Component)
  | .processes => Finset String
  | .services => String → Option Bool
  | .ports => PortSet
  | .sessions => Option SessionState × Option String × Bool
  | .power => PowerState

def view : (sensor : Sensor) → SystemSnapshot → sensor.View
  | .wifi, snapshot => ⟨snapshot.wifiConnected, snapshot.wifiSsid, snapshot.wifiBssid⟩
  | .network, snapshot => ⟨snapshot.networkOnline, snapshot.activeInterface, snapshot.vpnActive⟩
  | .usb, _ => ()
  | .mounts, snapshot => snapshot.mounts
  | .processes, snapshot => snapshot.processes
  | .services, snapshot => snapshot.services
  | .ports, snapshot => snapshot.ports
  | .sessions, snapshot => (snapshot.sessionState, snapshot.sessionUser, snapshot.sessionRemote)
  | .power, snapshot => ⟨snapshot.onAc, snapshot.batteryPercent, snapshot.lidClosed⟩

/-- What an event of the sensor's own kind does to its view. -/
def update : (sensor : Sensor) → sensor.View → EventKind → sensor.View
  | .wifi, _, .wifi connected ssid bssid => ⟨connected, ssid, bssid⟩
  | .network, _, .network online interface vpn => ⟨online, interface, vpn⟩
  | .mounts, view, .mount action path _ =>
    Keyed.members.write view (path.components, action ≠ .removed)
  | .processes, view, .process name running _ => Keyed.members.write view (name, running)
  | .services, view, .service name active => Keyed.cells.write view (name, some active)
  | .ports, view, .port port protocol opened =>
    Keyed.members.write view ((protocol, port), opened)
  | .sessions, _, .session state user remote => (some state, user, remote)
  | .power, _, .power onAc batteryPercent lidClosed => ⟨onAc, batteryPercent, lidClosed⟩
  | _, view, _ => view

theorem update_other {sensor : Sensor} {kind : EventKind} (h : kind.topic ≠ some sensor)
    (view : sensor.View) : sensor.update view kind = view := by
  cases sensor <;> cases kind <;> first | rfl | exact absurd rfl h

theorem update_inert {sensor : Sensor} {kind : EventKind} (h : kind.inert = true)
    (view : sensor.View) : sensor.update view kind = view := by
  cases sensor <;> cases kind <;> first | rfl | cases h

theorem view_apply (sensor : Sensor) (snapshot : SystemSnapshot) (event : Event) :
    sensor.view (snapshot.apply event) = sensor.update (sensor.view snapshot) event.kind := by
  obtain ⟨id, timestamp, source, kind⟩ := event
  cases kind with
  | mount action path mounted => cases action <;> cases sensor <;> rfl
  | process name running pid => cases running <;> cases sensor <;> rfl
  | port port protocol opened => cases opened <;> cases sensor <;> rfl
  | _ => cases sensor <;> rfl

end Sensor

/-! ## The kinds of a sensor's events -/

theorem loginEvent_topic (first : Bool) (previous : Option SessionInfo) (value : SessionInfo) :
    ∀ kind ∈ loginEvent first previous value, kind.topic = some .sessions := by
  unfold loginEvent
  split_ifs
  · exact List.forall_mem_singleton.mpr rfl
  · exact List.forall_mem_nil _

theorem forall_mem_ite {α : Type} {P : α → Prop} {c : Prop} [Decidable c] {l l' : List α}
    (hl : ∀ a ∈ l, P a) (hl' : ∀ a ∈ l', P a) : ∀ a ∈ if c then l else l', P a := by
  split_ifs
  · exact hl
  · exact hl'

theorem Sensor.report_topic (requirements : SensorRequirements) (first : Bool) (sensor : Sensor)
    (previous : sensor.Baseline) (value : sensor.Value) :
    ∀ kind ∈ sensor.report requirements first previous value, kind.topic = some sensor := by
  have hmap : ∀ {α : Type} {f : α → EventKind} {l : List α}, (∀ a, (f a).topic = some sensor) →
      ∀ kind ∈ l.map f, kind.topic = some sensor :=
    fun hf => List.forall_mem_map.mpr fun a _ => hf a
  have hnil := List.forall_mem_nil (fun kind : EventKind => kind.topic = some sensor)
  cases sensor with
  | wifi => exact forall_mem_ite (List.forall_mem_singleton.mpr rfl) hnil
  | network => exact forall_mem_ite (List.forall_mem_singleton.mpr rfl) hnil
  | usb =>
      apply forall_mem_ite
      · exact hmap fun _ => rfl
      · exact List.forall_mem_append.mpr ⟨hmap fun _ => rfl, hmap fun _ => rfl⟩
  | mounts =>
      apply forall_mem_ite
      · exact hmap fun _ => rfl
      · exact List.forall_mem_append.mpr ⟨hmap fun _ => rfl, hmap fun _ => rfl⟩
  | processes => exact hmap fun _ => rfl
  | services => exact hmap fun _ => rfl
  | ports => exact forall_mem_ite (hmap fun _ => rfl) (hmap fun _ => rfl)
  | sessions =>
      apply forall_mem_ite
      · exact List.forall_mem_append.mpr
          ⟨loginEvent_topic _ _ _, List.forall_mem_singleton.mpr rfl⟩
      · exact hnil
  | power => exact forall_mem_ite (List.forall_mem_singleton.mpr rfl) hnil

namespace Poller

variable (poller : Poller) (probes : Probes)

/-- Every event of a sensor's block names the sensor as its source, and is
either a report of the sensor or its failure. -/
theorem sensorEvents_mem {state : PollState} {sensor : Sensor} {emission : Emission}
    (h : emission ∈ poller.sensorEvents probes state sensor) :
    emission.source = sensor.name ∧ (emission.kind.topic = some sensor ∨
      ∃ message, emission.kind = .sensorFailure sensor.name message) := by
  cases hrequired : sensor.required poller.requirements with
  | false =>
      rw [sensorEvents_off poller probes state hrequired] at h
      cases h
  | true =>
      cases hresult : probes.result poller.requirements sensor with
      | ok value =>
          rw [sensorEvents_ok poller probes state hrequired hresult] at h
          obtain ⟨kind, hkind, rfl⟩ := List.mem_map.mp h
          exact ⟨rfl, Or.inl (Sensor.report_topic _ _ _ _ _ kind hkind)⟩
      | error message =>
          rw [sensorEvents_error poller probes state hrequired hresult] at h
          split_ifs at h
          · cases h
          · rw [List.mem_singleton.mp h]
            exact ⟨rfl, Or.inr ⟨_, rfl⟩⟩

theorem checkIntegrity_mem {component : String} {path : PathBuf} {slot : Option String}
    {contents : Except String (List UInt8)} {emission : Emission}
    (h : emission ∈ (poller.checkIntegrity component path slot contents).2) :
    emission.source = "integrity" ∧
      ((∃ detail, emission.kind = .integrity component false detail) ∨
        ∃ message, emission.kind = .sensorFailure "integrity" message) := by
  cases contents with
  | ok bytes =>
      simp only [checkIntegrity] at h
      split_ifs at h
      · rw [List.mem_singleton.mp h]
        exact ⟨rfl, Or.inl ⟨_, rfl⟩⟩
      · cases h
  | error message =>
      rw [List.mem_singleton.mp h]
      exact ⟨rfl, Or.inr ⟨_, rfl⟩⟩

theorem integrityEvents_mem {state : PollState} {emission : Emission}
    (h : emission ∈ poller.integrityEvents probes state) :
    emission.source = "integrity" ∧
      ((∃ component detail, emission.kind = .integrity component false detail ∧
          (component = "configuration" ∨ component = "binary")) ∨
        ∃ message, emission.kind = .sensorFailure "integrity" message) := by
  unfold integrityEvents at h
  split_ifs at h
  · rcases List.mem_append.mp h with h | h
    · obtain ⟨hsource, ⟨detail, hkind⟩ | hfailure⟩ := checkIntegrity_mem poller h
      · exact ⟨hsource, Or.inl ⟨_, detail, hkind, Or.inl rfl⟩⟩
      · exact ⟨hsource, Or.inr hfailure⟩
    · obtain ⟨hsource, ⟨detail, hkind⟩ | hfailure⟩ := checkIntegrity_mem poller h
      · exact ⟨hsource, Or.inl ⟨_, detail, hkind, Or.inr rfl⟩⟩
      · exact ⟨hsource, Or.inr hfailure⟩
  · cases h

/-- An event on the topic of a sensor is a report of that sensor's own block. -/
theorem mem_pollCycle_of_topic {state : PollState} {sensor : Sensor} {emission : Emission}
    (htopic : emission.kind.topic = some sensor) :
    emission ∈ (poller.pollCycle probes state).2 ↔
      sensor.required poller.requirements = true ∧
        ∃ value, probes.result poller.requirements sensor = .ok value ∧
          emission.source = sensor.name ∧ emission.kind ∈ sensor.report poller.requirements
            (!state.initialized) (state.baseline sensor) value := by
  rw [pollCycle_events, List.mem_append, List.mem_flatMap]
  constructor
  · rintro (⟨other, _, hmem⟩ | hmem)
    · obtain rfl : other = sensor := by
        obtain ⟨_, hother | ⟨message, hkind⟩⟩ := sensorEvents_mem poller probes hmem
        · exact Option.some.inj (hother.symm.trans htopic)
        · rw [hkind] at htopic
          cases htopic
      cases hrequired : other.required poller.requirements with
      | false =>
          rw [sensorEvents_off poller probes state hrequired] at hmem
          cases hmem
      | true =>
          cases hresult : probes.result poller.requirements other with
          | ok value =>
              rw [sensorEvents_ok poller probes state hrequired hresult] at hmem
              obtain ⟨kind, hkind, rfl⟩ := List.mem_map.mp hmem
              exact ⟨rfl, value, rfl, rfl, hkind⟩
          | error message =>
              rw [sensorEvents_error poller probes state hrequired hresult] at hmem
              split_ifs at hmem
              · cases hmem
              · rw [List.mem_singleton.mp hmem] at htopic
                cases htopic
    · obtain ⟨_, ⟨component, detail, hkind, _⟩ | ⟨message, hkind⟩⟩ :=
        integrityEvents_mem poller probes hmem
      · rw [hkind] at htopic
        cases htopic
      · rw [hkind] at htopic
        cases htopic
  · rintro ⟨hrequired, value, hok, hsource, hkind⟩
    refine Or.inl ⟨sensor, sensor.mem_all, ?_⟩
    rw [sensorEvents_ok poller probes state hrequired hok]
    refine List.mem_map.mpr ⟨emission.kind, hkind, ?_⟩
    rw [← hsource]

/-- A view of the snapshot that ignores all but one sensor's events moves with these. -/
theorem foldl_cycle {β : Type*} {update : β → Emission → β} (sensor : Sensor) {state : PollState}
    (hother : ∀ other ≠ sensor, ∀ emission ∈ poller.sensorEvents probes state other,
      ∀ v, update v emission = v)
    (hintegrity : ∀ emission ∈ poller.integrityEvents probes state, ∀ v, update v emission = v)
    (v : β) :
    (poller.pollCycle probes state).2.foldl update v =
      (poller.sensorEvents probes state sensor).foldl update v := by
  rw [pollCycle_events, List.foldl_append, foldl_ignored hintegrity]
  exact foldl_flatMap_of_ignored Sensor.nodup_all sensor.mem_all
    (fun other _ hne => hother other hne) v

/-- The view of a sensor after a cycle, with events that carry no host state in between. -/
theorem view_after_cycle {between : Event → Prop}
    (hbetween : ∀ event, between event → event.kind.inert = true) {state : PollState}
    {events : List Event}
    (hw : Woven Event.emission between (poller.pollCycle probes state).2 events) (sensor : Sensor)
    (snapshot : SystemSnapshot) :
    sensor.view (events.foldl SystemSnapshot.apply snapshot) =
      ((poller.sensorEvents probes state sensor).map Emission.kind).foldl sensor.update
        (sensor.view snapshot) := by
  have hwoven := foldl_woven hw (u := fun view emission => sensor.update view emission.kind)
    sensor.view_apply (fun event hevent => Sensor.update_inert (hbetween event hevent)) snapshot
  rw [hwoven, List.foldl_map]
  apply foldl_cycle
  · intro other hne emission hemission view
    obtain ⟨_, htopic | ⟨message, hkind⟩⟩ := sensorEvents_mem poller probes hemission
    · apply Sensor.update_other
      rw [htopic]
      exact fun heq => hne (Option.some.inj heq)
    · rw [hkind]
      exact Sensor.update_other (fun h => by cases h) view
  · intro emission hemission view
    apply Sensor.update_other
    obtain ⟨_, ⟨component, detail, hkind, _⟩ | ⟨message, hkind⟩⟩ :=
      integrityEvents_mem poller probes hemission
    · rw [hkind]
      exact fun h => by cases h
    · rw [hkind]
      exact fun h => by cases h

end Poller
end Kovert
