import Kovert.PollRuns

/-!
# Sensor health

The snapshot counts a sensor as healthy when the last event from it was not its
failure. A failed probe is always noticed. A successful one shows only through
an event, so a sensor that recovers with the value it had before, or that finds
nothing on its first success, stays unhealthy.
-/

namespace Kovert

open Replay History

/-- What an event does to the health of a source. -/
def healthUpdate (name : String) (health : Option Bool) (emission : Emission) : Option Bool :=
  let reported := if emission.source = name then some true else health
  match emission.kind with
  | .integrity component valid _ => if component = name then some valid else reported
  | .sensorFailure sensor _ => if sensor = name then some false else reported
  | _ => reported

/-- The probe found something to report. -/
def Sensor.Changed (requirements : SensorRequirements) (first : Bool) :
    (sensor : Sensor) → sensor.Baseline → sensor.Value → Prop
  | .wifi, previous, value => first = true ∨ previous ≠ some value
  | .network, previous, value => first = true ∨ previous ≠ some value
  | .usb, previous, value => if first then value ≠ ∅ else value ≠ previous
  | .mounts, previous, value =>
      if first then value ≠ []
      else (∃ entry ∈ value, previous.containsKey entry.1 = false) ∨
        ∃ entry ∈ previous, value.containsKey entry.1 = false
  | .processes, previous, value =>
      ∃ entry ∈ value, first = true ∨ previous.lookup entry.1 ≠ some entry.2
  | .services, previous, value =>
      ∃ entry ∈ value, first = true ∨ previous.lookup entry.1 ≠ some entry.2
  | .ports, previous, value => if first then requirements.ports ≠ ∅ else value ≠ previous
  | .sessions, previous, value => first = true ∨ previous ≠ some value
  | .power, previous, value => first = true ∨ previous ≠ some value

/-- No sensor speaks but through the poller. -/
def Quiet (event : Event) : Prop :=
  event.kind.inert = true ∧ ∀ sensor : Sensor, event.source ≠ sensor.name

namespace Poller

/-- After the cycle the health of every probed sensor that ever succeeded is
the result of its probe. -/
def HealthTracks (poller : Poller) (snapshot : SystemSnapshot) (before : List Cycle)
    (cycle : Cycle) : Prop :=
  ∀ sensor : Sensor, sensor.required poller.requirements = true →
    (poller.lastValue sensor (before ++ [cycle])).isSome = true → ∀ host,
      (conditionMatches host (.sensorHealthy sensor.name true)
          (poller.after snapshot (before ++ [cycle])).snapshot = true ↔
        ∃ value, cycle.probes.result poller.requirements sensor = .ok value)

/-- Every probe that succeeds on a sensor not known to be healthy finds something to report. -/
def RecoveryShows (poller : Poller) (snapshot : SystemSnapshot) (before : List Cycle)
    (cycle : Cycle) : Prop :=
  ∀ sensor : Sensor, sensor.required poller.requirements = true → ∀ value,
    cycle.probes.result poller.requirements sensor = .ok value →
    (poller.after snapshot before).snapshot.sensorHealth sensor.name ≠ some true →
      sensor.Changed poller.requirements (!(poller.after snapshot before).state.initialized)
        ((poller.after snapshot before).state.baseline sensor) value

end Poller

/-! ## When a report is empty -/

theorem usbOrder_eq_nil {devices : Finset UsbDevice} : usbOrder devices = [] ↔ devices = ∅ := by
  simp [List.eq_nil_iff_forall_not_mem, Finset.eq_empty_iff_forall_notMem, usbOrder]

theorem portOrder_eq_nil {ports : PortSet} : portOrder ports = [] ↔ ports = ∅ := by
  simp [List.eq_nil_iff_forall_not_mem, Finset.eq_empty_iff_forall_notMem, portOrder]

theorem map_filter_ne_nil {α : Type} {f : α → EventKind} {p : α → Bool} {q : α → Prop}
    {l : List α} (h : ∀ a, p a = true ↔ q a) : (l.filter p).map f ≠ [] ↔ ∃ a ∈ l, q a := by
  rw [Ne, List.map_eq_nil_iff, List.filter_eq_nil_iff]
  push Not
  simp only [h]

theorem if_ne_nil {c : Prop} [Decidable c] {kinds : List EventKind} (h : kinds ≠ []) :
    (if c then kinds else []) ≠ [] ↔ c := by
  split_ifs with hc
  · exact iff_of_true h hc
  · exact iff_of_false (fun hne => hne rfl) hc

theorem report_ne_nil_iff (requirements : SensorRequirements) (first : Bool) (sensor : Sensor)
    (previous : sensor.Baseline) (value : sensor.Value) :
    sensor.report requirements first previous value ≠ [] ↔
      sensor.Changed requirements first previous value := by
  cases sensor with
  | usb =>
      cases first with
      | true => simp [Sensor.report, Sensor.Changed, usbOrder_eq_nil]
      | false =>
          simp [Sensor.report, Sensor.Changed, usbOrder_eq_nil, Finset.sdiff_eq_empty_iff_subset,
            ← Finset.Subset.antisymm_iff]
  | mounts =>
      cases first with
      | true => simp [Sensor.report, Sensor.Changed]
      | false =>
          simp only [Sensor.report, Sensor.Changed, Bool.false_eq_true, if_false]
          rw [Ne, List.append_eq_nil_iff, not_and_or]
          apply or_congr
          · exact map_filter_ne_nil fun entry => by rw [Bool.not_eq_true']
          · exact map_filter_ne_nil fun entry => by rw [Bool.not_eq_true']
  | processes => exact map_filter_ne_nil fun entry => by rw [Bool.or_eq_true, bne_iff_ne]
  | services => exact map_filter_ne_nil fun entry => by rw [Bool.or_eq_true, bne_iff_ne]
  | ports =>
      cases first <;> simp [Sensor.report, Sensor.Changed, portOrder_eq_nil]
  | sessions => exact if_ne_nil (List.append_ne_nil_of_right_ne_nil _ (List.cons_ne_nil _ _))
  | _ => exact if_ne_nil (List.cons_ne_nil _ _)

/-! ## Health after one cycle -/

theorem sensorHealth_apply (name : String) (snapshot : SystemSnapshot) (event : Event) :
    (snapshot.apply event).sensorHealth name =
      healthUpdate name (snapshot.sensorHealth name) event.emission := by
  have hreported : Function.update snapshot.sensorHealth event.source (some true) name =
      if event.source = name then some true else snapshot.sensorHealth name := by
    rw [Function.update_apply]
    exact if_congr eq_comm rfl rfl
  obtain ⟨id, timestamp, source, kind⟩ := event
  cases kind with
  | mount action path mounted => cases action <;> exact hreported
  | process process running pid => cases running <;> exact hreported
  | port port protocol opened => cases opened <;> exact hreported
  | integrity component valid detail =>
      refine (Function.update_apply _ _ _ _).trans ?_
      exact if_congr eq_comm rfl hreported
  | sensorFailure sensor message =>
      refine (Function.update_apply _ _ _ _).trans ?_
      exact if_congr eq_comm rfl hreported
  | _ => exact hreported

theorem healthUpdate_topic {name : String} {health : Option Bool} {emission : Emission}
    {sensor : Sensor} (h : emission.kind.topic = some sensor) :
    healthUpdate name health emission = if emission.source = name then some true else health := by
  unfold healthUpdate
  generalize emission.kind = kind at h
  cases kind <;> first | rfl | cases h

theorem healthUpdate_inert {name : String} {health : Option Bool} {emission : Emission}
    (h : emission.kind.inert = true) (hsource : emission.source ≠ name) :
    healthUpdate name health emission = health := by
  unfold healthUpdate
  rw [if_neg hsource]
  generalize emission.kind = kind at h
  cases kind <;> first | rfl | cases h

namespace Poller

variable {poller : Poller} {polled : Polled} {cycle : Cycle} {sensor : Sensor}

/-- Only the sensor's own events move its health. -/
theorem health_after_cycle
    (hw : Woven Event.emission Quiet (poller.pollCycle cycle.probes polled.state).2 cycle.events)
    (sensor : Sensor) :
    (poller.advance polled cycle).snapshot.sensorHealth sensor.name =
      (poller.sensorEvents cycle.probes polled.state sensor).foldl (healthUpdate sensor.name)
        (polled.snapshot.sensorHealth sensor.name) := by
  have hwoven := foldl_woven hw (f := fun snapshot => snapshot.sensorHealth sensor.name)
    (sensorHealth_apply sensor.name)
    (fun event hquiet _ => healthUpdate_inert hquiet.1 (hquiet.2 sensor)) polled.snapshot
  refine hwoven.trans ?_
  apply foldl_cycle
  · intro other hne emission hemission health
    have hname : other.name ≠ sensor.name := fun h => hne (Sensor.name_injective h)
    obtain ⟨hsource, htopic | ⟨message, hkind⟩⟩ :=
      sensorEvents_mem poller cycle.probes hemission
    · rw [healthUpdate_topic htopic, hsource, if_neg hname]
    · simp only [healthUpdate, hkind, hsource, if_neg hname]
  · intro emission hemission health
    have hother : ∀ name ∈ ["integrity", "configuration", "binary"], name ≠ sensor.name := by
      cases sensor <;> decide
    obtain ⟨hsource, ⟨component, detail, hkind, hcomponent⟩ | ⟨message, hkind⟩⟩ :=
      integrityEvents_mem poller cycle.probes hemission
    · have hne : component ≠ sensor.name := hother component (by simpa using Or.inr hcomponent)
      simp only [healthUpdate, hkind, hsource, if_neg hne, if_neg (hother "integrity" (by simp))]
    · simp only [healthUpdate, hkind, hsource, if_neg (hother "integrity" (by simp))]

theorem foldl_health_report {kinds : List EventKind}
    (htopic : ∀ kind ∈ kinds, kind.topic = some sensor) (health : Option Bool) :
    (kinds.map (Emission.mk sensor.name)).foldl (healthUpdate sensor.name) health =
      if kinds = [] then health else some true := by
  induction kinds generalizing health with
  | nil => rfl
  | cons kind kinds ih =>
      have hkind : healthUpdate sensor.name health ⟨sensor.name, kind⟩ = some true := by
        rw [healthUpdate_topic (htopic kind List.mem_cons_self), if_pos rfl]
      rw [List.map_cons, List.foldl_cons, hkind,
        ih (fun other hother => htopic other (List.mem_cons_of_mem _ hother)),
        if_neg (List.cons_ne_nil _ _)]
      exact ite_self _

theorem health_after_ok {value : sensor.Value}
    (hw : Woven Event.emission Quiet (poller.pollCycle cycle.probes polled.state).2 cycle.events)
    (hrequired : sensor.required poller.requirements = true)
    (hok : cycle.probes.result poller.requirements sensor = .ok value) :
    (poller.advance polled cycle).snapshot.sensorHealth sensor.name = some true ↔
      (polled.snapshot.sensorHealth sensor.name ≠ some true →
        sensor.Changed poller.requirements (!polled.state.initialized)
          (polled.state.baseline sensor) value) := by
  rw [health_after_cycle hw, sensorEvents_ok poller cycle.probes polled.state hrequired hok,
    foldl_health_report (Sensor.report_topic _ _ _ _ _), ← report_ne_nil_iff]
  split_ifs with hempty
  · simp [hempty]
  · simp [hempty]

theorem health_after_error {message : String}
    (hw : Woven Event.emission Quiet (poller.pollCycle cycle.probes polled.state).2 cycle.events)
    (hrequired : sensor.required poller.requirements = true)
    (herror : cycle.probes.result poller.requirements sensor = .error message)
    (hfailed : sensor.name ∈ polled.state.failed →
      polled.snapshot.sensorHealth sensor.name = some false) :
    (poller.advance polled cycle).snapshot.sensorHealth sensor.name = some false := by
  rw [health_after_cycle hw, sensorEvents_error poller cycle.probes polled.state hrequired herror]
  split_ifs with hmem
  · exact hfailed hmem
  · simp [healthUpdate]

/-- A sensor that counts as failed is shown as unhealthy. -/
theorem Delivers.failed_unhealthy {snapshot : SystemSnapshot} {cycles : List Cycle}
    (h : poller.Delivers Quiet snapshot cycles)
    (hmem : sensor.name ∈ (poller.after snapshot cycles).state.failed) :
    (poller.after snapshot cycles).snapshot.sensorHealth sensor.name = some false := by
  revert hmem
  refine h.invariant (I := fun _ polled => sensor.name ∈ polled.state.failed →
    polled.snapshot.sensorHealth sensor.name = some false) (fun hmem => ?_) ?_
  · exact absurd hmem (Finset.notMem_empty _)
  · intro cycles cycle ih hw hmem
    have hnext := (pollCycle_state poller cycle.probes
      (poller.after snapshot cycles).state sensor).2.mp hmem
    unfold FailsNext at hnext
    cases hrequired : sensor.required poller.requirements with
    | false =>
        rw [hrequired, if_neg Bool.false_ne_true] at hnext
        rw [health_after_cycle hw, sensorEvents_off poller _ _ hrequired]
        exact ih hnext
    | true =>
        rw [hrequired, if_pos rfl] at hnext
        cases hresult : cycle.probes.result poller.requirements sensor with
        | ok value =>
            rw [hresult] at hnext
            exact hnext.elim
        | error message => exact health_after_error hw hrequired hresult ih

theorem conditionMatches_healthy {host : Host} {snapshot : SystemSnapshot} {name : String} :
    conditionMatches host (.sensorHealthy name true) snapshot = true ↔
      snapshot.sensorHealth name = some true := by
  cases hhealth : snapshot.sensorHealth name <;> simp [conditionMatches, hhealth]

theorem healthTracks_iff {snapshot : SystemSnapshot} {before : List Cycle}
    (hbefore : poller.Delivers Quiet snapshot before)
    (hw : Woven Event.emission Quiet
      (poller.pollCycle cycle.probes (poller.after snapshot before).state).2 cycle.events) :
    poller.HealthTracks snapshot before cycle ↔ poller.RecoveryShows snapshot before cycle := by
  unfold HealthTracks RecoveryShows
  simp only [conditionMatches_healthy, after_snoc]
  apply forall_congr'
  intro sensor
  apply imp_congr_right
  intro hrequired
  cases hresult : cycle.probes.result poller.requirements sensor with
  | ok value =>
      have hlast : (poller.lastValue sensor (before ++ [cycle])).isSome = true := by
        rw [lastValue_snoc, hresult]
        rfl
      have hhealth := health_after_ok hw hrequired hresult
      constructor
      · rintro h _ ⟨⟩
        have host : Host := ⟨fun _ => none, fun _ => (0, .mon), fun _ => false⟩
        exact hhealth.mp ((h hlast host).mpr ⟨value, rfl⟩)
      · intro h _ _
        exact iff_of_true (hhealth.mpr (h value rfl)) ⟨value, rfl⟩
  | error message =>
      have hhealth := health_after_error hw hrequired hresult hbefore.failed_unhealthy
      refine iff_of_true ?_ (fun _ hok => by cases hok)
      intro _ _
      rw [hhealth]
      exact iff_of_false (by decide) (fun hok => by cases hok.choose_spec)

end Poller

/-- In every run the health of the sensors is the result of their probes, after
every cycle, exactly when every recovery finds something to report. -/
theorem health_tracks_iff (poller : Poller) (snapshot : SystemSnapshot) (cycles : List Cycle)
    (hrun : poller.Delivers Quiet snapshot cycles) :
    Lawful (poller.HealthTracks snapshot) cycles ↔
      Lawful (poller.RecoveryShows snapshot) cycles := by
  apply lawful_congr
  intro before cycle later heq
  have hbefore : poller.Delivers Quiet snapshot before := Lawful.of_append (heq ▸ hrun)
  exact Poller.healthTracks_iff hbefore (hrun before cycle later heq)

def wifiPoller : Poller := testPoller { SensorRequirements.default with wifi := true }

def wifiUp : Probes := { downProbes with wifi := .ok ⟨true, some "home", none⟩ }

/-- Every first cycle reports the Wi-Fi state. -/
theorem health_tracks_wifi :
    Lawful (wifiPoller.HealthTracks (.default 0))
      (wifiPoller.plainCycles (.default 0) [wifiUp]) := by
  refine (health_tracks_iff wifiPoller (.default 0) _
    (wifiPoller.delivers_plainCycles _ _ _)).mpr (lawful_snoc.mpr ⟨lawful_nil _, ?_⟩)
  intro sensor hrequired value hok _
  cases sensor with
  | wifi => exact Or.inl rfl
  | _ => cases hrequired

/-- The Wi-Fi probe fails once and then succeeds with the value it had before:
the sensor has recovered and is still shown as unhealthy. -/
theorem silent_recovery :
    let cycles := wifiPoller.plainCycles (.default 0) [wifiUp, downProbes, wifiUp]
    wifiPoller.Delivers Quiet (.default 0) cycles ∧
      (wifiPoller.after (.default 0) cycles).snapshot.sensorHealth "wifi" = some false ∧
      ¬ Lawful (wifiPoller.HealthTracks (.default 0)) cycles := by
  intro cycles
  have hunhealthy : (wifiPoller.after (.default 0) cycles).snapshot.sensorHealth "wifi" =
      some false := by decide +kernel
  refine ⟨wifiPoller.delivers_plainCycles _ _ _, hunhealthy, ?_⟩
  intro h
  have htracks := h (wifiPoller.plainCycles (.default 0) [wifiUp, downProbes])
    (wifiPoller.plainCycle (wifiPoller.after (.default 0)
      (wifiPoller.plainCycles (.default 0) [wifiUp, downProbes])).state wifiUp) [] rfl
  have hhealthy := (htracks .wifi rfl rfl
    ⟨fun _ => none, fun _ => (0, .mon), fun _ => false⟩).mpr ⟨_, rfl⟩
  have hshown : (((wifiPoller.after (.default 0) cycles).snapshot.sensorHealth "wifi").getD false ==
      true) = true := hhealthy
  rw [hunhealthy] at hshown
  cases hshown

end Kovert
