import Kovert.Polling
import Kovert.Foundations.Replay

/-!
# What one polling cycle does

The blocks of the cycle do not meet: each reads and writes the baseline of its
own sensor and its own entry among the failed sensors. So the events of a cycle
are those that every sensor gives on the state before the cycle, one after the
other, followed by the events of the integrity check.
-/

namespace Kovert

theorem Sensor.name_injective : Function.Injective Sensor.name := by
  intro left right h
  cases left <;> cases right <;> first | rfl | exact absurd h (by decide)

theorem Sensor.mem_all (sensor : Sensor) : sensor ∈ Sensor.all := by
  cases sensor <;> decide

theorem Sensor.nodup_all : Sensor.all.Nodup := by decide

/-- The value as the baseline that the poller keeps of it. -/
def Sensor.keep : (sensor : Sensor) → sensor.Value → sensor.Baseline
  | .wifi, value => some value
  | .network, value => some value
  | .usb, value => value
  | .mounts, value => value
  | .processes, value => value
  | .services, value => value
  | .ports, value => value
  | .sessions, value => some value
  | .power, value => some value

namespace PollState

theorem store_baseline_self (state : PollState) (sensor : Sensor) (value : sensor.Value) :
    (state.store sensor value).baseline sensor = sensor.keep value := by
  cases sensor <;> rfl

theorem store_baseline_other (state : PollState) {sensor other : Sensor} (value : other.Value)
    (h : other ≠ sensor) : (state.store other value).baseline sensor = state.baseline sensor := by
  cases sensor <;> cases other <;> first | rfl | exact absurd rfl h

theorem store_failed (state : PollState) (sensor : Sensor) (value : sensor.Value) :
    (state.store sensor value).failed = state.failed := by cases sensor <;> rfl

/-- The two states agree on what the block of the sensor reads. -/
structure SameFor (sensor : Sensor) (left right : PollState) : Prop where
  baseline_eq : left.baseline sensor = right.baseline sensor
  failed_iff : sensor.name ∈ left.failed ↔ sensor.name ∈ right.failed

theorem SameFor.trans {sensor : Sensor} {left middle right : PollState}
    (h : SameFor sensor left middle) (h' : SameFor sensor middle right) :
    SameFor sensor left right :=
  ⟨h.baseline_eq.trans h'.baseline_eq, h.failed_iff.trans h'.failed_iff⟩

end PollState

namespace Poller

variable (poller : Poller) (probes : Probes)

/-- The events of the block of a sensor, from the state before the cycle. -/
def sensorEvents (state : PollState) (sensor : Sensor) : List Emission :=
  if sensor.required poller.requirements then
    match probes.result poller.requirements sensor with
    | .ok value =>
      (sensor.report poller.requirements (!state.initialized) (state.baseline sensor) value).map
        (Emission.mk sensor.name)
    | .error message =>
      if sensor.name ∈ state.failed then []
      else [⟨sensor.name, .sensorFailure sensor.name message⟩]
  else []

theorem sensorEvents_off (state : PollState) {sensor : Sensor}
    (h : sensor.required poller.requirements = false) :
    poller.sensorEvents probes state sensor = [] := by
  rw [sensorEvents, h, if_neg Bool.false_ne_true]

theorem sensorEvents_ok (state : PollState) {sensor : Sensor} {value : sensor.Value}
    (h : sensor.required poller.requirements = true)
    (hok : probes.result poller.requirements sensor = .ok value) :
    poller.sensorEvents probes state sensor =
      (sensor.report poller.requirements (!state.initialized) (state.baseline sensor) value).map
        (Emission.mk sensor.name) := by
  rw [sensorEvents, if_pos h, hok]

theorem sensorEvents_error (state : PollState) {sensor : Sensor} {message : String}
    (h : sensor.required poller.requirements = true)
    (herror : probes.result poller.requirements sensor = .error message) :
    poller.sensorEvents probes state sensor = if sensor.name ∈ state.failed then []
      else [⟨sensor.name, .sensorFailure sensor.name message⟩] := by
  rw [sensorEvents, if_pos h, herror]

/-- The baseline of a sensor after the cycle. -/
def nextBaseline (state : PollState) (sensor : Sensor) : sensor.Baseline :=
  if sensor.required poller.requirements then
    match probes.result poller.requirements sensor with
    | .ok value => sensor.keep value
    | .error _ => state.baseline sensor
  else state.baseline sensor

/-- The sensor counts as failed after the cycle. -/
def FailsNext (state : PollState) (sensor : Sensor) : Prop :=
  if sensor.required poller.requirements then
    match probes.result poller.requirements sensor with
    | .ok _ => False
    | .error _ => True
  else sensor.name ∈ state.failed

def integrityEvents (state : PollState) : List Emission :=
  if poller.requirements.integrity then (poller.probeIntegrity probes state).2 else []

/-! ## One block -/

theorem pollSensor_self {first : Bool} {progress : PollState × List Emission} {state : PollState}
    {sensor : Sensor} (hfirst : first = !state.initialized)
    (h : PollState.SameFor sensor progress.1 state) :
    (poller.pollSensor probes first progress sensor).2 =
        progress.2 ++ poller.sensorEvents probes state sensor ∧
      (poller.pollSensor probes first progress sensor).1.baseline sensor =
        poller.nextBaseline probes state sensor ∧
      (sensor.name ∈ (poller.pollSensor probes first progress sensor).1.failed ↔
        poller.FailsNext probes state sensor) := by
  unfold pollSensor sensorEvents nextBaseline FailsNext
  cases hrequired : sensor.required poller.requirements with
  | false => exact ⟨(List.append_nil _).symm, h.baseline_eq, h.failed_iff⟩
  | true =>
      simp only [if_true]
      cases probes.result poller.requirements sensor with
      | ok value =>
          have hbaseline : PollState.baseline
              { progress.1 with failed := progress.1.failed.erase sensor.name } sensor =
              state.baseline sensor := h.baseline_eq ▸ by cases sensor <;> rfl
          refine ⟨?_, PollState.store_baseline_self _ _ _, ?_⟩
          · simp only [probeValue, List.append_nil, hfirst, hbaseline]
          · simp only [probeValue, PollState.store_failed, Finset.notMem_erase]
      | error message =>
          simp only [probeValue, h.failed_iff]
          split_ifs with hfailed
          · refine ⟨rfl, h.baseline_eq, ?_⟩
            simp only [h.failed_iff, hfailed]
          · refine ⟨rfl, h.baseline_eq ▸ by cases sensor <;> rfl, ?_⟩
            simp only [Finset.mem_insert, true_or]

theorem pollSensor_other (first : Bool) (progress : PollState × List Emission)
    {sensor other : Sensor} (hne : other ≠ sensor) :
    PollState.SameFor sensor (poller.pollSensor probes first progress other).1 progress.1 := by
  have hname : sensor.name ≠ other.name := fun h => hne (Sensor.name_injective h).symm
  unfold pollSensor
  cases other.required poller.requirements with
  | false => exact ⟨rfl, Iff.rfl⟩
  | true =>
      simp only [if_true]
      cases probes.result poller.requirements other with
      | ok value =>
          constructor
          · rw [probeValue, PollState.store_baseline_other _ _ hne]
            cases sensor <;> rfl
          · simp only [probeValue, PollState.store_failed, Finset.mem_erase, ne_eq, hname,
              not_false_eq_true, true_and]
      | error message =>
          simp only [probeValue]
          split_ifs
          · exact ⟨rfl, Iff.rfl⟩
          · refine ⟨by cases sensor <;> rfl, ?_⟩
            simp only [Finset.mem_insert, hname, false_or]

/-! ## The whole cycle -/

theorem foldl_pollSensor {first : Bool} {state : PollState} (hfirst : first = !state.initialized)
    {sensors : List Sensor} (hnodup : sensors.Nodup) {progress : PollState × List Emission}
    (h : ∀ sensor ∈ sensors, PollState.SameFor sensor progress.1 state) :
    (sensors.foldl (poller.pollSensor probes first) progress).2 =
        progress.2 ++ sensors.flatMap (poller.sensorEvents probes state) ∧
      (∀ sensor ∈ sensors,
        (sensors.foldl (poller.pollSensor probes first) progress).1.baseline sensor =
            poller.nextBaseline probes state sensor ∧
          (sensor.name ∈ (sensors.foldl (poller.pollSensor probes first) progress).1.failed ↔
            poller.FailsNext probes state sensor)) ∧
      ∀ sensor, sensor ∉ sensors →
        PollState.SameFor sensor (sensors.foldl (poller.pollSensor probes first) progress).1
          progress.1 := by
  induction sensors generalizing progress with
  | nil => exact ⟨(List.append_nil _).symm, by simp, fun sensor _ => ⟨rfl, Iff.rfl⟩⟩
  | cons head sensors ih =>
      obtain ⟨hfresh, hnodup⟩ := List.nodup_cons.mp hnodup
      obtain ⟨hevents, hbaseline, hfailed⟩ :=
        pollSensor_self poller probes hfirst (h head List.mem_cons_self)
      have hrest : ∀ sensor ∈ sensors, PollState.SameFor sensor
          (poller.pollSensor probes first progress head).1 state := by
        intro sensor hsensor
        have hne : head ≠ sensor := fun heq => hfresh (heq ▸ hsensor)
        exact (pollSensor_other poller probes first progress hne).trans
          (h sensor (List.mem_cons_of_mem _ hsensor))
      obtain ⟨hall, hin, hout⟩ := ih hnodup hrest
      rw [List.foldl_cons]
      refine ⟨?_, ?_, ?_⟩
      · rw [hall, hevents, List.append_assoc, List.flatMap_cons]
      · intro sensor hsensor
        rcases List.mem_cons.mp hsensor with rfl | hsensor
        · have hkept := hout sensor hfresh
          exact ⟨hkept.baseline_eq.trans hbaseline, hkept.failed_iff.trans hfailed⟩
        · exact hin sensor hsensor
      · intro sensor hsensor
        obtain ⟨hne, hsensor⟩ := not_or.mp (fun hin => hsensor (List.mem_cons.mpr hin))
        exact (hout sensor hsensor).trans
          (pollSensor_other poller probes first progress (Ne.symm hne))

/-- The fields that belong to no sensor stay. -/
theorem pollSensor_rest (first : Bool) (progress : PollState × List Emission) (sensor : Sensor) :
    (poller.pollSensor probes first progress sensor).1.configHash = progress.1.configHash ∧
      (poller.pollSensor probes first progress sensor).1.binaryHash = progress.1.binaryHash := by
  unfold pollSensor
  cases sensor.required poller.requirements with
  | false => exact ⟨rfl, rfl⟩
  | true =>
      simp only [if_true]
      cases probes.result poller.requirements sensor with
      | ok value => cases sensor <;> exact ⟨rfl, rfl⟩
      | error message =>
          simp only [probeValue]
          split_ifs <;> exact ⟨rfl, rfl⟩

theorem foldl_pollSensor_rest (first : Bool) (sensors : List Sensor)
    (progress : PollState × List Emission) :
    (sensors.foldl (poller.pollSensor probes first) progress).1.configHash =
        progress.1.configHash ∧
      (sensors.foldl (poller.pollSensor probes first) progress).1.binaryHash =
        progress.1.binaryHash := by
  induction sensors generalizing progress with
  | nil => exact ⟨rfl, rfl⟩
  | cons sensor sensors ih =>
      obtain ⟨hconfig, hbinary⟩ := ih (poller.pollSensor probes first progress sensor)
      obtain ⟨hconfig', hbinary'⟩ := pollSensor_rest poller probes first progress sensor
      exact ⟨hconfig.trans hconfig', hbinary.trans hbinary'⟩

theorem pollSensors_spec (state : PollState) :
    (poller.pollSensors probes state).2 =
        Sensor.all.flatMap (poller.sensorEvents probes state) ∧
      ∀ sensor, (poller.pollSensors probes state).1.baseline sensor =
          poller.nextBaseline probes state sensor ∧
        (sensor.name ∈ (poller.pollSensors probes state).1.failed ↔
          poller.FailsNext probes state sensor) := by
  have hsame : ∀ sensor ∈ Sensor.all,
      PollState.SameFor sensor (state, ([] : List Emission)).1 state :=
    fun _ _ => ⟨rfl, Iff.rfl⟩
  obtain ⟨hevents, hstate, _⟩ := foldl_pollSensor poller probes
    (rfl : (!state.initialized) = !state.initialized) Sensor.nodup_all hsame
  exact ⟨hevents, fun sensor => hstate sensor sensor.mem_all⟩

/-- The events of a cycle, sensor by sensor. -/
theorem pollCycle_events (state : PollState) :
    (poller.pollCycle probes state).2 =
      Sensor.all.flatMap (poller.sensorEvents probes state) ++
        poller.integrityEvents probes state := by
  obtain ⟨hevents, _⟩ := pollSensors_spec poller probes state
  have hrest := foldl_pollSensor_rest poller probes (!state.initialized) Sensor.all (state, [])
  rw [← pollSensors] at hrest
  rw [pollCycle, integrityEvents]
  simp only [hevents]
  split_ifs
  · simp only [probeIntegrity, hrest]
  · rfl

theorem pollCycle_state (state : PollState) (sensor : Sensor) :
    (poller.pollCycle probes state).1.baseline sensor = poller.nextBaseline probes state sensor ∧
      (sensor.name ∈ (poller.pollCycle probes state).1.failed ↔
        poller.FailsNext probes state sensor) := by
  obtain ⟨hbaseline, hfailed⟩ := (pollSensors_spec poller probes state).2 sensor
  rw [← hbaseline, ← hfailed, pollCycle]
  constructor
  · split_ifs <;> cases sensor <;> rfl
  · split_ifs <;> rfl

end Poller
end Kovert
