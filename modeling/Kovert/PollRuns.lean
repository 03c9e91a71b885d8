import Kovert.SnapshotViews
import Kovert.Foundations.History

/-!
# Runs of a poller

A run is a list of cycles. Each cycle has the answers of the host and the
events that reach the engine: those that the poller emits, in order, with
events of other origin in between.
-/

namespace Kovert

open Replay History

structure Cycle where
  probes : Probes
  events : List Event

/-- The poller's own state and the snapshot that its events are applied to. -/
structure Polled where
  state : PollState
  snapshot : SystemSnapshot

namespace Poller

variable (poller : Poller)

def advance (polled : Polled) (cycle : Cycle) : Polled where
  state := (poller.pollCycle cycle.probes polled.state).1
  snapshot := cycle.events.foldl SystemSnapshot.apply polled.snapshot

/-- A fresh poller on this snapshot, after the cycles. -/
def after (snapshot : SystemSnapshot) (cycles : List Cycle) : Polled :=
  cycles.foldl poller.advance ⟨.default, snapshot⟩

/-- Every cycle delivers the events that the poller emits in it, with events
that satisfy `between` in between. -/
def Delivers (between : Event → Prop) (snapshot : SystemSnapshot) (cycles : List Cycle) : Prop :=
  Lawful (fun before cycle => Woven Event.emission between
    (poller.pollCycle cycle.probes (poller.after snapshot before).state).2 cycle.events) cycles

/-- What the last successful probe of the sensor returned. -/
def lastValue (sensor : Sensor) (cycles : List Cycle) : Option sensor.Value :=
  cycles.reverse.findSome? (fun cycle =>
    (cycle.probes.result poller.requirements sensor).toOption)

variable {poller}

theorem after_snoc (snapshot : SystemSnapshot) (cycles : List Cycle) (cycle : Cycle) :
    poller.after snapshot (cycles ++ [cycle]) =
      poller.advance (poller.after snapshot cycles) cycle := by
  rw [after, List.foldl_append]
  rfl

theorem lastValue_snoc (sensor : Sensor) (cycles : List Cycle) (cycle : Cycle) :
    poller.lastValue sensor (cycles ++ [cycle]) =
      (cycle.probes.result poller.requirements sensor).toOption.or
        (poller.lastValue sensor cycles) := by
  rw [lastValue, List.reverse_append, List.findSome?_append]
  cases h : (cycle.probes.result poller.requirements sensor).toOption <;>
    simp [lastValue, h]

/-- What holds at the start and is kept by every cycle holds after the run. -/
theorem Delivers.invariant {between : Event → Prop} {snapshot : SystemSnapshot}
    {I : List Cycle → Polled → Prop} (hstart : I [] ⟨.default, snapshot⟩)
    (hcycle : ∀ cycles cycle, I cycles (poller.after snapshot cycles) →
      Woven Event.emission between
        (poller.pollCycle cycle.probes (poller.after snapshot cycles).state).2 cycle.events →
      I (cycles ++ [cycle]) (poller.advance (poller.after snapshot cycles) cycle))
    {cycles : List Cycle} (h : poller.Delivers between snapshot cycles) :
    I cycles (poller.after snapshot cycles) := by
  induction cycles using List.reverseRecOn with
  | nil => exact hstart
  | append_singleton cycles cycle ih =>
      obtain ⟨h, hlast⟩ := lawful_snoc.mp h
      rw [after_snoc]
      exact hcycle cycles cycle (ih h) hlast

/-! ## The poller alone -/

variable (poller) in
/-- A fresh poller after the cycles with these answers. -/
def stateAfter (answers : List Probes) : PollState :=
  answers.foldl (fun state probes => (poller.pollCycle probes state).1) .default

variable (poller) in
/-- What the last successful probe of the sensor returned. -/
def lastAnswer (sensor : Sensor) (answers : List Probes) : Option sensor.Value :=
  answers.reverse.findSome? (fun probes => (probes.result poller.requirements sensor).toOption)

theorem stateAfter_snoc (answers : List Probes) (probes : Probes) :
    poller.stateAfter (answers ++ [probes]) =
      (poller.pollCycle probes (poller.stateAfter answers)).1 := by
  rw [stateAfter, List.foldl_append]
  rfl

theorem lastAnswer_snoc (sensor : Sensor) (answers : List Probes) (probes : Probes) :
    poller.lastAnswer sensor (answers ++ [probes]) =
      (probes.result poller.requirements sensor).toOption.or
        (poller.lastAnswer sensor answers) := by
  rw [lastAnswer, List.reverse_append, List.findSome?_append]
  cases h : (probes.result poller.requirements sensor).toOption <;> simp [lastAnswer, h]

/-- Any cycle ends the first-cycle behaviour, whatever its probes return. -/
theorem stateAfter_initialized (answers : List Probes) :
    (poller.stateAfter answers).initialized = !answers.isEmpty := by
  induction answers using List.reverseRecOn with
  | nil => rfl
  | append_singleton answers probes _ =>
      have hsome : (answers ++ [probes]).isEmpty = false := by simp
      rw [stateAfter_snoc, hsome]
      rfl

theorem stateAfter_baseline {sensor : Sensor}
    (hrequired : sensor.required poller.requirements = true) (answers : List Probes) :
    (poller.stateAfter answers).baseline sensor =
      (poller.lastAnswer sensor answers).elim (PollState.default.baseline sensor) sensor.keep := by
  induction answers using List.reverseRecOn with
  | nil => rfl
  | append_singleton answers probes ih =>
      rw [stateAfter_snoc, (pollCycle_state _ _ _ _).1, nextBaseline, if_pos hrequired,
        lastAnswer_snoc]
      cases probes.result poller.requirements sensor with
      | ok value => rfl
      | error message => exact ih

/-- Once the sensor has been read, a cycle reports a new value against the last one. -/
theorem mem_pollCycle_later {sensor : Sensor} {before : List Probes} {probes : Probes}
    {previous value : sensor.Value} {emission : Emission}
    (hrequired : sensor.required poller.requirements = true)
    (hlast : poller.lastAnswer sensor before = some previous)
    (hok : probes.result poller.requirements sensor = .ok value)
    (htopic : emission.kind.topic = some sensor) :
    emission ∈ (poller.pollCycle probes (poller.stateAfter before)).2 ↔
      emission.source = sensor.name ∧
        emission.kind ∈ sensor.report poller.requirements false (sensor.keep previous) value := by
  have hlater : (!(poller.stateAfter before).initialized) = false := by
    rw [stateAfter_initialized, Bool.not_not, List.isEmpty_eq_false_iff]
    rintro rfl
    cases hlast
  rw [mem_pollCycle_of_topic poller probes htopic, hlater, stateAfter_baseline hrequired, hlast,
    hok]
  constructor
  · rintro ⟨_, found, hfound, hsource, hkind⟩
    cases hfound
    exact ⟨hsource, hkind⟩
  · rintro ⟨hsource, hkind⟩
    exact ⟨hrequired, value, rfl, hsource, hkind⟩

end Poller

/-! ## Runs in which only the poller speaks -/


def Emission.stamp (emission : Emission) : Event where
  id := 0
  timestamp := 0
  source := emission.source
  kind := emission.kind

/-- The cycle that delivers exactly what the poller emits. -/
def Poller.plainCycle (poller : Poller) (state : PollState) (probes : Probes) : Cycle where
  probes := probes
  events := (poller.pollCycle probes state).2.map Emission.stamp

def Poller.plainCycles (poller : Poller) (snapshot : SystemSnapshot) (answers : List Probes) :
    List Cycle :=
  answers.foldl (fun cycles probes =>
    cycles ++ [poller.plainCycle (poller.after snapshot cycles).state probes]) []

theorem Poller.delivers_plainCycles (poller : Poller) (between : Event → Prop)
    (snapshot : SystemSnapshot) (answers : List Probes) :
    poller.Delivers between snapshot (poller.plainCycles snapshot answers) := by
  induction answers using List.reverseRecOn with
  | nil => exact lawful_nil _
  | append_singleton answers probes ih =>
      rw [plainCycles, List.foldl_append]
      refine lawful_snoc.mpr ⟨ih, ?_⟩
      have hwoven := Woven.of_map Event.emission between
        ((poller.pollCycle probes (poller.after snapshot (poller.plainCycles snapshot
          answers)).state).2.map Emission.stamp)
      rwa [List.map_map, show Event.emission ∘ Emission.stamp = id from rfl, List.map_id] at hwoven

/-- A host on which every probe fails. -/
def downProbes : Probes where
  wifi := .error "unavailable"
  network := .error "unavailable"
  usb := .error "unavailable"
  mounts := .error "unavailable"
  processes := .error "unavailable"
  services := .error "unavailable"
  ports := .error "unavailable"
  sessions := .error "unavailable"
  power := .error "unavailable"
  configuration := .error "unavailable"
  binary := .error "unavailable"

def testPoller (requirements : SensorRequirements) : Poller where
  requirements := requirements
  configPath := ⟨"/etc/kovert/kovert.toml"⟩
  executable := ⟨"/usr/bin/kovertd"⟩
  blake3 := fun bytes => String.ofList (bytes.map (fun byte => Char.ofNat byte.toNat))

end Kovert
