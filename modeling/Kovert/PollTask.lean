import Kovert.HostProbes
import Kovert.SnapshotHistory

/-!
# The polling task

The loop of `polling::spawn`: a tick, a cycle, and what the cycle has found. A
cycle that panics is reported and loses the state of the poller, and a reload
starts a new task; in both cases a fresh poller meets the snapshot that an earlier
one left. Whatever that is, the next successful probes bring it up to date, mounts
that are gone apart.
-/

namespace Kovert

open Replay History

/-- A turn of the loop: the host that the cycle probes, or the message of the panic
that ends its blocking task, and the events that reach the engine. -/
structure Turn where
  answer : Except String PollHost
  events : List Event

namespace Poller

variable (poller : Poller)

/-- The loop body: the next state, and what is sent. -/
def turn (answer : Except String PollHost) (state : PollState) : PollState × List Emission :=
  match answer with
  | .ok host =>
    let (next, emissions) := poller.pollCycle (host.probes poller.requirements) state
    (next, ⟨"time", .tick⟩ :: emissions)
  | .error message =>
    (.default, [⟨"time", .tick⟩, ⟨"polling", .sensorFailure "polling" message⟩])

/-- What the last successful probe of the sensor returned. -/
def lastProbe (sensor : Sensor) (turns : List Turn) : Option sensor.Value :=
  turns.reverse.findSome? (fun turn =>
    turn.answer.toOption.bind (fun host => (host.probe poller.requirements sensor).toOption))

end Poller

/-- The view shows at least what the baseline holds. -/
def Sensor.Covers (requirements : SensorRequirements) :
    (sensor : Sensor) → sensor.Baseline → sensor.View → Prop
  | .mounts, baseline, view => mountPaths baseline ⊆ view
  | sensor, baseline, view => sensor.InStep requirements baseline view

namespace Sensor

variable {requirements : SensorRequirements}

/-- Nothing is held against a fresh poller but its claim that no port is open. -/
theorem covers_default {sensor : Sensor} (hports : sensor ≠ .ports) (view : sensor.View) :
    sensor.Covers requirements (PollState.default.baseline sensor) view := by
  cases sensor with
  | ports => exact absurd rfl hports
  | mounts => exact Finset.empty_subset _
  | usb => trivial
  | processes => exact List.forall_mem_nil _
  | services => exact List.forall_mem_nil _
  | _ => exact fun _ hnone => by cases hnone

/-- No report of the mounts takes away a mount that was found. -/
theorem mounts_changed_covers {previous value : MountMap} {view : Finset (List Component)}
    (h : mountPaths previous ⊆ view) :
    mountPaths value ⊆ ((value.missingFrom previous).map (mountEvent .added) ++
      (previous.missingFrom value).map (mountEvent .removed)).foldl (Sensor.update .mounts)
        view := by
  intro path hpath
  rw [List.foldl_append, foldl_mounts, foldl_mounts, ← List.foldl_append]
  refine (Keyed.mem_foldl_write (p := True) ?_ ?_).mpr trivial
  · intro write hwrite hsame
    rcases List.mem_append.mp hwrite with hwrite | hwrite
    · obtain ⟨entry, _, rfl⟩ := List.mem_map.mp hwrite
      simp [mountWrite]
    · obtain ⟨entry, hentry, rfl⟩ := List.mem_map.mp hwrite
      have hgone : entry.1.components ∉ mountPaths value :=
        containsKey_false_iff.mp (List.mem_filter.mp hentry).2
      obtain rfl : entry.1.components = path := hsame
      exact absurd hpath hgone
  · by_cases hwas : path ∈ mountPaths previous
    · exact Or.inr (iff_of_true (h hwas) trivial)
    · obtain ⟨entry, hentry, hsame⟩ := mem_missingFrom hpath hwas
      exact Or.inl ⟨_, List.mem_append_left _ (List.mem_map.mpr ⟨entry, hentry, rfl⟩), hsame⟩

theorem report_covers {first : Bool} {sensor : Sensor} {probes : Probes}
    {previous : sensor.Baseline} {value : sensor.Value} {view : sensor.View}
    (hvalue : probes.result requirements sensor = .ok value)
    (hlater : first = false → sensor.Covers requirements previous view) :
    sensor.Covers requirements (sensor.keep value)
      ((sensor.report requirements first previous value).foldl sensor.update view) := by
  cases sensor with
  | mounts =>
      cases first with
      | true =>
          change _ ⊆ (value.map (mountEvent .added)).foldl _ view
          rw [mounts_added]
          exact Finset.subset_union_right
      | false => exact mounts_changed_covers (hlater rfl)
  | usb => trivial
  | _ => exact Sensor.report_inStep hvalue (fun _ => trivial) hlater

end Sensor

/-! ## Turns -/

namespace Poller

variable {poller : Poller} {sensor : Sensor}

/-- What the turns keep of a required sensor, whatever snapshot they started from. -/
structure Follows (poller : Poller) (sensor : Sensor) (turns : List Turn) (polled : Polled) :
    Prop where
  last : ∀ value, poller.lastProbe sensor turns = some value →
    sensor.Covers poller.requirements (sensor.keep value) (sensor.view polled.snapshot)
  held : polled.state.initialized = true →
    sensor.Covers poller.requirements (polled.state.baseline sensor) (sensor.view polled.snapshot)
  fresh : polled.state.initialized = false →
    polled.state.baseline sensor = PollState.default.baseline sensor

/-- A cycle leaves the view covering the baseline, and a probed value with it. -/
theorem Follows.advance {turns : List Turn} {polled : Polled} {cycle : Cycle}
    (h : poller.Follows sensor turns polled)
    (hw : Woven Event.emission (fun event => event.kind.inert = true)
      (poller.pollCycle cycle.probes polled.state).2 cycle.events)
    (hrequired : sensor.required poller.requirements = true)
    (hports : ∀ message, cycle.probes.result poller.requirements sensor = .error message →
      sensor ≠ .ports) :
    sensor.Covers poller.requirements ((poller.advance polled cycle).state.baseline sensor)
      (sensor.view (poller.advance polled cycle).snapshot) := by
  have hbaseline : (poller.advance polled cycle).state.baseline sensor =
      poller.nextBaseline cycle.probes polled.state sensor :=
    (pollCycle_state poller cycle.probes polled.state sensor).1
  rw [hbaseline, nextBaseline, if_pos hrequired]
  cases hresult : cycle.probes.result poller.requirements sensor with
  | ok value =>
      rw [view_after_ok (fun _ hinert => hinert) hw hrequired hresult]
      exact Sensor.report_covers hresult fun hlater => h.held (by simpa using hlater)
  | error message =>
      rw [view_after_error (fun _ hinert => hinert) hw hrequired hresult]
      cases hinitialized : polled.state.initialized with
      | true => exact h.held hinitialized
      | false =>
          change sensor.Covers _ (polled.state.baseline sensor) _
          rw [h.fresh hinitialized]
          exact Sensor.covers_default (hports message hresult) _

end Poller

/-! ## The runtime behind the task -/

end Kovert
