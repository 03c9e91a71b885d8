import Kovert.PollRuns

/-!
# Failure reports

`probe_value` remembers which sensors have failed, so that a failure is
reported once until the sensor succeeds again. The integrity check has no such
memory: it reports every read that fails, for both files and in every cycle.
-/

namespace Kovert

open Replay History

/-- The sensor whose failure the event reports. -/
def EventKind.failureOf : EventKind → Option String
  | .sensorFailure sensor _ => some sensor
  | _ => none

/-- The checks of a cycle: the probes, and the integrity check. -/
inductive Check where
  | probe (sensor : Sensor)
  | integrity
  deriving DecidableEq, Repr

/-- The name under which the check reports its failures. -/
def Check.name : Check → String
  | .probe sensor => sensor.name
  | .integrity => "integrity"

/-- How many of the two files could not be read. -/
def Probes.failedReads (probes : Probes) : ℕ :=
  (if probes.configuration.toOption.isNone then 1 else 0) +
    (if probes.binary.toOption.isNone then 1 else 0)

namespace Poller

variable (poller : Poller)

/-- The failures of the check that the next cycle reports. -/
def failures (before : List Probes) (probes : Probes) (check : Check) : List Emission :=
  (poller.pollCycle probes (poller.stateAfter before)).2.filter
    (fun emission => emission.kind.failureOf = some check.name)

/-- The check was made in the cycle, and succeeded. -/
def Succeeds (check : Check) (probes : Probes) : Prop :=
  match check with
  | .probe sensor => sensor.required poller.requirements = true ∧
      ∃ value, probes.result poller.requirements sensor = .ok value
  | .integrity => poller.requirements.integrity = true ∧ probes.failedReads = 0

/-- The cycle reports at most one failure of the check, and after an earlier
report only if the check succeeded in a cycle in between. -/
def ReportsTransition (check : Check) (before : List Probes) (probes : Probes) : Prop :=
  (poller.failures before probes check).length ≤ 1 ∧
    (poller.failures before probes check ≠ [] → ∀ early earlier between,
      before = early ++ earlier :: between → poller.failures early earlier check ≠ [] →
        ∃ cycle ∈ between, poller.Succeeds check cycle)

/-- At most one of the files cannot be read, and after an earlier failed read
only if there is a cycle in between in which both could. -/
def ReadsRecover (before : List Probes) (probes : Probes) : Prop :=
  probes.failedReads ≤ 1 ∧
    (probes.failedReads ≠ 0 → ∀ early earlier between, before = early ++ earlier :: between →
      earlier.failedReads ≠ 0 → ∃ cycle ∈ between, cycle.failedReads = 0)

variable {poller}

/-! ## The failures of one cycle -/

theorem failureOf_of_topic {kind : EventKind} {sensor : Sensor} (h : kind.topic = some sensor) :
    kind.failureOf = none := by
  cases kind <;> first | rfl | cases h

theorem filter_sensorEvents {probes : Probes} {state : PollState} {sensor : Sensor} {name : String}
    (h : sensor.name ≠ name) :
    (poller.sensorEvents probes state sensor).filter
      (fun emission => emission.kind.failureOf = some name) = [] := by
  rw [List.filter_eq_nil_iff]
  intro emission hemission hfailure
  obtain ⟨_, htopic | ⟨message, hkind⟩⟩ := sensorEvents_mem poller probes hemission
  · simp [failureOf_of_topic htopic] at hfailure
  · simp [hkind, EventKind.failureOf, h] at hfailure

theorem failures_probe (before : List Probes) (probes : Probes) (sensor : Sensor) :
    poller.failures before probes (.probe sensor) =
      (poller.sensorEvents probes (poller.stateAfter before) sensor).filter
        (fun emission => emission.kind.failureOf = some sensor.name) := by
  have hintegrity : (poller.integrityEvents probes (poller.stateAfter before)).filter
      (fun emission => emission.kind.failureOf = some sensor.name) = [] := by
    rw [List.filter_eq_nil_iff]
    intro emission hemission
    have hother : "integrity" ≠ sensor.name := by cases sensor <;> decide
    obtain ⟨_, ⟨component, detail, hkind, _⟩ | ⟨message, hkind⟩⟩ :=
      integrityEvents_mem poller probes hemission
    · simp [hkind, EventKind.failureOf]
    · simpa [hkind, EventKind.failureOf] using hother
  rw [failures, pollCycle_events, List.filter_append, Check.name, hintegrity, List.append_nil,
    List.filter_flatMap]
  refine flatMap_of_silent Sensor.nodup_all sensor.mem_all ?_
  intro other _ hne
  exact filter_sensorEvents fun h => hne (Sensor.name_injective h)

/-- A probe is reported as failed when it fails and had not failed before. -/
theorem failures_probe_ne_nil {before : List Probes} {probes : Probes} {sensor : Sensor}
    (h : poller.failures before probes (.probe sensor) ≠ []) :
    sensor.required poller.requirements = true ∧
      (∃ message, probes.result poller.requirements sensor = .error message) ∧
      sensor.name ∉ (poller.stateAfter before).failed := by
  rw [failures_probe] at h
  cases hrequired : sensor.required poller.requirements with
  | false =>
      rw [sensorEvents_off poller probes _ hrequired] at h
      exact absurd rfl h
  | true =>
      cases hresult : probes.result poller.requirements sensor with
      | ok value =>
          rw [sensorEvents_ok poller probes _ hrequired hresult] at h
          refine absurd (List.filter_eq_nil_iff.mpr ?_) h
          intro emission hemission
          obtain ⟨kind, hkind, rfl⟩ := List.mem_map.mp hemission
          simp [failureOf_of_topic (Sensor.report_topic _ _ _ _ _ kind hkind)]
      | error message =>
          refine ⟨rfl, ⟨message, rfl⟩, ?_⟩
          intro hfailed
          rw [sensorEvents_error poller probes _ hrequired hresult, if_pos hfailed] at h
          exact absurd rfl h

theorem failures_probe_length (before : List Probes) (probes : Probes) (sensor : Sensor) :
    (poller.failures before probes (.probe sensor)).length ≤ 1 := by
  by_cases hempty : poller.failures before probes (.probe sensor) = []
  · simp [hempty]
  · obtain ⟨hrequired, ⟨message, herror⟩, hfresh⟩ := failures_probe_ne_nil hempty
    rw [failures_probe, sensorEvents_error poller probes _ hrequired herror, if_neg hfresh]
    exact List.length_filter_le _ _

/-- A failed sensor stays failed until a probe succeeds. -/
theorem failed_persists {answers between : List Probes} {sensor : Sensor}
    (hrequired : sensor.required poller.requirements = true)
    (hfailed : sensor.name ∈ (poller.stateAfter answers).failed)
    (hno : ∀ cycle ∈ between, ¬ poller.Succeeds (.probe sensor) cycle) :
    sensor.name ∈ (poller.stateAfter (answers ++ between)).failed := by
  induction between using List.reverseRecOn with
  | nil => rwa [List.append_nil]
  | append_singleton between probes _ =>
      rw [← List.append_assoc, stateAfter_snoc, (pollCycle_state _ _ _ _).2, FailsNext,
        if_pos hrequired]
      cases hresult : probes.result poller.requirements sensor with
      | ok value => exact hno probes (by simp) ⟨hrequired, value, hresult⟩
      | error message => trivial

theorem reportsTransition_probe (before : List Probes) (probes : Probes) (sensor : Sensor) :
    poller.ReportsTransition (.probe sensor) before probes := by
  refine ⟨failures_probe_length before probes sensor, ?_⟩
  intro hnow early earlier between hbefore hthen
  obtain ⟨hrequired, _, hfresh⟩ := failures_probe_ne_nil hnow
  obtain ⟨_, ⟨message, herror⟩, _⟩ := failures_probe_ne_nil hthen
  by_contra hno
  have hmarked : sensor.name ∈ (poller.stateAfter (early ++ [earlier])).failed := by
    rw [stateAfter_snoc, (pollCycle_state _ _ _ _).2, FailsNext, if_pos hrequired, herror]
    trivial
  apply hfresh
  rw [hbefore, List.append_cons]
  exact failed_persists hrequired hmarked fun cycle hcycle hok => hno ⟨cycle, hcycle, hok⟩

/-! ## The integrity check -/

theorem failures_integrity (before : List Probes) (probes : Probes) :
    poller.failures before probes .integrity =
      (poller.integrityEvents probes (poller.stateAfter before)).filter
        (fun emission => emission.kind.failureOf = some "integrity") := by
  have hsensors : (Sensor.all.flatMap
      (poller.sensorEvents probes (poller.stateAfter before))).filter
      (fun emission => emission.kind.failureOf = some "integrity") = [] := by
    rw [List.filter_flatMap, List.flatMap_eq_nil_iff]
    intro sensor _
    exact filter_sensorEvents (by cases sensor <;> decide)
  rw [failures, pollCycle_events, List.filter_append, Check.name, hsensors, List.nil_append]

theorem checkIntegrity_failures (component : String) (path : PathBuf) (slot : Option String)
    (contents : Except String (List UInt8)) :
    ((poller.checkIntegrity component path slot contents).2.filter
      (fun emission => emission.kind.failureOf = some "integrity")).length =
      if contents.toOption.isNone then 1 else 0 := by
  cases contents with
  | ok bytes =>
      rw [checkIntegrity]
      cases slot.any (fun previous => previous != poller.blake3 bytes) <;> rfl
  | error message => rfl

theorem failures_integrity_length (before : List Probes) (probes : Probes) :
    (poller.failures before probes .integrity).length =
      if poller.requirements.integrity then probes.failedReads else 0 := by
  rw [failures_integrity, integrityEvents]
  split_ifs
  · rw [probeIntegrity, List.filter_append, List.length_append, checkIntegrity_failures,
      checkIntegrity_failures, Probes.failedReads]
  · rfl

theorem reportsTransition_integrity (before : List Probes) (probes : Probes) :
    poller.ReportsTransition .integrity before probes ↔
      (poller.requirements.integrity = true → ReadsRecover before probes) := by
  have hnil : ∀ before probes, poller.failures before probes .integrity ≠ [] ↔
      (if poller.requirements.integrity then probes.failedReads else 0) ≠ 0 := by
    intro before probes
    rw [← failures_integrity_length before probes]
    exact List.length_eq_zero_iff.not.symm
  simp only [ReportsTransition, failures_integrity_length, hnil]
  cases hrequired : poller.requirements.integrity with
  | false => simp
  | true => simp [ReadsRecover, Succeeds, hrequired]

end Poller

/-- Every check reports its failures only on transition exactly when the file
reads, if they are made at all, never fail again before a cycle without failures. -/
theorem failures_on_transition_iff (poller : Poller) (answers : List Probes) :
    (∀ check, Lawful (poller.ReportsTransition check) answers) ↔
      (poller.requirements.integrity = true → Lawful Poller.ReadsRecover answers) := by
  constructor
  · intro h hrequired before probes later heq
    exact (Poller.reportsTransition_integrity before probes).mp
      (h .integrity before probes later heq) hrequired
  · intro h check before probes later heq
    cases check with
    | probe sensor => exact Poller.reportsTransition_probe before probes sensor
    | integrity =>
        refine (Poller.reportsTransition_integrity before probes).mpr ?_
        intro hrequired
        exact h hrequired before probes later heq

def integrityPoller : Poller := testPoller { SensorRequirements.default with integrity := true }

/-- The configuration file cannot be read in two cycles in a row: both report it. -/
theorem integrity_failure_repeats :
    let gone : Probes := { downProbes with binary := .ok [] }
    integrityPoller.failures [] gone .integrity =
        [⟨"integrity", .sensorFailure "integrity" "read /etc/kovert/kovert.toml: unavailable"⟩] ∧
      integrityPoller.failures [gone] gone .integrity =
        [⟨"integrity", .sensorFailure "integrity" "read /etc/kovert/kovert.toml: unavailable"⟩] ∧
      ¬ Lawful (integrityPoller.ReportsTransition .integrity) [gone, gone] := by
  intro gone
  have hfirst : integrityPoller.failures [] gone .integrity =
      [⟨"integrity", .sensorFailure "integrity"
        "read /etc/kovert/kovert.toml: unavailable"⟩] := by decide +kernel
  have hsecond : integrityPoller.failures [gone] gone .integrity =
      [⟨"integrity", .sensorFailure "integrity"
        "read /etc/kovert/kovert.toml: unavailable"⟩] := by decide +kernel
  refine ⟨hfirst, hsecond, ?_⟩
  intro h
  obtain ⟨_, hafter⟩ := h [gone] gone [] rfl
  obtain ⟨cycle, hcycle, _⟩ := hafter (by rw [hsecond]; exact List.cons_ne_nil _ _) [] gone [] rfl
    (by rw [hfirst]; exact List.cons_ne_nil _ _)
  cases hcycle

end Kovert
