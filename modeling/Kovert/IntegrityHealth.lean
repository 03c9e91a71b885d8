import Kovert.Engine
import Kovert.PollHealth
import Kovert.PollFailures

/-!
# Health of the checked files

The integrity check keeps the hash of each file and reports a file whose hash
has changed. It never reports a file that is as it was, and nothing else speaks
in the name of the two components, so a component becomes unhealthy with its
first change and never becomes healthy.
-/

namespace Kovert

open Replay History

/-- The two files that the integrity check reads. -/
inductive CheckedFile where
  | configuration
  | binary
  deriving DecidableEq, Repr

namespace CheckedFile

/-- The component under which the check reports the file. -/
def name : CheckedFile → String
  | .configuration => "configuration"
  | .binary => "binary"

def contents (probes : Probes) : CheckedFile → Except String (List UInt8)
  | .configuration => probes.configuration
  | .binary => probes.binary

def slot (state : PollState) : CheckedFile → Option String
  | .configuration => state.configHash
  | .binary => state.binaryHash

theorem name_ne_integrity (file : CheckedFile) : file.name ≠ "integrity" := by
  cases file <;> decide

theorem name_ne_sensor (file : CheckedFile) (sensor : Sensor) : sensor.name ≠ file.name := by
  cases file <;> cases sensor <;> decide

end CheckedFile

/-- An event that says nothing about the file and does not come from it. -/
def CheckedFile.Silent (file : CheckedFile) (event : Event) : Prop :=
  event.kind.inert = true ∧ event.source ≠ file.name

namespace Poller

variable (poller : Poller) (file : CheckedFile)

/-- All reads of the file gave the same bytes. -/
def Unchanged (cycles : List Cycle) : Prop :=
  ∃ bytes, ∀ cycle ∈ cycles, file.contents cycle.probes = .ok bytes

/-- There is a hash of the file, and it is not that of the bytes. -/
def changedFrom (slot : Option String) (bytes : List UInt8) : Bool :=
  slot.any (fun previous => previous != poller.blake3 bytes)

/-- After the cycle the file counts as healthy exactly when it has not changed. -/
def FileTracks (snapshot : SystemSnapshot) (before : List Cycle) (cycle : Cycle) : Prop :=
  ∀ host, conditionMatches host (.sensorHealthy file.name true)
      (poller.after snapshot (before ++ [cycle])).snapshot = true ↔
    Unchanged file (before ++ [cycle])

/-- The hash tells the contents apart that the run reads from the file. -/
def HashSeparates (cycles : List Cycle) : Prop :=
  ∀ left ∈ cycles, ∀ right ∈ cycles, ∀ x y, file.contents left.probes = .ok x →
    file.contents right.probes = .ok y → poller.blake3 x = poller.blake3 y → x = y

variable {poller} {file}

/-! ## One cycle -/

/-- The check of one file moves the health of that file alone, and only by a changed hash. -/
theorem foldl_checkIntegrity {name : String} (hname : name ≠ "integrity") (component : String)
    (path : PathBuf) (slot : Option String) (contents : Except String (List UInt8))
    (health : Option Bool) :
    (poller.checkIntegrity component path slot contents).2.foldl (healthUpdate name) health =
      if component = name ∧ contents.toOption.any (poller.changedFrom slot) = true then some false
      else health := by
  cases contents with
  | error message => simp [checkIntegrity, healthUpdate, hname.symm, Except.toOption]
  | ok bytes =>
      have hany : (Except.ok bytes : Except String _).toOption.any (poller.changedFrom slot) =
          slot.any (fun previous => previous != poller.blake3 bytes) := rfl
      rw [hany, checkIntegrity]
      cases slot.any (fun previous => previous != poller.blake3 bytes) with
      | false => simp
      | true =>
          by_cases hcomponent : component = name
          · simp [healthUpdate, hcomponent]
          · simp [healthUpdate, hcomponent, hname.symm]

theorem foldl_integrityEvents (hrequired : poller.requirements.integrity = true)
    {probes : Probes} {state : PollState} {bytes : List UInt8}
    (hread : file.contents probes = .ok bytes) (health : Option Bool) :
    (poller.integrityEvents probes state).foldl (healthUpdate file.name) health =
      if poller.changedFrom (file.slot state) bytes = true then some false else health := by
  rw [integrityEvents, if_pos hrequired, probeIntegrity, List.foldl_append,
    foldl_checkIntegrity file.name_ne_integrity, foldl_checkIntegrity file.name_ne_integrity]
  cases file with
  | configuration =>
      rw [show probes.configuration = .ok bytes from hread]
      simp [CheckedFile.name, CheckedFile.slot, Except.toOption]
      rfl
  | binary =>
      rw [show probes.binary = .ok bytes from hread]
      simp [CheckedFile.name, CheckedFile.slot, Except.toOption]
      rfl

theorem pollCycle_slot (hrequired : poller.requirements.integrity = true) {probes : Probes}
    (state : PollState) {bytes : List UInt8} (hread : file.contents probes = .ok bytes) :
    file.slot (poller.pollCycle probes state).1 = some (poller.blake3 bytes) := by
  rw [pollCycle]
  simp only [hrequired, if_true]
  cases file with
  | configuration =>
      rw [CheckedFile.slot, probeIntegrity, show probes.configuration = .ok bytes from hread]
      rfl
  | binary =>
      rw [CheckedFile.slot, probeIntegrity, show probes.binary = .ok bytes from hread]
      rfl

variable {polled : Polled} {cycle : Cycle}

theorem fileHealth_after_cycle (hrequired : poller.requirements.integrity = true)
    {bytes : List UInt8} (hread : file.contents cycle.probes = .ok bytes)
    (hw : Woven Event.emission file.Silent (poller.pollCycle cycle.probes polled.state).2
      cycle.events) :
    (poller.advance polled cycle).snapshot.sensorHealth file.name =
      if poller.changedFrom (file.slot polled.state) bytes = true then some false
      else polled.snapshot.sensorHealth file.name := by
  have hwoven := foldl_woven hw (f := fun snapshot => snapshot.sensorHealth file.name)
    (sensorHealth_apply file.name)
    (fun event hsilent _ => healthUpdate_inert hsilent.1 hsilent.2) polled.snapshot
  refine hwoven.trans ?_
  have hsensors : ∀ emission ∈ Sensor.all.flatMap (poller.sensorEvents cycle.probes polled.state),
      ∀ health, healthUpdate file.name health emission = health := by
    intro emission hemission health
    obtain ⟨sensor, _, hmem⟩ := List.mem_flatMap.mp hemission
    have hname := file.name_ne_sensor sensor
    obtain ⟨hsource, htopic | ⟨message, hkind⟩⟩ := sensorEvents_mem poller cycle.probes hmem
    · rw [healthUpdate_topic htopic, hsource, if_neg hname]
    · simp only [healthUpdate, hkind, hsource, if_neg hname]
  rw [pollCycle_events, List.foldl_append, foldl_ignored hsensors,
    foldl_integrityEvents hrequired hread]

/-! ## Runs -/

/-- Where a run whose reads all succeed stands with the file. -/
structure FileStands (poller : Poller) (file : CheckedFile) (snapshot : SystemSnapshot)
    (cycles : List Cycle) (polled : Polled) : Prop where
  slot : ∀ before cycle, cycles = before ++ [cycle] → ∃ bytes,
    file.contents cycle.probes = .ok bytes ∧ file.slot polled.state = some (poller.blake3 bytes)
  fresh : cycles = [] → file.slot polled.state = none
  healthy : Unchanged file cycles →
    polled.snapshot.sensorHealth file.name = snapshot.sensorHealth file.name
  unhealthy : ¬ Unchanged file cycles → polled.snapshot.sensorHealth file.name = some false

theorem unchanged_snoc {cycles : List Cycle} {bytes : List UInt8}
    (hbytes : file.contents cycle.probes = .ok bytes) :
    Unchanged file (cycles ++ [cycle]) ↔
      ∀ other ∈ cycles, file.contents other.probes = .ok bytes := by
  constructor
  · rintro ⟨same, hsame⟩ other hother
    have hcycle := hsame cycle (by simp)
    rw [hbytes] at hcycle
    rw [hsame other (List.mem_append_left _ hother), hcycle]
  · intro hall
    refine ⟨bytes, fun other hother => ?_⟩
    rcases List.mem_append.mp hother with hother | hother
    · exact hall other hother
    · rw [List.mem_singleton.mp hother]
      exact hbytes

namespace FileStands

variable {snapshot : SystemSnapshot} {cycles : List Cycle} {bytes : List UInt8}

theorem unchanged_quiet (hstands : FileStands poller file snapshot cycles polled)
    (hall : ∀ other ∈ cycles, file.contents other.probes = .ok bytes) :
    poller.changedFrom (file.slot polled.state) bytes = false := by
  rcases List.eq_nil_or_concat cycles with hnil | ⟨before, last, heq⟩
  · rw [hstands.fresh hnil]
    rfl
  · obtain ⟨kept, hkept, hslot⟩ := hstands.slot before last (by simpa using heq)
    have hlast := hall last (by simp [heq])
    rw [hkept] at hlast
    cases hlast
    simp [hslot, changedFrom]

/-- The first change of a file that was unchanged so far is noticed. -/
theorem first_change_noticed (hstands : FileStands poller file snapshot cycles polled)
    (hbytes : file.contents cycle.probes = .ok bytes)
    (hhash : poller.HashSeparates file (cycles ++ [cycle])) (hbefore : Unchanged file cycles)
    (hchanged : ¬ Unchanged file (cycles ++ [cycle])) :
    poller.changedFrom (file.slot polled.state) bytes = true := by
  rw [unchanged_snoc hbytes] at hchanged
  rcases List.eq_nil_or_concat cycles with hnil | ⟨before, last, heq⟩
  · subst hnil
    exact absurd (List.forall_mem_nil _) hchanged
  · obtain ⟨kept, hkept, hslot⟩ := hstands.slot before last (by simpa using heq)
    have hlast : last ∈ cycles := by simp [heq]
    have hne : kept ≠ bytes := by
      intro heq
      obtain ⟨same, hsame⟩ := hbefore
      have hsame_last := hsame last hlast
      rw [hkept, heq] at hsame_last
      exact hchanged (fun other hother => (hsame other hother).trans hsame_last.symm)
    have hhashes : poller.blake3 kept ≠ poller.blake3 bytes := fun heq =>
      hne (hhash last (List.mem_append_left _ hlast) cycle (by simp) kept bytes hkept hbytes heq)
    simp [hslot, changedFrom, hhashes]

end FileStands

theorem fileStands (hrequired : poller.requirements.integrity = true) {snapshot : SystemSnapshot}
    {cycles : List Cycle} (hrun : poller.Delivers file.Silent snapshot cycles)
    (hread : ∀ cycle ∈ cycles, ∃ bytes, file.contents cycle.probes = .ok bytes)
    (hhash : poller.HashSeparates file cycles) :
    FileStands poller file snapshot cycles (poller.after snapshot cycles) := by
  induction cycles using List.reverseRecOn with
  | nil =>
      refine ⟨fun before cycle h => by simp at h, fun _ => ?_, fun _ => rfl, ?_⟩
      · cases file <;> rfl
      · intro h
        exact absurd ⟨[], List.forall_mem_nil _⟩ h
  | append_singleton cycles cycle ih =>
      obtain ⟨hrun, hw⟩ := lawful_snoc.mp hrun
      obtain ⟨bytes, hbytes⟩ := hread cycle (by simp)
      have hbefore := ih hrun (fun other hother => hread other (List.mem_append_left _ hother))
        (fun left hleft right hright => hhash left (List.mem_append_left _ hleft) right
          (List.mem_append_left _ hright))
      have hhealth := fileHealth_after_cycle hrequired hbytes hw
      rw [after_snoc]
      refine ⟨?_, ?_, ?_, ?_⟩
      · intro before last heq
        obtain ⟨-, hlast⟩ := List.append_inj' heq rfl
        cases hlast
        exact ⟨bytes, hbytes, pollCycle_slot hrequired _ hbytes⟩
      · intro hnil
        simp at hnil
      · intro hsame
        rw [hhealth, hbefore.unchanged_quiet ((unchanged_snoc hbytes).mp hsame)]
        obtain ⟨same, hsame⟩ := hsame
        have hprefix : Unchanged file cycles :=
          ⟨same, fun other hother => hsame other (List.mem_append_left _ hother)⟩
        exact hbefore.healthy hprefix
      · intro hchanged
        rw [hhealth]
        by_cases hsame : Unchanged file cycles
        · rw [if_pos (hbefore.first_change_noticed hbytes hhash hsame hchanged)]
        · rw [hbefore.unhealthy hsame]
          exact ite_self _

/-- After a cycle the file counts as healthy while it is unchanged and the
snapshot had it as healthy at the start. -/
theorem fileHealthy_iff {snapshot : SystemSnapshot} {cycles : List Cycle}
    (hstands : FileStands poller file snapshot cycles (poller.after snapshot cycles)) :
    (poller.after snapshot cycles).snapshot.sensorHealth file.name = some true ↔
      Unchanged file cycles ∧ snapshot.sensorHealth file.name = some true := by
  by_cases hsame : Unchanged file cycles
  · rw [hstands.healthy hsame]
    exact (and_iff_right hsame).symm
  · rw [hstands.unhealthy hsame]
    simp [hsame]

end Poller

/-- The health of a checked file tells whether it has changed, after every cycle
of a run, exactly when the snapshot had the file as healthy before the first one. -/
theorem integrity_health_iff (poller : Poller) (file : CheckedFile) (snapshot : SystemSnapshot)
    (cycles : List Cycle) (hrequired : poller.requirements.integrity = true)
    (hrun : poller.Delivers file.Silent snapshot cycles)
    (hread : ∀ cycle ∈ cycles, ∃ bytes, file.contents cycle.probes = .ok bytes)
    (hhash : poller.HashSeparates file cycles) :
    Lawful (poller.FileTracks file snapshot) cycles ↔
      (cycles = [] ∨ snapshot.sensorHealth file.name = some true) := by
  have hstands : ∀ before cycle later, cycles = before ++ cycle :: later →
      Poller.FileStands poller file snapshot (before ++ [cycle])
        (poller.after snapshot (before ++ [cycle])) := by
    intro before cycle later heq
    have heq : cycles = (before ++ [cycle]) ++ later := by simpa using heq
    subst heq
    refine Poller.fileStands hrequired hrun.of_append ?_ ?_
    · exact fun other hother => hread other (List.mem_append_left _ hother)
    · exact fun left hleft right hright =>
        hhash left (List.mem_append_left _ hleft) right (List.mem_append_left _ hright)
  constructor
  · intro h
    rcases cycles with _ | ⟨cycle, later⟩
    · exact Or.inl rfl
    · right
      obtain ⟨bytes, hbytes⟩ := hread cycle (by simp)
      have hsame : Poller.Unchanged file [cycle] :=
        ⟨bytes, fun other hother => List.mem_singleton.mp hother ▸ hbytes⟩
      have hhealthy := (h [] cycle later rfl bareHost).mpr hsame
      rw [Poller.conditionMatches_healthy, Poller.fileHealthy_iff (hstands [] cycle later rfl)]
        at hhealthy
      exact hhealthy.2
  · rintro (hnil | hstart) before cycle later heq host
    · simp [hnil] at heq
    · rw [Poller.conditionMatches_healthy, Poller.fileHealthy_iff (hstands before cycle later heq)]
      exact and_iff_left hstart

def readProbes (bytes : List UInt8) : Probes :=
  { downProbes with configuration := .ok bytes }

/-- A snapshot that has every component as healthy, and a file that changes once. -/
theorem integrity_health_recorded :
    let snapshot := { SystemSnapshot.default 0 with sensorHealth := fun _ => some true }
    Lawful (integrityPoller.FileTracks .configuration snapshot)
      (integrityPoller.plainCycles snapshot [readProbes [7], readProbes [8]]) := by
  intro snapshot
  have hbytes : ∀ cycle ∈ integrityPoller.plainCycles snapshot [readProbes [7], readProbes [8]],
      cycle.probes.configuration = .ok [7] ∨ cycle.probes.configuration = .ok [8] := by
    intro cycle hcycle
    rcases List.mem_cons.mp hcycle with rfl | hcycle
    · exact Or.inl rfl
    · rw [List.mem_singleton.mp hcycle]
      exact Or.inr rfl
  refine (integrity_health_iff integrityPoller .configuration snapshot _ rfl
    (integrityPoller.delivers_plainCycles _ _ _) ?_ ?_).mpr (Or.inr rfl)
  · intro cycle hcycle
    rcases hbytes cycle hcycle with hread | hread
    · exact ⟨[7], hread⟩
    · exact ⟨[8], hread⟩
  · intro left hleft right hright x y hx hy hhash
    have hx' : x = [7] ∨ x = [8] := (hbytes left hleft).imp
      (fun hread => Except.ok.inj (hx.symm.trans hread))
      (fun hread => Except.ok.inj (hx.symm.trans hread))
    have hy' : y = [7] ∨ y = [8] := (hbytes right hright).imp
      (fun hread => Except.ok.inj (hy.symm.trans hread))
      (fun hread => Except.ok.inj (hy.symm.trans hread))
    rcases hx' with rfl | rfl <;> rcases hy' with rfl | rfl
    · rfl
    · exact absurd hhash (by decide)
    · exact absurd hhash (by decide)
    · rfl

/-- The first read of the file by a fresh poller on a fresh snapshot: the file is
as it was, and is not shown as healthy. -/
theorem unchanged_file_not_healthy :
    let cycles := integrityPoller.plainCycles (.default 0) [readProbes [7]]
    Poller.Unchanged .configuration cycles ∧
      (integrityPoller.after (.default 0) cycles).snapshot.sensorHealth "configuration" = none ∧
      ¬ Lawful (integrityPoller.FileTracks .configuration (.default 0)) cycles := by
  intro cycles
  have hsame : Poller.Unchanged .configuration cycles :=
    ⟨[7], fun cycle hcycle => by rw [List.mem_singleton.mp hcycle]; rfl⟩
  have hnone : (integrityPoller.after (.default 0) cycles).snapshot.sensorHealth "configuration" =
      none := by decide +kernel
  refine ⟨hsame, hnone, ?_⟩
  intro h
  have hhealthy := (h [] _ [] rfl bareHost).mpr hsame
  have hsome := Poller.conditionMatches_healthy.mp hhealthy
  exact Option.some_ne_none _ (hsome.symm.trans hnone)

end Kovert
