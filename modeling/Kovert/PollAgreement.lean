import Kovert.PollRuns

/-!
# The snapshot follows the probes

From its default fields the snapshot agrees, after every cycle, with the last
successful probe of each required sensor. The invariant is that each sensor's
part of the snapshot is in step with the baseline the poller compares with;
which events are sent then depends on the sensor, and together they always
carry the snapshot to the new value.
-/

namespace Kovert

open Replay

def mountPaths (mounts : MountMap) : Finset (List Component) :=
  (mounts.map (fun entry => entry.1.components)).toFinset

/-- The snapshot shows what the probe of the sensor returned. -/
def Sensor.Agrees (requirements : SensorRequirements) :
    (sensor : Sensor) → sensor.Value → SystemSnapshot → Prop
  | .wifi, value, snapshot => snapshot.wifiConnected = value.connected ∧
      snapshot.wifiSsid = value.ssid ∧ snapshot.wifiBssid = value.bssid
  | .network, value, snapshot => snapshot.networkOnline = value.online ∧
      snapshot.activeInterface = value.interface ∧ snapshot.vpnActive = value.vpn
  | .usb, _, _ => True
  | .mounts, value, snapshot => snapshot.mounts = mountPaths value
  | .processes, value, snapshot =>
      ∀ entry ∈ value, (entry.1 ∈ snapshot.processes ↔ entry.2 = true)
  | .services, value, snapshot => ∀ entry ∈ value, snapshot.services entry.1 = some entry.2
  | .ports, value, snapshot => snapshot.ports ∩ requirements.ports = value
  | .sessions, value, snapshot => snapshot.sessionState = some value.state ∧
      snapshot.sessionUser = value.user ∧ snapshot.sessionRemote = value.remote
  | .power, value, snapshot => snapshot.onAc = value.onAc ∧
      snapshot.batteryPercent = value.batteryPercent ∧ snapshot.lidClosed = value.lidClosed

/-- The view of a sensor shows its baseline, as far as there is one. -/
def Sensor.InStep (requirements : SensorRequirements) :
    (sensor : Sensor) → sensor.Baseline → sensor.View → Prop
  | .wifi, baseline, view => ∀ value, baseline = some value → view = value
  | .network, baseline, view => ∀ value, baseline = some value → view = value
  | .usb, _, _ => True
  | .mounts, baseline, view => view = mountPaths baseline
  | .processes, baseline, view => ∀ entry ∈ baseline, (entry.1 ∈ view ↔ entry.2 = true)
  | .services, baseline, view => ∀ entry ∈ baseline, view entry.1 = some entry.2
  | .ports, baseline, view => ∀ port ∈ requirements.ports, (port ∈ view ↔ port ∈ baseline)
  | .sessions, baseline, view =>
      ∀ value, baseline = some value → view = (some value.state, value.user, value.remote)
  | .power, baseline, view => ∀ value, baseline = some value → view = value

/-- What a first cycle asks of a view. Mounts are only ever added in it; the
other sensors report their whole value. -/
def Sensor.Resyncable : (sensor : Sensor) → sensor.Value → sensor.View → Prop
  | .mounts, value, view => view ⊆ mountPaths value
  | _, _, _ => True

/-! ## Mounts -/

theorem mem_mountPaths {mounts : MountMap} {path : List Component} :
    path ∈ mountPaths mounts ↔ ∃ entry ∈ mounts, entry.1.components = path := by
  simp [mountPaths]

theorem containsKey_iff {mounts : MountMap} {path : PathBuf} :
    mounts.containsKey path = true ↔ path.components ∈ mountPaths mounts := by
  simp [MountMap.containsKey, mem_mountPaths, PathBuf.pathEq]

def mountWrite (action : DeviceAction) (entry : PathBuf × Option String) :
    List Component × Bool :=
  (entry.1.components, action ≠ .removed)

theorem foldl_mounts (action : DeviceAction) (entries : MountMap)
    (view : Finset (List Component)) :
    (entries.map (mountEvent action)).foldl (Sensor.update .mounts) view =
      (entries.map (mountWrite action)).foldl Keyed.members.write view := by
  rw [List.foldl_map, List.foldl_map]
  rfl

/-- The first cycle adds the mounts that it finds and removes none. -/
theorem mounts_added (value : MountMap) (view : Finset (List Component)) :
    (value.map (mountEvent .added)).foldl (Sensor.update .mounts) view = view ∪ mountPaths value := by
  rw [foldl_mounts]
  ext path
  apply Keyed.mem_foldl_write
  · intro write hwrite hpath
    obtain ⟨entry, hentry, rfl⟩ := List.mem_map.mp hwrite
    have hin : path ∈ mountPaths value := mem_mountPaths.mpr ⟨entry, hentry, hpath⟩
    simp [mountWrite, hin]
  · by_cases hin : path ∈ mountPaths value
    · obtain ⟨entry, hentry, hpath⟩ := mem_mountPaths.mp hin
      exact Or.inl ⟨_, List.mem_map.mpr ⟨entry, hentry, rfl⟩, hpath⟩
    · exact Or.inr (by simp [hin])

theorem containsKey_false_iff {mounts : MountMap} {path : PathBuf} :
    (!mounts.containsKey path) = true ↔ path.components ∉ mountPaths mounts := by
  rw [Bool.not_eq_true', Bool.eq_false_iff, Ne, containsKey_iff]

/-- The mounts of a table whose path is not among those of another. -/
def MountMap.missingFrom (mounts other : MountMap) : MountMap :=
  mounts.filter (fun entry => !other.containsKey entry.1)

theorem mem_missingFrom {mounts other : MountMap} {path : List Component}
    (hin : path ∈ mountPaths mounts) (hout : path ∉ mountPaths other) :
    ∃ entry ∈ mounts.missingFrom other, entry.1.components = path := by
  obtain ⟨entry, hentry, hpath⟩ := mem_mountPaths.mp hin
  exact ⟨entry, List.mem_filter.mpr ⟨hentry, containsKey_false_iff.mpr (hpath ▸ hout)⟩, hpath⟩

/-- A path is reported in one of the two directions, or the baseline is right about it. -/
theorem mount_reported_or_held (previous value : MountMap) (path : List Component) :
    (∃ entry ∈ value.missingFrom previous, entry.1.components = path) ∨
      (∃ entry ∈ previous.missingFrom value, entry.1.components = path) ∨
      (path ∈ mountPaths previous ↔ path ∈ mountPaths value) := by
  by_cases hin : path ∈ mountPaths value
  · by_cases hwas : path ∈ mountPaths previous
    · exact Or.inr (Or.inr (iff_of_true hwas hin))
    · exact Or.inl (mem_missingFrom hin hwas)
  · by_cases hwas : path ∈ mountPaths previous
    · exact Or.inr (Or.inl (mem_missingFrom hwas hin))
    · exact Or.inr (Or.inr (iff_of_false hwas hin))

/-- Later cycles report the difference to the baseline in both directions. -/
theorem mounts_changed (previous value : MountMap) :
    ((value.missingFrom previous).map (mountEvent .added) ++
      (previous.missingFrom value).map (mountEvent .removed)).foldl (Sensor.update .mounts)
        (mountPaths previous) = mountPaths value := by
  rw [List.foldl_append, foldl_mounts, foldl_mounts, ← List.foldl_append]
  ext path
  apply Keyed.mem_foldl_write
  · intro write hwrite hpath
    rcases List.mem_append.mp hwrite with hwrite | hwrite
    · obtain ⟨entry, hentry, rfl⟩ := List.mem_map.mp hwrite
      have hin : path ∈ mountPaths value :=
        mem_mountPaths.mpr ⟨entry, (List.mem_filter.mp hentry).1, hpath⟩
      simp [mountWrite, hin]
    · obtain ⟨entry, hentry, rfl⟩ := List.mem_map.mp hwrite
      have hout : path ∉ mountPaths value :=
        hpath ▸ containsKey_false_iff.mp (List.mem_filter.mp hentry).2
      simp [mountWrite, hout]
  · rcases mount_reported_or_held previous value path with
      ⟨entry, hentry, hpath⟩ | ⟨entry, hentry, hpath⟩ | hheld
    · exact Or.inl ⟨_, List.mem_append_left _ (List.mem_map.mpr ⟨entry, hentry, rfl⟩), hpath⟩
    · exact Or.inl ⟨_, List.mem_append_right _ (List.mem_map.mpr ⟨entry, hentry, rfl⟩), hpath⟩
    · exact Or.inr hheld

/-! ## Ports -/

def portWrite (value : PortSet) (port : NetworkProtocol × UInt16) :
    (NetworkProtocol × UInt16) × Bool :=
  (port, port ∈ value)

/-- Ports that are reported, or on which the view is right already, are right afterwards. -/
theorem ports_reported {value : PortSet} {ports : List (NetworkProtocol × UInt16)}
    {view : PortSet} {port : NetworkProtocol × UInt16}
    (h : port ∈ ports ∨ (port ∈ view ↔ port ∈ value)) :
    port ∈ (ports.map (portEvent value)).foldl (Sensor.update .ports) view ↔ port ∈ value := by
  have hwrites : (ports.map (portEvent value)).foldl (Sensor.update .ports) view =
      (ports.map (portWrite value)).foldl Keyed.members.write view := by
    rw [List.foldl_map, List.foldl_map]
    rfl
  rw [hwrites]
  apply Keyed.mem_foldl_write
  · intro write hwrite hport
    obtain ⟨other, _, rfl⟩ := List.mem_map.mp hwrite
    rw [← hport]
    exact decide_eq_true_iff
  · rcases h with hin | hheld
    · exact Or.inl ⟨_, List.mem_map.mpr ⟨port, hin, rfl⟩, rfl⟩
    · exact Or.inr hheld

theorem port_reported_or_held (value previous : PortSet) (port : NetworkProtocol × UInt16) :
    port ∈ symmDiff value previous ∨ (port ∈ previous ↔ port ∈ value) := by
  rw [Finset.mem_symmDiff]
  by_cases hin : port ∈ value
  · by_cases hwas : port ∈ previous
    · exact Or.inr (iff_of_true hwas hin)
    · exact Or.inl (Or.inl ⟨hin, hwas⟩)
  · by_cases hwas : port ∈ previous
    · exact Or.inl (Or.inr ⟨hwas, hin⟩)
    · exact Or.inr (iff_of_false hwas hin)

/-! ## Processes and services -/

theorem mem_flagMap {names : Finset String} {up : String → Bool} {entry : String × Bool} :
    entry ∈ flagMap names up ↔ entry.1 ∈ names ∧ entry.2 = up entry.1 := by
  obtain ⟨name, flag⟩ := entry
  simp only [flagMap, List.mem_map, Finset.mem_sort, Prod.mk.injEq]
  constructor
  · rintro ⟨_, hname, rfl, rfl⟩
    exact ⟨hname, rfl⟩
  · rintro ⟨hname, rfl⟩
    exact ⟨name, hname, rfl, rfl⟩

/-- An entry is reported, or the baseline holds it. -/
theorem reported_or_held {first : Bool} {previous value : FlagMap} {entry : String × Bool}
    (h : entry ∈ value) :
    entry ∈ value.filter (fun entry => first || previous.lookup entry.1 != some entry.2) ∨
      first = false ∧ entry ∈ previous := by
  by_cases hreported : (first || previous.lookup entry.1 != some entry.2) = true
  · exact Or.inl (List.mem_filter.mpr ⟨h, hreported⟩)
  · obtain ⟨hfirst, hlookup⟩ : first = false ∧ previous.lookup entry.1 = some entry.2 := by
      simpa using hreported
    obtain ⟨before, later, heq, _⟩ := List.lookup_eq_some_iff.mp hlookup
    exact Or.inr ⟨hfirst, by simp [heq]⟩

theorem processes_reported {names : Finset String} {up : String → Bool} {reported : FlagMap}
    {view : Finset String} {entry : String × Bool} (hentry : entry ∈ flagMap names up)
    (hsub : ∀ other ∈ reported, other ∈ flagMap names up)
    (h : entry ∈ reported ∨ (entry.1 ∈ view ↔ entry.2 = true)) :
    entry.1 ∈ (reported.map (fun entry => EventKind.process entry.1 entry.2 none)).foldl
      (Sensor.update .processes) view ↔ entry.2 = true := by
  have hwrites : (reported.map (fun entry => EventKind.process entry.1 entry.2 none)).foldl
      (Sensor.update .processes) view = reported.foldl Keyed.members.write view := by
    rw [List.foldl_map]
    rfl
  rw [hwrites]
  apply Keyed.mem_foldl_write
  · intro other hother hname
    rw [(mem_flagMap.mp (hsub other hother)).2, (mem_flagMap.mp hentry).2, hname]
  · rcases h with hin | hheld
    · exact Or.inl ⟨entry, hin, rfl⟩
    · exact Or.inr hheld

theorem services_reported {names : Finset String} {up : String → Bool} {reported : FlagMap}
    {view : String → Option Bool} {entry : String × Bool} (hentry : entry ∈ flagMap names up)
    (hsub : ∀ other ∈ reported, other ∈ flagMap names up)
    (h : entry ∈ reported ∨ view entry.1 = some entry.2) :
    (reported.map (fun entry => EventKind.service entry.1 entry.2)).foldl
      (Sensor.update .services) view entry.1 = some entry.2 := by
  have hwrites : (reported.map (fun entry => EventKind.service entry.1 entry.2)).foldl
      (Sensor.update .services) view =
      (reported.map (fun entry => (entry.1, some entry.2))).foldl Keyed.cells.write view := by
    rw [List.foldl_map, List.foldl_map]
    rfl
  rw [hwrites]
  apply Keyed.cell_foldl_write
  · intro write hwrite hname
    obtain ⟨other, hother, rfl⟩ := List.mem_map.mp hwrite
    rw [(mem_flagMap.mp hentry).2, ← hname, (mem_flagMap.mp (hsub other hother)).2]
  · rcases h with hin | hheld
    · exact Or.inl ⟨_, List.mem_map.mpr ⟨entry, hin, rfl⟩, rfl⟩
    · exact Or.inr hheld

/-! ## One report -/

theorem exists_of_map_ok {α β : Type} {result : Except String α} {f : α → β} {b : β}
    (h : result.map f = .ok b) : ∃ a, f a = b := by
  cases result with
  | error message => cases h
  | ok a => exact ⟨a, Except.ok.inj h⟩

/-- A report that is only made on a change still leaves the view at the value. -/
theorem foldl_if_changed {α β : Type} [DecidableEq α] {first : Bool} {previous : Option α}
    {value : α} {kinds : List EventKind} {u : β → EventKind → β} {view target : β}
    (hreported : kinds.foldl u view = target)
    (hheld : first = false → previous = some value → view = target) :
    (if first = true ∨ previous ≠ some value then kinds else []).foldl u view = target := by
  split_ifs with hchanged
  · exact hreported
  · obtain ⟨hfirst, hsame⟩ := not_or.mp hchanged
    exact hheld (Bool.eq_false_iff.mpr hfirst) (not_not.mp hsame)

/-- Whatever a sensor reports carries its view to the value of the probe, if
the view was in step with the baseline or the cycle is a first one. -/
theorem Sensor.report_inStep {requirements : SensorRequirements} {first : Bool} {sensor : Sensor}
    {probes : Probes} {previous : sensor.Baseline} {value : sensor.Value} {view : sensor.View}
    (hvalue : probes.result requirements sensor = .ok value)
    (hfirst : first = true → sensor.Resyncable value view)
    (hlater : first = false → sensor.InStep requirements previous view) :
    sensor.InStep requirements (sensor.keep value)
      ((sensor.report requirements first previous value).foldl sensor.update view) := by
  cases sensor with
  | wifi =>
      rintro _ ⟨⟩
      exact foldl_if_changed rfl fun hf hsame => hlater hf value hsame
  | network =>
      rintro _ ⟨⟩
      exact foldl_if_changed rfl fun hf hsame => hlater hf value hsame
  | usb => trivial
  | mounts =>
      cases first with
      | true => exact (mounts_added value view).trans (Finset.union_eq_right.mpr (hfirst rfl))
      | false =>
          obtain rfl : view = mountPaths previous := hlater rfl
          exact mounts_changed previous value
  | processes =>
      obtain ⟨up, rfl⟩ := exists_of_map_ok hvalue
      intro entry hentry
      refine processes_reported hentry (fun other hother => (List.mem_filter.mp hother).1) ?_
      rcases reported_or_held hentry with hin | ⟨hf, hheld⟩
      · exact Or.inl hin
      · exact Or.inr (hlater hf entry hheld)
  | services =>
      obtain ⟨up, rfl⟩ := exists_of_map_ok hvalue
      intro entry hentry
      refine services_reported hentry (fun other hother => (List.mem_filter.mp hother).1) ?_
      rcases reported_or_held hentry with hin | ⟨hf, hheld⟩
      · exact Or.inl hin
      · exact Or.inr (hlater hf entry hheld)
  | ports =>
      intro port hport
      cases first with
      | true => exact ports_reported (Or.inl (mem_inKeyOrder.mpr hport))
      | false =>
          rcases port_reported_or_held value previous port with hin | hheld
          · exact ports_reported (Or.inl (mem_inKeyOrder.mpr hin))
          · exact ports_reported (Or.inr ((hlater rfl port hport).trans hheld))
  | sessions =>
      rintro _ ⟨⟩
      refine foldl_if_changed ?_ fun hf hsame => hlater hf value hsame
      rw [List.foldl_append]
      rfl
  | power =>
      rintro _ ⟨⟩
      exact foldl_if_changed rfl fun hf hsame => hlater hf value hsame

/-- A view in step with a probed value is agreement of the snapshot with it. -/
theorem Sensor.agrees_iff {requirements : SensorRequirements} {sensor : Sensor} {probes : Probes}
    {value : sensor.Value} (hvalue : probes.result requirements sensor = .ok value)
    (snapshot : SystemSnapshot) :
    sensor.Agrees requirements value snapshot ↔
      sensor.InStep requirements (sensor.keep value) (sensor.view snapshot) := by
  cases sensor with
  | usb => exact Iff.rfl
  | mounts => exact Iff.rfl
  | processes => exact Iff.rfl
  | services => exact Iff.rfl
  | ports =>
      obtain ⟨listening, rfl⟩ := exists_of_map_ok hvalue
      simp only [Agrees, InStep, keep, view, Finset.ext_iff, Finset.mem_inter, openPorts,
        Finset.mem_filter]
      constructor
      · intro h port hport
        simpa [hport] using h port
      · intro h port
        constructor
        · rintro ⟨hin, hport⟩
          exact (h port hport).mp hin
        · rintro ⟨hport, hlistens⟩
          exact ⟨(h port hport).mpr ⟨hport, hlistens⟩, hport⟩
  | _ =>
      cases value
      simp [Agrees, InStep, keep, view]

/-! ## Runs -/

/-- The fields that the sensors write are those of a fresh snapshot. -/
def DefaultSensorFields (snapshot : SystemSnapshot) : Prop :=
  snapshot = { SystemSnapshot.default snapshot.now with
    mode := snapshot.mode
    sensorHealth := snapshot.sensorHealth }

theorem inStep_default (requirements : SensorRequirements) (sensor : Sensor)
    {snapshot : SystemSnapshot} (h : DefaultSensorFields snapshot) :
    sensor.InStep requirements (PollState.default.baseline sensor) (sensor.view snapshot) := by
  rw [h]
  cases sensor with
  | usb => trivial
  | mounts => rfl
  | processes => exact List.forall_mem_nil _
  | services => exact List.forall_mem_nil _
  | ports => exact fun _ _ => Iff.rfl
  | _ => exact fun _ hnone => by cases hnone

theorem resyncable_of_default {requirements : SensorRequirements} {sensor : Sensor}
    {view : sensor.View}
    (h : sensor.InStep requirements (PollState.default.baseline sensor) view)
    (value : sensor.Value) : sensor.Resyncable value view := by
  cases sensor with
  | mounts =>
      rw [Sensor.Resyncable, show view = ∅ from h]
      exact Finset.empty_subset _
  | _ => trivial

namespace Poller

variable {poller : Poller} {between : Event → Prop} {polled : Polled} {cycle : Cycle}
  {sensor : Sensor}

/-- The view of a sensor whose probe succeeds, after the cycle. -/
theorem view_after_ok {value : sensor.Value}
    (hbetween : ∀ event, between event → event.kind.inert = true)
    (hw : Woven Event.emission between (poller.pollCycle cycle.probes polled.state).2 cycle.events)
    (hrequired : sensor.required poller.requirements = true)
    (hok : cycle.probes.result poller.requirements sensor = .ok value) :
    sensor.view (poller.advance polled cycle).snapshot =
      (sensor.report poller.requirements (!polled.state.initialized)
        (polled.state.baseline sensor) value).foldl sensor.update (sensor.view polled.snapshot) := by
  have hkinds : ∀ kinds : List EventKind,
      (kinds.map (Emission.mk sensor.name)).map Emission.kind = kinds := by
    intro kinds
    rw [List.map_map]
    exact List.map_id kinds
  rw [advance, view_after_cycle poller cycle.probes hbetween hw,
    sensorEvents_ok poller cycle.probes polled.state hrequired hok, hkinds]

/-- A sensor whose probe fails leaves its view alone. -/
theorem view_after_error {message : String}
    (hbetween : ∀ event, between event → event.kind.inert = true)
    (hw : Woven Event.emission between (poller.pollCycle cycle.probes polled.state).2 cycle.events)
    (hrequired : sensor.required poller.requirements = true)
    (herror : cycle.probes.result poller.requirements sensor = .error message) :
    sensor.view (poller.advance polled cycle).snapshot = sensor.view polled.snapshot := by
  rw [advance, view_after_cycle poller cycle.probes hbetween hw,
    sensorEvents_error poller cycle.probes polled.state hrequired herror]
  split_ifs
  · rfl
  · exact Sensor.update_other (fun h => by cases h) _

/-- What a run keeps of a required sensor. -/
structure Tracks (poller : Poller) (sensor : Sensor) (cycles : List Cycle) (polled : Polled) :
    Prop where
  inStep : sensor.InStep poller.requirements (polled.state.baseline sensor)
    (sensor.view polled.snapshot)
  last : ∀ value, poller.lastValue sensor cycles = some value →
    polled.state.baseline sensor = sensor.keep value
  fresh : polled.state.initialized = false →
    polled.state.baseline sensor = PollState.default.baseline sensor

theorem Tracks.advance {cycles : List Cycle} (h : Tracks poller sensor cycles polled)
    (hbetween : ∀ event, between event → event.kind.inert = true)
    (hw : Woven Event.emission between (poller.pollCycle cycle.probes polled.state).2 cycle.events)
    (hrequired : sensor.required poller.requirements = true) :
    Tracks poller sensor (cycles ++ [cycle]) (poller.advance polled cycle) := by
  have hbaseline : (poller.advance polled cycle).state.baseline sensor =
      poller.nextBaseline cycle.probes polled.state sensor :=
    (pollCycle_state poller cycle.probes polled.state sensor).1
  cases hresult : cycle.probes.result poller.requirements sensor with
  | ok value =>
      have hnext : (poller.advance polled cycle).state.baseline sensor = sensor.keep value := by
        rw [hbaseline, nextBaseline, if_pos hrequired, hresult]
      refine ⟨?_, ?_, fun hfresh => by cases hfresh⟩
      · rw [hnext, view_after_ok hbetween hw hrequired hresult]
        apply Sensor.report_inStep hresult
        · intro hfirst
          have hfresh := h.fresh (by simpa using hfirst)
          exact resyncable_of_default (hfresh ▸ h.inStep) value
        · intro _
          exact h.inStep
      · intro last hlast
        rw [lastValue_snoc, hresult] at hlast
        rw [hnext, ← Option.some.inj hlast]
  | error message =>
      have hnext : (poller.advance polled cycle).state.baseline sensor =
          polled.state.baseline sensor := by
        rw [hbaseline, nextBaseline, if_pos hrequired, hresult]
      refine ⟨?_, ?_, fun hfresh => by cases hfresh⟩
      · rw [hnext, view_after_error hbetween hw hrequired hresult]
        exact h.inStep
      · intro last hlast
        rw [lastValue_snoc, hresult] at hlast
        rw [hnext]
        exact h.last last hlast

end Poller

/-- After any cycles the snapshot agrees with the last successful probe of every required sensor. -/
theorem snapshot_follows_probes (poller : Poller) (snapshot : SystemSnapshot)
    (cycles : List Cycle) (hsnapshot : DefaultSensorFields snapshot)
    (hrun : poller.Delivers (fun event => event.kind.inert = true) snapshot cycles)
    (sensor : Sensor) (hrequired : sensor.required poller.requirements = true)
    (value : sensor.Value) (hlast : poller.lastValue sensor cycles = some value) :
    sensor.Agrees poller.requirements value (poller.after snapshot cycles).snapshot := by
  have htracks : poller.Tracks sensor cycles (poller.after snapshot cycles) := by
    refine hrun.invariant (I := poller.Tracks sensor) ?_ ?_
    · refine ⟨inStep_default _ _ hsnapshot, ?_, fun _ => rfl⟩
      intro value hnone
      cases hnone
    · intro cycles cycle h hw
      exact h.advance (fun _ hinert => hinert) hw hrequired
  obtain ⟨cycle, _, hok⟩ := List.exists_of_findSome?_eq_some hlast
  have hprobed : cycle.probes.result poller.requirements sensor = .ok value := by
    cases hresult : cycle.probes.result poller.requirements sensor with
    | ok found => rw [hresult] at hok; cases hok; rfl
    | error message => rw [hresult] at hok; cases hok
  rw [Sensor.agrees_iff hprobed, ← htracks.last value hlast]
  exact htracks.inStep

def mountPoller : Poller := testPoller { SensorRequirements.default with mounts := true }

/-- The host with one mount. -/
def vaultMounted : Probes := { downProbes with mounts := .ok [(⟨"/mnt/vault"⟩, some "vault")] }

def vaultUnmounted : Probes := { downProbes with mounts := .ok [] }

/-- A failed first cycle, a mount, and another failure. -/
theorem snapshot_follows_probes_mount :
    (mountPoller.after (.default 0)
      (mountPoller.plainCycles (.default 0) [downProbes, vaultMounted, downProbes])).snapshot.mounts =
      mountPaths [(⟨"/mnt/vault"⟩, some "vault")] := by
  have hlast : mountPoller.lastValue .mounts (mountPoller.plainCycles (.default 0)
      [downProbes, vaultMounted, downProbes]) = some [(⟨"/mnt/vault"⟩, some "vault")] := rfl
  exact snapshot_follows_probes mountPoller (.default 0) _ rfl
    (mountPoller.delivers_plainCycles _ _ _) .mounts rfl _ hlast

/-! ## A fresh poller on an old snapshot -/

/-- The snapshot agrees with what was probed of mounts, ports, processes and services. -/
def Resynced (requirements : SensorRequirements) (probes : Probes) (snapshot : SystemSnapshot) :
    Prop :=
  ∀ sensor ∈ [Sensor.mounts, .ports, .processes, .services],
    sensor.required requirements = true → ∀ value, probes.result requirements sensor = .ok value →
      sensor.Agrees requirements value snapshot

/-- The first cycle of a fresh poller brings an old snapshot up to date exactly
when the snapshot holds no mount that is gone. -/
theorem first_cycle_resyncs_iff (poller : Poller) (snapshot : SystemSnapshot) (cycle : Cycle)
    (hrun : poller.Delivers (fun event => event.kind.inert = true) snapshot [cycle]) :
    Resynced poller.requirements cycle.probes (poller.after snapshot [cycle]).snapshot ↔
      (poller.requirements.mounts = true → ∀ value, cycle.probes.mounts = .ok value →
        snapshot.mounts ⊆ mountPaths value) := by
  have hw := hrun [] cycle [] rfl
  have hview : ∀ sensor : Sensor, sensor.required poller.requirements = true →
      ∀ value, cycle.probes.result poller.requirements sensor = .ok value →
      sensor.view (poller.after snapshot [cycle]).snapshot =
        (sensor.report poller.requirements true (PollState.default.baseline sensor) value).foldl
          sensor.update (sensor.view snapshot) :=
    fun sensor hrequired value hok =>
      Poller.view_after_ok (fun _ hinert => hinert) hw hrequired hok
  constructor
  · intro h hrequired value hok
    have hmounts : (poller.after snapshot [cycle]).snapshot.mounts = mountPaths value :=
      h .mounts (by simp) hrequired value hok
    have hadded : (poller.after snapshot [cycle]).snapshot.mounts =
        snapshot.mounts ∪ mountPaths value :=
      (hview .mounts hrequired value hok).trans (mounts_added value _)
    rw [← hmounts, hadded]
    exact Finset.subset_union_left
  · intro h sensor _ hrequired value hok
    rw [Sensor.agrees_iff hok, hview sensor hrequired value hok]
    refine Sensor.report_inStep hok (fun _ => ?_) (fun hlater => by cases hlater)
    cases sensor with
    | mounts => exact h hrequired value hok
    | _ => trivial

theorem first_cycle_resyncs_mount :
    (mountPoller.after (.default 0)
      (mountPoller.plainCycles (.default 0) [vaultMounted])).snapshot.mounts =
      mountPaths [(⟨"/mnt/vault"⟩, some "vault")] := by
  have hresynced := (first_cycle_resyncs_iff mountPoller (.default 0) _
    (mountPoller.delivers_plainCycles _ (.default 0) [vaultMounted])).mpr
    (fun _ _ _ => Finset.empty_subset _)
  exact hresynced .mounts (by simp) rfl _ rfl

/-- What the poller of an earlier configuration left behind. -/
def vaultSnapshot : SystemSnapshot :=
  (mountPoller.after (.default 0) (mountPoller.plainCycles (.default 0) [vaultMounted])).snapshot

/-- The vault is unmounted while the poller is replaced, and stays in the snapshot. -/
theorem stale_mount_survives :
    mountPoller.Delivers (fun event => event.kind.inert = true) vaultSnapshot
        (mountPoller.plainCycles vaultSnapshot [vaultUnmounted]) ∧
      PathBuf.components ⟨"/mnt/vault"⟩ ∈ (mountPoller.after vaultSnapshot
        (mountPoller.plainCycles vaultSnapshot [vaultUnmounted])).snapshot.mounts ∧
      ¬ Resynced mountPoller.requirements vaultUnmounted (mountPoller.after vaultSnapshot
        (mountPoller.plainCycles vaultSnapshot [vaultUnmounted])).snapshot := by
  have hstale : PathBuf.components ⟨"/mnt/vault"⟩ ∈ (mountPoller.after vaultSnapshot
      (mountPoller.plainCycles vaultSnapshot [vaultUnmounted])).snapshot.mounts := by
    decide +kernel
  refine ⟨mountPoller.delivers_plainCycles _ _ _, hstale, ?_⟩
  intro h
  have hmounts : _ = mountPaths [] := h .mounts (by simp) rfl [] rfl
  rw [hmounts] at hstale
  cases hstale

end Kovert
