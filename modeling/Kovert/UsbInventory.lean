import Kovert.PollRuns
import Kovert.Probing

/-!
# USB events

The inventory is a set of devices, each known by its ids and serial number, and
a later cycle reports the difference of two inventories. Entries that read the
same are one device to it: an event tells of the first one plugged in and of
the last one taken away.
-/

namespace Kovert

/-- The probe of the entries listed without an error. -/
def listedUsb (entries : List UsbEntry) : Except String (Finset UsbDevice) :=
  probeUsb (.ok (entries.map .ok))

/-- How many entries read as the device. -/
def deviceCount (entries : List UsbEntry) (device : UsbDevice) : ℕ :=
  entries.countP (fun entry => entry.isDevice && decide (entry.device = device))

theorem mem_foldl_usb {entries : List UsbEntry} {devices : Finset UsbDevice}
    {device : UsbDevice} :
    device ∈ entries.foldl UsbEntry.scan devices ↔
      device ∈ devices ∨ 0 < deviceCount entries device := by
  induction entries generalizing devices with
  | nil => simp [deviceCount]
  | cons entry entries ih =>
      have hcount : 0 < deviceCount (entry :: entries) device ↔
          (entry.isDevice = true ∧ entry.device = device) ∨ 0 < deviceCount entries device := by
        simp only [deviceCount, List.countP_pos_iff, List.mem_cons, exists_eq_or_imp,
          Bool.and_eq_true, decide_eq_true_eq]
      have hscan : device ∈ UsbEntry.scan devices entry ↔
          device ∈ devices ∨ entry.isDevice = true ∧ entry.device = device := by
        rw [UsbEntry.scan]
        cases entry.isDevice with
        | true => simp [or_comm, eq_comm]
        | false => simp
      rw [List.foldl_cons, ih, hcount, hscan, or_assoc]

theorem listedUsb_eq (entries : List UsbEntry) :
    listedUsb entries = .ok (entries.foldl UsbEntry.scan ∅) := by
  rw [listedUsb, probeUsb, scanDirectory_ok]

/-- The inventory has the devices of which there is an entry. -/
theorem mem_inventory {entries : List UsbEntry} {device : UsbDevice} :
    device ∈ entries.foldl UsbEntry.scan ∅ ↔ 0 < deviceCount entries device := by
  rw [mem_foldl_usb]
  exact or_iff_right (Finset.notMem_empty device)

theorem mem_map_usbEvent {action action' : DeviceAction} {devices : Finset UsbDevice}
    {device : UsbDevice} :
    usbEvent action device ∈ (usbOrder devices).map (usbEvent action') ↔
      action' = action ∧ device ∈ devices := by
  rw [List.mem_map]
  constructor
  · rintro ⟨other, hmem, heq⟩
    injection heq with haction hvendor hproduct hserial
    have hsame : other = device := by
      cases other
      cases device
      cases hvendor
      cases hproduct
      cases hserial
      rfl
    exact ⟨haction, hsame ▸ mem_inKeyOrder.mp hmem⟩
  · rintro ⟨rfl, hmem⟩
    exact ⟨device, mem_inKeyOrder.mpr hmem, rfl⟩

theorem usbEvent_emitted_iff {poller : Poller} {before : List Probes} {probes : Probes}
    {previous value : Finset UsbDevice} (hrequired : poller.requirements.usb = true)
    (hlast : poller.lastAnswer .usb before = some previous) (hok : probes.usb = .ok value)
    (action : DeviceAction) (device : UsbDevice) :
    ⟨"usb", usbEvent action device⟩ ∈ (poller.pollCycle probes (poller.stateAfter before)).2 ↔
      action = .added ∧ device ∈ value \ previous ∨
        action = .removed ∧ device ∈ previous \ value := by
  have hsensor : Sensor.usb.required poller.requirements = true := hrequired
  have htopic : (usbEvent action device).topic = some .usb := rfl
  rw [Poller.mem_pollCycle_later hsensor hlast hok htopic]
  refine (and_iff_right rfl).trans ?_
  change usbEvent action device ∈ (usbOrder (value \ previous)).map (usbEvent .added) ++
    (usbOrder (previous \ value)).map (usbEvent .removed) ↔ _
  rw [List.mem_append, mem_map_usbEvent, mem_map_usbEvent, eq_comm, eq_comm (b := action)]

/-- Between two consecutive successful polls a device is reported as added when its first entry
appears, and as removed when its last one is gone. -/
theorem usb_changes_reported (poller : Poller) (before : List Probes) (probes : Probes)
    (old new : List UsbEntry) (hrequired : poller.requirements.usb = true)
    (hold : poller.lastAnswer .usb before = (listedUsb old).toOption)
    (hnew : probes.usb = listedUsb new) (device : UsbDevice) :
    (⟨"usb", usbEvent .added device⟩ ∈
        (poller.pollCycle probes (poller.stateAfter before)).2 ↔
      deviceCount old device = 0 ∧ 0 < deviceCount new device) ∧
    (⟨"usb", usbEvent .removed device⟩ ∈
        (poller.pollCycle probes (poller.stateAfter before)).2 ↔
      0 < deviceCount old device ∧ deviceCount new device = 0) := by
  rw [listedUsb_eq] at hold hnew
  have hemitted := usbEvent_emitted_iff hrequired hold hnew
  constructor
  · rw [hemitted, Finset.mem_sdiff, mem_inventory, mem_inventory]
    simp only [true_and, reduceCtorEq, false_and, or_false]
    omega
  · rw [hemitted, Finset.mem_sdiff, Finset.mem_sdiff, mem_inventory, mem_inventory]
    simp only [true_and, reduceCtorEq, false_and, false_or]
    omega

def usbPoller : Poller := testPoller { SensorRequirements.default with usb := true }

/-- A stick without a serial number. -/
def stick : UsbEntry := ⟨some "0781\n", some "5567\n", none⟩

def stickProbes (entries : List UsbEntry) : Probes :=
  { downProbes with usb := listedUsb entries }

theorem listedUsb_last (entries : List UsbEntry) :
    usbPoller.lastAnswer .usb [stickProbes entries] =
      some (entries.foldl UsbEntry.scan ∅) := by
  have hlast : usbPoller.lastAnswer .usb ([] ++ [stickProbes entries]) = _ :=
    Poller.lastAnswer_snoc .usb [] (stickProbes entries)
  change _ = (listedUsb entries).toOption.or none at hlast
  rw [listedUsb_eq] at hlast
  exact hlast

/-- The stick is plugged in, and pulled out again. -/
theorem usb_changes_reported_stick :
    ⟨"usb", usbEvent .added stick.device⟩ ∈
        (usbPoller.pollCycle (stickProbes [stick])
          (usbPoller.stateAfter [stickProbes []])).2 ∧
      ⟨"usb", usbEvent .removed stick.device⟩ ∈
        (usbPoller.pollCycle (stickProbes [])
          (usbPoller.stateAfter [stickProbes [stick]])).2 := by
  constructor
  · exact (usb_changes_reported usbPoller [stickProbes []] (stickProbes [stick]) [] [stick] rfl
      rfl rfl stick.device).1.mpr (by decide +kernel)
  · exact (usb_changes_reported usbPoller [stickProbes [stick]] (stickProbes []) [stick] [] rfl
      rfl rfl stick.device).2.mpr (by decide +kernel)

/-- A second stick of the same make comes and goes without an event. -/
theorem second_stick_unseen :
    deviceCount [stick] stick.device = 1 ∧ deviceCount [stick, stick] stick.device = 2 ∧
      ⟨"usb", usbEvent .added stick.device⟩ ∉
        (usbPoller.pollCycle (stickProbes [stick, stick])
          (usbPoller.stateAfter [stickProbes [stick]])).2 ∧
      ⟨"usb", usbEvent .removed stick.device⟩ ∉
        (usbPoller.pollCycle (stickProbes [stick])
          (usbPoller.stateAfter [stickProbes [stick, stick]])).2 := by
  have hone : 0 < deviceCount [stick] stick.device := by decide +kernel
  refine ⟨by decide +kernel, by decide +kernel, ?_, ?_⟩
  · intro hadded
    rcases (usbEvent_emitted_iff rfl (listedUsb_last [stick])
      (listedUsb_eq [stick, stick]) _ _).mp hadded with ⟨_, hmem⟩ | ⟨hremoved, _⟩
    · exact (Finset.mem_sdiff.mp hmem).2 (mem_inventory.mpr hone)
    · cases hremoved
  · intro hremoved
    rcases (usbEvent_emitted_iff rfl (listedUsb_last [stick, stick])
      (listedUsb_eq [stick]) _ _).mp hremoved with ⟨hadded, _⟩ | ⟨_, hmem⟩
    · cases hadded
    · exact (Finset.mem_sdiff.mp hmem).2 (mem_inventory.mpr hone)

end Kovert
