import Kovert.Engine

/-!
# Triggers and conditions on fresh state

A trigger reads an event, a condition reads the snapshot that the event has been
applied to. For an event that carries a whole state the two agree on every
pattern; for an event about one member of a set they agree once the trigger
names the member.
-/

namespace Kovert

/-- The condition with the fields of a trigger on a whole state. -/
def TriggerSpec.stateCondition : TriggerSpec → Option ConditionSpec
  | .wifiChanged ssid bssid connected => some (.wifi ssid bssid connected)
  | .networkChanged interface online vpn => some (.network online interface vpn)
  | .session state user remote => some (.session state user remote)
  | .power onAc batteryBelow lidClosed => some (.power onAc batteryBelow lidClosed)
  | _ => none

/-- The condition of a trigger that gives all its fields. -/
def TriggerSpec.memberCondition : TriggerSpec → Option ConditionSpec
  | .process (some name) (some running) => some (.process name running)
  | .service (some name) (some active) => some (.service name active)
  | .port (some number) (some opened) (some protocol) => some (.port number opened protocol)
  | .mount (some action) (some path) => some (.mounted path (action != .removed))
  | _ => none

/-- The event is of the kind that the trigger is about. -/
def TriggerSpec.Reads : TriggerSpec → EventKind → Prop
  | .wifiChanged .., .wifi .. => True
  | .networkChanged .., .network .. => True
  | .session .., .session .. => True
  | .power .., .power .. => True
  | _, _ => False

theorem all_some_beq {α : Type} [DecidableEq α] (pattern : Option α) (actual : α) :
    pattern.all (fun value => some actual == some value) =
      pattern.all (fun value => value == actual) := by
  cases pattern with
  | none => rfl
  | some value => simp [eq_comm]

theorem all_beq_comm {α : Type} [DecidableEq α] (pattern : Option α) (actual : α) :
    pattern.all (fun value => actual == value) = pattern.all (fun value => value == actual) := by
  cases pattern with
  | none => rfl
  | some value => simp [eq_comm]

section

variable {host : Host} {snapshot : SystemSnapshot} {event : Event} {trigger : TriggerSpec}
  {condition : ConditionSpec}

theorem triggerMatches_stateCondition (hreads : trigger.Reads event.kind)
    (hcondition : trigger.stateCondition = some condition) :
    triggerMatches trigger event = conditionMatches host condition (snapshot.apply event) := by
  cases trigger with
  | wifiChanged | networkChanged | power =>
      cases hcondition
      cases hkind : event.kind <;> simp only [hkind, TriggerSpec.Reads] at hreads
      rw [triggerMatches, conditionMatches, SystemSnapshot.apply, hkind]
      rfl
  | session =>
      -- the snapshot wraps the state in an option, and the remote flag is compared the other way
      cases hcondition
      cases hkind : event.kind <;> simp only [hkind, TriggerSpec.Reads] at hreads
      rw [triggerMatches, conditionMatches, SystemSnapshot.apply, hkind]
      simp only [SystemSnapshot.applyKind, all_some_beq, all_beq_comm]
  | _ => cases hcondition

theorem process_fresh {name : String} {running : Bool}
    (hmatches : triggerMatches (.process (some name) (some running)) event = true) :
    conditionMatches host (.process name running) (snapshot.apply event) = true := by
  cases hkind : event.kind with
  | process eventName eventRunning pid =>
      simp only [triggerMatches, hkind, Option.all_some, Bool.and_eq_true, beq_iff_eq] at hmatches
      obtain ⟨rfl, rfl⟩ := hmatches
      rw [conditionMatches, SystemSnapshot.apply, hkind]
      cases running <;> simp [SystemSnapshot.applyKind]
  | _ => simp [triggerMatches, hkind] at hmatches

theorem service_fresh {name : String} {active : Bool}
    (hmatches : triggerMatches (.service (some name) (some active)) event = true) :
    conditionMatches host (.service name active) (snapshot.apply event) = true := by
  cases hkind : event.kind with
  | service eventName eventActive =>
      simp only [triggerMatches, hkind, Option.all_some, Bool.and_eq_true, beq_iff_eq] at hmatches
      obtain ⟨rfl, rfl⟩ := hmatches
      rw [conditionMatches, SystemSnapshot.apply, hkind]
      simp [SystemSnapshot.applyKind]
  | _ => simp [triggerMatches, hkind] at hmatches

theorem port_fresh {number : UInt16} {opened : Bool} {protocol : NetworkProtocol}
    (hmatches : triggerMatches (.port (some number) (some opened) (some protocol)) event = true) :
    conditionMatches host (.port number opened protocol) (snapshot.apply event) = true := by
  cases hkind : event.kind with
  | port eventPort eventProtocol eventOpened =>
      simp only [triggerMatches, hkind, Option.all_some, Bool.and_eq_true, beq_iff_eq] at hmatches
      obtain ⟨⟨rfl, rfl⟩, rfl⟩ := hmatches
      rw [conditionMatches, SystemSnapshot.apply, hkind]
      cases opened <;> simp [SystemSnapshot.applyKind]
  | _ => simp [triggerMatches, hkind] at hmatches

/-- Trigger and condition compare the path by its components, and so does the mount set. -/
theorem mount_fresh {action : DeviceAction} {path : PathBuf}
    (hmatches : triggerMatches (.mount (some action) (some path)) event = true) :
    conditionMatches host (.mounted path (action != .removed)) (snapshot.apply event) = true := by
  cases hkind : event.kind with
  | mount eventAction eventPath source =>
      simp only [triggerMatches, hkind, Option.all_some, Bool.and_eq_true, beq_iff_eq,
        PathBuf.pathEq] at hmatches
      obtain ⟨rfl, hpath⟩ := hmatches
      rw [conditionMatches, SystemSnapshot.apply, hkind, hpath]
      cases action <;> simp [SystemSnapshot.applyKind]
  | _ => simp [triggerMatches, hkind] at hmatches

theorem conditionMatches_memberCondition (hcondition : trigger.memberCondition = some condition)
    (hmatches : triggerMatches trigger event = true) :
    conditionMatches host condition (snapshot.apply event) = true := by
  cases trigger with
  | process name running =>
      cases name <;> cases running <;> cases hcondition
      exact process_fresh hmatches
  | service name active =>
      cases name <;> cases active <;> cases hcondition
      exact service_fresh hmatches
  | port number opened protocol =>
      cases number <;> cases opened <;> cases protocol <;> cases hcondition
      exact port_fresh hmatches
  | mount action path =>
      cases action <;> cases path <;> cases hcondition
      exact mount_fresh hmatches
  | _ => cases hcondition

end

/-- After an event has been applied, a trigger on a whole state matches the event
exactly when the condition with its fields holds, and a trigger that names a
member and matches leaves its condition true. -/
theorem fresh_state_agrees (host : Host) (snapshot : SystemSnapshot) (event : Event) :
    (∀ trigger condition, trigger.Reads event.kind → trigger.stateCondition = some condition →
      (triggerMatches trigger event = true ↔
        conditionMatches host condition (snapshot.apply event) = true)) ∧
    (∀ trigger condition, trigger.memberCondition = some condition →
      triggerMatches trigger event = true →
        conditionMatches host condition (snapshot.apply event) = true) := by
  constructor
  · intro trigger condition hreads hcondition
    rw [triggerMatches_stateCondition hreads hcondition]
  · intro trigger condition hcondition hmatches
    exact conditionMatches_memberCondition hcondition hmatches

def batteryLow : Event where
  id := 0
  timestamp := 0
  source := "power"
  kind := .power (some false) (some 9) none

def vaultRemoved : Event where
  id := 0
  timestamp := 0
  source := "mounts"
  kind := .mount .removed ⟨"/mnt/vault/"⟩ none

/-- A low battery, and an unmounted vault that the trigger spells without the last slash. -/
theorem fresh_state_battery_vault :
    (triggerMatches (.power none (some 10) none) batteryLow = true ↔
      conditionMatches bareHost (.power none (some 10) none)
        ((SystemSnapshot.default 0).apply batteryLow) = true) ∧
    conditionMatches bareHost (.mounted ⟨"/mnt/vault"⟩ false)
      ((SystemSnapshot.default 0).apply vaultRemoved) = true :=
  ⟨(fresh_state_agrees bareHost (.default 0) batteryLow).1 _ _ trivial rfl,
    (fresh_state_agrees bareHost (.default 0) vaultRemoved).2
      (.mount (some .removed) (some ⟨"/mnt/vault"⟩)) _ rfl (by decide +kernel)⟩

end Kovert
