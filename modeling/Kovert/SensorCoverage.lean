import Kovert.PollFailures
import Kovert.Runs
import Kovert.SensorNeeds

/-!
# Sensor coverage

Which of the polled sensors that the rules of a configuration look at are
really probed. A trigger or condition leaf asks for the sensor it reads, at any
depth. A `sensor_failure` trigger asks for nothing: it listens to the failures
of sensors that other rules need.
-/

namespace Kovert

open SensorRequirements

mutual

def TriggerSpec.leaves : TriggerSpec → List TriggerSpec
  | .all triggers => triggersLeaves triggers
  | .any triggers => triggersLeaves triggers
  | .sequence steps _ => triggersLeaves steps
  | .not trigger => trigger.leaves
  | leaf => [leaf]

def triggersLeaves : List TriggerSpec → List TriggerSpec
  | [] => []
  | item :: items => item.leaves ++ triggersLeaves items

end

mutual

def ConditionSpec.leaves : ConditionSpec → List ConditionSpec
  | .all conditions => conditionsLeaves conditions
  | .any conditions => conditionsLeaves conditions
  | .not condition => condition.leaves
  | leaf => [leaf]

def conditionsLeaves : List ConditionSpec → List ConditionSpec
  | [] => []
  | item :: items => item.leaves ++ conditionsLeaves items

end

def TriggerSpec.isComposite : TriggerSpec → Bool
  | .all _ | .any _ | .not _ | .sequence .. => true
  | _ => false

def TriggerSpec.isUnnamed : TriggerSpec → Bool
  | .process none _ | .service none _ | .port none _ _ => true
  | _ => false

def TriggerSpec.isSensorFailure : TriggerSpec → Bool
  | .sensorFailure _ => true
  | _ => false

/-- The polled sensors that a condition leaf reads from the snapshot. -/
def ConditionSpec.reads : ConditionSpec → Check → Bool
  | .wifi .., check => check == .probe .wifi
  | .network .., check => check == .probe .network
  | .mounted .., check => check == .probe .mounts
  | .process .., check => check == .probe .processes
  | .service .., check => check == .probe .services
  | .port .., check => check == .probe .ports
  | .session .., check => check == .probe .sessions
  | .power .., check => check == .probe .power
  | .sensorHealthy sensor _, check => sensor == check.name
  | _, _ => false

/-- A leaf on the health of a sensor that is probed by name or number only. -/
def ConditionSpec.isUnnamedHealth : ConditionSpec → Bool
  | .sensorHealthy sensor _ => ["processes", "services", "ports"].contains sensor
  | _ => false

/-- `poll_cycle` makes the check. -/
def Check.required (requirements : SensorRequirements) : Check → Bool
  | .probe sensor => sensor.required requirements
  | .integrity => requirements.integrity

/-- The trigger uses the sensor, or a leaf of the condition reads it. -/
def Rule.LooksAt (rule : Rule) (check : Check) : Prop :=
  triggerUsesSensor rule.trigger check.name = true ∨
    ∃ condition, rule.when = some condition ∧ ∃ leaf ∈ condition.leaves, leaf.reads check = true

/-- Every sensor that an enabled rule looks at is probed. -/
def Covered (config : Config) : Prop :=
  ∀ rule ∈ config.rules, rule.enabled = true → ∀ check, rule.LooksAt check →
    check.required (fromConfig config) = true

/-- A need that makes the check necessary. -/
def Need.of : Need → Option Check
  | .wifi => some (.probe .wifi)
  | .network => some (.probe .network)
  | .usb => some (.probe .usb)
  | .mounts => some (.probe .mounts)
  | .process _ => some (.probe .processes)
  | .service _ => some (.probe .services)
  | .port _ _ => some (.probe .ports)
  | .sessions => some (.probe .sessions)
  | .power => some (.probe .power)
  | .integrity => some .integrity
  | .watch _ _ => none

theorem required_of_need {config : Config} {need : Need} {check : Check}
    (h : need ∈ rulesNeeds config.rules) (hcheck : need.of = some check) :
    check.required (fromConfig config) = true := by
  have hprovides : (fromConfig config).Provides need := by
    refine (fromConfig_provides ?_).mpr h
    cases need <;> first | rfl | cases hcheck
  cases need with
  | process name =>
      cases hcheck
      exact decide_eq_true (Finset.ne_empty_of_mem hprovides)
  | service name =>
      cases hcheck
      exact decide_eq_true (Finset.ne_empty_of_mem hprovides)
  | port protocol port =>
      cases hcheck
      exact decide_eq_true (Finset.ne_empty_of_mem hprovides)
  | watch path recursive => cases hcheck
  | _ =>
      cases hcheck
      exact hprovides

/-! ## Leaves -/

mutual

theorem needs_of_leaf : ∀ (trigger : TriggerSpec) {leaf : TriggerSpec},
    leaf ∈ trigger.leaves → leaf.needs ⊆ trigger.needs
  | .all triggers, _, h => needs_of_leaves triggers h
  | .any triggers, _, h => needs_of_leaves triggers h
  | .sequence steps _, _, h => needs_of_leaves steps h
  | .not trigger, _, h => needs_of_leaf trigger h
  | .tick, _, h | .file .., _, h | .wifiChanged .., _, h | .networkChanged .., _, h
  | .usb .., _, h | .mount .., _, h | .process .., _, h | .service .., _, h | .port .., _, h
  | .session .., _, h | .power .., _, h | .hotkey _, _, h | .integrityFailure _, _, h
  | .manual _, _, h | .sensorFailure _, _, h => by
      rw [List.mem_singleton.mp h]
      exact List.Subset.refl _

theorem needs_of_leaves : ∀ (triggers : List TriggerSpec) {leaf : TriggerSpec},
    leaf ∈ triggersLeaves triggers → leaf.needs ⊆ triggersNeeds triggers
  | [], _, h => by cases h
  | item :: items, _, h => by
      rcases List.mem_append.mp h with h | h
      · exact List.subset_append_of_subset_left _ (needs_of_leaf item h)
      · exact List.subset_append_of_subset_right _ (needs_of_leaves items h)

end

mutual

theorem needs_of_conditionLeaf : ∀ (condition : ConditionSpec) {leaf : ConditionSpec},
    leaf ∈ condition.leaves → leaf.needs ⊆ condition.needs
  | .all conditions, _, h => needs_of_conditionLeaves conditions h
  | .any conditions, _, h => needs_of_conditionLeaves conditions h
  | .not condition, _, h => needs_of_conditionLeaf condition h
  | .timeWindow .., _, h | .wifi .., _, h | .network .., _, h | .mode _, _, h
  | .pathExists .., _, h | .mounted .., _, h | .process .., _, h | .service .., _, h
  | .port .., _, h | .session .., _, h | .power .., _, h | .sensorHealthy .., _, h => by
      rw [List.mem_singleton.mp h]
      exact List.Subset.refl _

theorem needs_of_conditionLeaves : ∀ (conditions : List ConditionSpec) {leaf : ConditionSpec},
    leaf ∈ conditionsLeaves conditions → leaf.needs ⊆ conditionsNeeds conditions
  | [], _, h => by cases h
  | item :: items, _, h => by
      rcases List.mem_append.mp h with h | h
      · exact List.subset_append_of_subset_left _ (needs_of_conditionLeaf item h)
      · exact List.subset_append_of_subset_right _ (needs_of_conditionLeaves items h)

end

/-! ## Accepted leaves -/

section

variable {rule : String} {hotkeys : List String}

/-- Validation accepts the leaf at the depth where it meets it. -/
def LeafAccepted (rule : String) (hotkeys : List String) (leaf : TriggerSpec) : Prop :=
  leaf.isComposite = false ∧ ∃ depth, validateTrigger rule hotkeys leaf depth = []

theorem validateTrigger_composite {triggers : List TriggerSpec} {depth : ℕ} (within : Duration) :
    (validateTrigger rule hotkeys (.all triggers) depth = [] →
        validateTriggers rule hotkeys triggers (depth + 1) = []) ∧
      (validateTrigger rule hotkeys (.any triggers) depth = [] →
        validateTriggers rule hotkeys triggers (depth + 1) = []) ∧
      (validateTrigger rule hotkeys (.sequence triggers within) depth = [] →
        validateSteps rule hotkeys triggers (depth + 1) = []) := by
  refine ⟨?_, ?_, ?_⟩ <;> intro h <;> rw [validateTrigger] at h <;> split_ifs at h
  · exact (List.append_eq_nil_iff.mp h).2
  · exact (List.append_eq_nil_iff.mp h).2
  · exact (List.append_eq_nil_iff.mp h).2

mutual

theorem leafAccepted_of_trigger : ∀ (trigger : TriggerSpec) {depth : ℕ} {leaf : TriggerSpec},
    validateTrigger rule hotkeys trigger depth = [] → leaf ∈ trigger.leaves →
    LeafAccepted rule hotkeys leaf
  | .all triggers, _, _, h, hleaf =>
      leafAccepted_of_triggers triggers ((validateTrigger_composite 0).1 h) hleaf
  | .any triggers, _, _, h, hleaf =>
      leafAccepted_of_triggers triggers ((validateTrigger_composite 0).2.1 h) hleaf
  | .sequence steps _, _, _, h, hleaf =>
      leafAccepted_of_steps steps ((validateTrigger_composite _).2.2 h) hleaf
  | .not trigger, depth, _, h, hleaf => by
      rw [validateTrigger] at h
      split_ifs at h
      exact leafAccepted_of_trigger trigger h hleaf
  | .tick, depth, _, h, hleaf | .file .., depth, _, h, hleaf
  | .wifiChanged .., depth, _, h, hleaf | .networkChanged .., depth, _, h, hleaf
  | .usb .., depth, _, h, hleaf | .mount .., depth, _, h, hleaf
  | .process .., depth, _, h, hleaf | .service .., depth, _, h, hleaf
  | .port .., depth, _, h, hleaf | .session .., depth, _, h, hleaf
  | .power .., depth, _, h, hleaf | .hotkey _, depth, _, h, hleaf
  | .integrityFailure _, depth, _, h, hleaf | .manual _, depth, _, h, hleaf
  | .sensorFailure _, depth, _, h, hleaf => by
      rw [List.mem_singleton.mp hleaf]
      exact ⟨rfl, depth, h⟩

theorem leafAccepted_of_triggers : ∀ (triggers : List TriggerSpec) {depth : ℕ}
    {leaf : TriggerSpec}, validateTriggers rule hotkeys triggers depth = [] →
    leaf ∈ triggersLeaves triggers → LeafAccepted rule hotkeys leaf
  | [], _, _, _, hleaf => by cases hleaf
  | item :: items, _, _, h, hleaf => by
      obtain ⟨hitem, hitems⟩ := List.append_eq_nil_iff.mp h
      rcases List.mem_append.mp hleaf with hleaf | hleaf
      · exact leafAccepted_of_trigger item hitem hleaf
      · exact leafAccepted_of_triggers items hitems hleaf

theorem leafAccepted_of_steps : ∀ (steps : List TriggerSpec) {depth : ℕ} {leaf : TriggerSpec},
    validateSteps rule hotkeys steps depth = [] → leaf ∈ triggersLeaves steps →
    LeafAccepted rule hotkeys leaf
  | [], _, _, _, hleaf => by cases hleaf
  | item :: items, _, _, h, hleaf => by
      obtain ⟨hitem, hitems⟩ := List.append_eq_nil_iff.mp h
      rcases List.mem_append.mp hleaf with hleaf | hleaf
      · exact leafAccepted_of_trigger item (List.append_eq_nil_iff.mp hitem).2 hleaf
      · exact leafAccepted_of_steps items hitems hleaf

end

/-- Process, service and port triggers are accepted only with a name or a number. -/
theorem LeafAccepted.named {leaf : TriggerSpec} (h : LeafAccepted rule hotkeys leaf) :
    leaf.isUnnamed = false := by
  obtain ⟨_, depth, h⟩ := h
  unfold TriggerSpec.isUnnamed
  split <;> first | rfl | (rw [validateTrigger] at h; split_ifs at h)

theorem Check.name_injective : Function.Injective Check.name := by
  have hother : ∀ sensor : Sensor, sensor.name ≠ "integrity" := by
    intro sensor
    cases sensor <;> decide
  intro left right h
  cases left with
  | probe sensor =>
      cases right with
      | probe other => rw [Sensor.name_injective h]
      | integrity => exact absurd h (hother sensor)
  | integrity =>
      cases right with
      | probe other => exact absurd h.symm (hother other)
      | integrity => rfl

theorem Check.name_polled (check : Check) :
    check.name ∉ ["time", "filesystem", "hotkeys", "manual"] := by
  cases check with
  | probe sensor => cases sensor <;> decide
  | integrity => decide

/-- An accepted leaf that uses a polled sensor needs it. -/
theorem need_of_uses {leaf : TriggerSpec} {check : Check}
    (haccepted : LeafAccepted rule hotkeys leaf) (hkind : leaf.isSensorFailure = false)
    (huses : triggerUsesSensor leaf check.name = true) :
    ∃ need ∈ leaf.needs, need.of = some check := by
  have hown : ∀ {target : Check}, (check.name == target.name) = true → some target = some check :=
    fun h => congrArg some (Check.name_injective (beq_iff_eq.mp h).symm)
  have hforeign : ∀ {name : String}, name ∈ ["time", "filesystem", "hotkeys", "manual"] →
      (check.name == name) = false := by
    intro name hname
    rw [beq_eq_false_iff_ne]
    exact fun h => check.name_polled (h ▸ hname)
  cases leaf with
  | tick => rw [triggerUsesSensor, hforeign (by simp)] at huses; cases huses
  | file path operations recursive =>
      rw [triggerUsesSensor, hforeign (by simp)] at huses
      cases huses
  | hotkey name => rw [triggerUsesSensor, hforeign (by simp)] at huses; cases huses
  | manual name => rw [triggerUsesSensor, hforeign (by simp)] at huses; cases huses
  | process name running =>
      cases name with
      | none => cases haccepted.named
      | some name => exact ⟨.process name, List.mem_singleton_self _, hown huses⟩
  | service name active =>
      cases name with
      | none => cases haccepted.named
      | some name => exact ⟨.service name, List.mem_singleton_self _, hown huses⟩
  | port port opened protocol =>
      cases port with
      | none => cases haccepted.named
      | some port =>
          cases protocol with
          | none => exact ⟨.port .tcp port, List.mem_cons_self, hown huses⟩
          | some protocol => exact ⟨.port protocol port, List.mem_singleton_self _, hown huses⟩
  | sensorFailure sensor => cases hkind
  | all triggers => cases haccepted.1
  | any triggers => cases haccepted.1
  | not trigger => cases haccepted.1
  | sequence steps within => cases haccepted.1
  | _ => exact ⟨_, List.mem_singleton_self _, hown huses⟩

end

theorem need_of_reads {leaf : ConditionSpec} {check : Check}
    (hkind : leaf.isUnnamedHealth = false) (hreads : leaf.reads check = true) :
    ∃ need ∈ leaf.needs, need.of = some check := by
  have hown : ∀ {target : Check}, (check == target) = true → some target = some check :=
    fun h => congrArg some (beq_iff_eq.mp h).symm
  cases leaf with
  | sensorHealthy sensor healthy =>
      obtain rfl : sensor = check.name := beq_iff_eq.mp hreads
      cases check with
      | probe sensor =>
          cases sensor <;> first | exact ⟨_, List.mem_singleton_self _, rfl⟩ | cases hkind
      | integrity => exact ⟨_, List.mem_singleton_self _, rfl⟩
  | all conditions => cases hreads
  | any conditions => cases hreads
  | not condition => cases hreads
  | timeWindow start finish outside weekdays => cases hreads
  | mode name => cases hreads
  | pathExists path expected => cases hreads
  | _ => exact ⟨_, List.mem_singleton_self _, hown hreads⟩

/-! ## Coverage -/

/-- A leaf that asks for the sensor: a trigger leaf that uses it and is not a
`sensor_failure`, or a condition leaf that reads it and is not the health of
the processes, services or ports. -/
def Rule.AsksFor (rule : Rule) (check : Check) : Prop :=
  (∃ leaf ∈ rule.trigger.leaves, leaf.isSensorFailure = false ∧
      triggerUsesSensor leaf check.name = true) ∨
    ∃ condition, rule.when = some condition ∧
      ∃ leaf ∈ condition.leaves, leaf.isUnnamedHealth = false ∧ leaf.reads check = true

/-- In an accepted configuration every sensor that an enabled rule asks for is probed. -/
theorem asked_sensors_probed (parseTime : String → Option ℕ) (config : Config)
    (hvalid : validateConfig parseTime config = .ok ()) (rule : Rule) (hrule : rule ∈ config.rules)
    (_henabled : rule.enabled = true) (check : Check) (hasks : rule.AsksFor check) :
    check.required (fromConfig config) = true := by
  suffices hneed : ∃ need ∈ rule.needs, need.of = some check by
    obtain ⟨need, hmem, hof⟩ := hneed
    exact required_of_need (List.mem_flatMap.mpr ⟨rule, hrule, hmem⟩) hof
  rcases hasks with ⟨leaf, hleaf, hkind, huses⟩ | ⟨condition, hwhen, leaf, hleaf, hkind, hreads⟩
  · have haccepted :=
      leafAccepted_of_trigger rule.trigger (validateConfig_rule hvalid hrule).1 hleaf
    obtain ⟨need, hneed, hof⟩ := need_of_uses haccepted hkind huses
    exact ⟨need, List.mem_append_left _ (needs_of_leaf rule.trigger hleaf hneed), hof⟩
  · obtain ⟨need, hneed, hof⟩ := need_of_reads hkind hreads
    refine ⟨need, ?_, hof⟩
    rw [Rule.needs, hwhen]
    exact List.mem_append_right _ (needs_of_conditionLeaf condition hleaf hneed)

/-- Fires on a process or a mount, while the power sensor is healthy. -/
def nestedRule : Rule :=
  { testRule (.any [.not (.process (some "sshd") none), .mount none none]) with
    when := some (.not (.all [.sensorHealthy "power" true])) }

theorem asked_sensors_probed_nested :
    Check.required (fromConfig (testConfig [nestedRule])) (.probe .processes) = true ∧
      Check.required (fromConfig (testConfig [nestedRule])) (.probe .power) = true := by
  have hvalid : validateConfig (fun _ => none) (testConfig [nestedRule]) = .ok () := by
    decide +kernel
  constructor
  · refine asked_sensors_probed _ _ hvalid nestedRule (List.mem_singleton_self _) rfl _ ?_
    exact Or.inl ⟨.process (some "sshd") none, by simp [nestedRule, testRule,
      TriggerSpec.leaves, triggersLeaves], rfl, by decide⟩
  · refine asked_sensors_probed _ _ hvalid nestedRule (List.mem_singleton_self _) rfl _ ?_
    exact Or.inr ⟨_, rfl, .sensorHealthy "power" true, by simp [ConditionSpec.leaves,
      conditionsLeaves], rfl, by decide⟩

/-- Listens to failures of the Wi-Fi sensor. -/
def listenerRule : Rule := testRule (.sensorFailure (some "wifi"))

/-- Reads the health of the process sensor. -/
def processHealthRule : Rule :=
  { testRule .tick with when := some (.sensorHealthy "processes" false) }

/-- Two accepted configurations whose only rule looks at a sensor that is not probed. -/
theorem looked_at_not_probed :
    validateConfig (fun _ => none) (testConfig [listenerRule]) = .ok () ∧
      listenerRule.LooksAt (.probe .wifi) ∧
      Check.required (fromConfig (testConfig [listenerRule])) (.probe .wifi) = false ∧
      ¬ Covered (testConfig [listenerRule]) ∧
      validateConfig (fun _ => none) (testConfig [processHealthRule]) = .ok () ∧
      processHealthRule.LooksAt (.probe .processes) ∧
      Check.required (fromConfig (testConfig [processHealthRule])) (.probe .processes) = false ∧
      ¬ Covered (testConfig [processHealthRule]) := by
  have hlistens : listenerRule.LooksAt (.probe .wifi) := Or.inl (by decide)
  have hwifi : Check.required (fromConfig (testConfig [listenerRule])) (.probe .wifi) = false := by
    decide +kernel
  have hreads : processHealthRule.LooksAt (.probe .processes) :=
    Or.inr ⟨_, rfl, .sensorHealthy "processes" false, List.mem_singleton_self _, by decide⟩
  have hprocesses : Check.required (fromConfig (testConfig [processHealthRule]))
      (.probe .processes) = false := by decide +kernel
  refine ⟨by decide +kernel, hlistens, hwifi, ?_, by decide +kernel, hreads, hprocesses, ?_⟩
  · intro h
    have hrequired := h listenerRule (List.mem_singleton_self _) rfl _ hlistens
    rw [hwifi] at hrequired
    cases hrequired
  · intro h
    have hrequired := h processHealthRule (List.mem_singleton_self _) rfl _ hreads
    rw [hprocesses] at hrequired
    cases hrequired

end Kovert
