import Kovert.Requirements

/-!
# What a configuration needs

The requirements of a configuration as a list of needs, one for each trigger
and condition leaf that asks for a provider. Collecting adds them one by one,
so what is collected is read off the list: a flag or a name is there when some
need asks for it, and a watched path has the flag of the last need that names
it.
-/

namespace Kovert

inductive Need where
  | wifi
  | network
  | usb
  | mounts
  | process (name : String)
  | service (name : String)
  | port (protocol : NetworkProtocol) (port : UInt16)
  | sessions
  | power
  | integrity
  | watch (path : PathBuf) (recursive : Bool)
  deriving DecidableEq, Repr

mutual

def TriggerSpec.needs : TriggerSpec → List Need
  | .file path _ recursive => [.watch path recursive]
  | .wifiChanged .. => [.wifi]
  | .networkChanged .. => [.network]
  | .usb .. => [.usb]
  | .mount .. => [.mounts]
  | .process name _ => name.toList.map Need.process
  | .service name _ => name.toList.map Need.service
  | .port (some port) _ (some protocol) => [.port protocol port]
  | .port (some port) _ none => [.port .tcp port, .port .udp port]
  | .port none _ _ => []
  | .session .. => [.sessions]
  | .power .. => [.power]
  | .all triggers => triggersNeeds triggers
  | .any triggers => triggersNeeds triggers
  | .sequence steps _ => triggersNeeds steps
  | .not trigger => trigger.needs
  | .integrityFailure _ => [.integrity]
  | .tick | .hotkey _ | .manual _ | .sensorFailure _ => []

def triggersNeeds : List TriggerSpec → List Need
  | [] => []
  | item :: items => item.needs ++ triggersNeeds items

end

/-- The needs of a `SensorHealthy` leaf. -/
def healthNeeds (sensor : String) : List Need :=
  if sensor = "wifi" then [.wifi]
  else if sensor = "network" then [.network]
  else if sensor = "usb" then [.usb]
  else if sensor = "mounts" then [.mounts]
  else if sensor = "sessions" then [.sessions]
  else if sensor = "power" then [.power]
  else if sensor = "integrity" ∨ sensor = "configuration" ∨ sensor = "binary" then [.integrity]
  else []

mutual

def ConditionSpec.needs : ConditionSpec → List Need
  | .wifi .. => [.wifi]
  | .network .. => [.network]
  | .mounted .. => [.mounts]
  | .process name _ => [.process name]
  | .service name _ => [.service name]
  | .port port _ protocol => [.port protocol port]
  | .session .. => [.sessions]
  | .power .. => [.power]
  | .all conditions => conditionsNeeds conditions
  | .any conditions => conditionsNeeds conditions
  | .not condition => condition.needs
  | .sensorHealthy sensor _ => healthNeeds sensor
  | .timeWindow .. | .mode _ | .pathExists .. => []

def conditionsNeeds : List ConditionSpec → List Need
  | [] => []
  | item :: items => item.needs ++ conditionsNeeds items

end

def Rule.needs (rule : Rule) : List Need :=
  rule.trigger.needs ++ rule.when.elim [] ConditionSpec.needs

def rulesNeeds (rules : List Rule) : List Need := rules.flatMap Rule.needs

namespace SensorRequirements

def add (value : SensorRequirements) : Need → SensorRequirements
  | .wifi => { value with wifi := true }
  | .network => { value with network := true }
  | .usb => { value with usb := true }
  | .mounts => { value with mounts := true }
  | .process name => { value with processes := insert name value.processes }
  | .service name => { value with services := insert name value.services }
  | .port protocol port => { value with ports := insert (protocol, port) value.ports }
  | .sessions => { value with sessions := true }
  | .power => { value with power := true }
  | .integrity => { value with integrity := true }
  | .watch path recursive =>
    { value with fileWatches := insertWatch value.fileWatches path recursive }

/-- The flag under which the map of watches holds a path. -/
def watchOf (value : SensorRequirements) (path : PathBuf) : Option Bool :=
  (value.fileWatches.find? (fun watch => watch.1.pathEq path)).map Prod.snd

/-- The requirements hold what the need asks for; a watch also fixes the flag. -/
def Provides (value : SensorRequirements) : Need → Prop
  | .wifi => value.wifi = true
  | .network => value.network = true
  | .usb => value.usb = true
  | .mounts => value.mounts = true
  | .process name => name ∈ value.processes
  | .service name => name ∈ value.services
  | .port protocol port => (protocol, port) ∈ value.ports
  | .sessions => value.sessions = true
  | .power => value.power = true
  | .integrity => value.integrity = true
  | .watch path recursive => value.watchOf path = some recursive

/-- Equality of requirements, with the watches compared as the map they are. -/
def SameAs (left right : SensorRequirements) : Prop :=
  left.watchOf = right.watchOf ∧ { left with fileWatches := right.fileWatches } = right

/-! ## Collecting adds the needs in order -/

mutual

theorem collectTrigger_eq : ∀ (trigger : TriggerSpec) (value : SensorRequirements),
    collectTrigger trigger value = trigger.needs.foldl add value
  | .file .., _ | .wifiChanged .., _ | .networkChanged .., _ | .usb .., _ | .mount .., _ => rfl
  | .process none _, _ | .process (some _) _, _ => rfl
  | .service none _, _ | .service (some _) _, _ => rfl
  | .port none _ _, _ | .port (some _) _ none, _ | .port (some _) _ (some _), _ => rfl
  | .session .., _ | .power .., _ | .integrityFailure _, _ => rfl
  | .tick, _ | .hotkey _, _ | .manual _, _ | .sensorFailure _, _ => rfl
  | .all triggers, value => by
      rw [collectTrigger, TriggerSpec.needs, collectTriggers_eq triggers]
  | .any triggers, value => by
      rw [collectTrigger, TriggerSpec.needs, collectTriggers_eq triggers]
  | .sequence steps _, value => by
      rw [collectTrigger, TriggerSpec.needs, collectTriggers_eq steps]
  | .not trigger, value => by
      rw [collectTrigger, TriggerSpec.needs, collectTrigger_eq trigger]

theorem collectTriggers_eq : ∀ (triggers : List TriggerSpec) (value : SensorRequirements),
    collectTriggers triggers value = (triggersNeeds triggers).foldl add value
  | [], _ => rfl
  | item :: items, value => by
      rw [collectTriggers, triggersNeeds, List.foldl_append, collectTrigger_eq item,
        collectTriggers_eq items]

end

theorem collectHealth_eq (sensor : String) (value : SensorRequirements) :
    collectHealth sensor value = (healthNeeds sensor).foldl add value := by
  unfold collectHealth healthNeeds
  split_ifs <;> rfl

mutual

theorem collectCondition_eq : ∀ (condition : ConditionSpec) (value : SensorRequirements),
    collectCondition condition value = condition.needs.foldl add value
  | .wifi .., _ | .network .., _ | .mounted .., _ | .process .., _ | .service .., _ => rfl
  | .port .., _ | .session .., _ | .power .., _ => rfl
  | .timeWindow .., _ | .mode _, _ | .pathExists .., _ => rfl
  | .sensorHealthy sensor _, value => by
      rw [collectCondition, ConditionSpec.needs, collectHealth_eq]
  | .all conditions, value => by
      rw [collectCondition, ConditionSpec.needs, collectConditions_eq conditions]
  | .any conditions, value => by
      rw [collectCondition, ConditionSpec.needs, collectConditions_eq conditions]
  | .not condition, value => by
      rw [collectCondition, ConditionSpec.needs, collectCondition_eq condition]

theorem collectConditions_eq : ∀ (conditions : List ConditionSpec) (value : SensorRequirements),
    collectConditions conditions value = (conditionsNeeds conditions).foldl add value
  | [], _ => rfl
  | item :: items, value => by
      rw [collectConditions, conditionsNeeds, List.foldl_append, collectCondition_eq item,
        collectConditions_eq items]

end

theorem collectRule_eq (value : SensorRequirements) (rule : Rule) :
    collectRule value rule = rule.needs.foldl add value := by
  rw [collectRule, Rule.needs, List.foldl_append, collectTrigger_eq]
  cases rule.when with
  | none => rfl
  | some condition => exact collectCondition_eq condition _

theorem fromConfig_eq (config : Config) :
    fromConfig config = (rulesNeeds config.rules).foldl add default := by
  rw [fromConfig, rulesNeeds, List.foldl_flatMap]
  congr 1
  funext value rule
  exact collectRule_eq value rule

end SensorRequirements

/-! ## What the needs leave behind -/

def Need.isWatch : Need → Bool
  | .watch .. => true
  | _ => false

/-- The flag that a need asks for on a path. -/
def Need.flagFor (path : PathBuf) : Need → Option Bool
  | .watch watched recursive => if watched.pathEq path then some recursive else none
  | _ => none

/-- The flag of the last need that watches the path. -/
def lastFlag (needs : List Need) (path : PathBuf) : Option Bool :=
  needs.reverse.findSome? (Need.flagFor path)

theorem PathBuf.pathEq_iff {left right : PathBuf} :
    left.pathEq right = true ↔ left.components = right.components := beq_iff_eq

theorem lastFlag_cons (need : Need) (needs : List Need) (path : PathBuf) :
    lastFlag (need :: needs) path = (lastFlag needs path).or (need.flagFor path) := by
  rw [lastFlag, List.reverse_cons, List.findSome?_append, List.findSome?_singleton]
  rfl

namespace SensorRequirements

theorem watchOf_insertWatch (watches : List (PathBuf × Bool)) (path other : PathBuf)
    (recursive : Bool) :
    ((insertWatch watches path recursive).find? (fun watch => watch.1.pathEq other)).map Prod.snd =
      if path.pathEq other then some recursive
      else (watches.find? (fun watch => watch.1.pathEq other)).map Prod.snd := by
  induction watches with
  | nil =>
      rw [insertWatch, List.find?_cons]
      cases path.pathEq other <;> rfl
  | cons watch watches ih =>
      rw [insertWatch]
      by_cases hsame : watch.1.pathEq path = true
      · have hother : watch.1.pathEq other = path.pathEq other := by
          rw [PathBuf.pathEq, PathBuf.pathEq, PathBuf.pathEq_iff.mp hsame]
        rw [if_pos hsame, List.find?_cons, List.find?_cons, hother]
        cases path.pathEq other <;> rfl
      · rw [if_neg hsame, List.find?_cons, List.find?_cons]
        cases hw : watch.1.pathEq other with
        | true =>
            have hpath : path.pathEq other = false := by
              rw [Bool.eq_false_iff, Ne, PathBuf.pathEq_iff]
              rw [PathBuf.pathEq_iff] at hsame hw
              exact fun h => hsame (hw.trans h.symm)
            rw [hpath]
            rfl
        | false => exact ih

theorem watchOf_add (value : SensorRequirements) (need : Need) (path : PathBuf) :
    (value.add need).watchOf path = (need.flagFor path).or (value.watchOf path) := by
  cases need with
  | watch watched recursive =>
      rw [watchOf, add, watchOf_insertWatch, Need.flagFor]
      split_ifs <;> rfl
  | _ => rfl

theorem watchOf_foldl (needs : List Need) (value : SensorRequirements) (path : PathBuf) :
    (needs.foldl add value).watchOf path = (lastFlag needs path).or (value.watchOf path) := by
  induction needs generalizing value with
  | nil => rfl
  | cons need needs ih =>
      rw [List.foldl_cons, ih, watchOf_add, lastFlag_cons, Option.or_assoc]

theorem provides_add {value : SensorRequirements} {need other : Need}
    (h : need.isWatch = false) :
    (value.add other).Provides need ↔ need = other ∨ value.Provides need := by
  cases need with
  | watch path recursive => cases h
  | _ => cases other <;> simp [add, Provides]

theorem provides_foldl {needs : List Need} {value : SensorRequirements} {need : Need}
    (h : need.isWatch = false) :
    (needs.foldl add value).Provides need ↔ need ∈ needs ∨ value.Provides need := by
  induction needs generalizing value with
  | nil => simp
  | cons other needs ih =>
      rw [List.foldl_cons, ih, provides_add h, List.mem_cons, or_left_comm, or_assoc]

theorem not_provides_default {need : Need} : ¬ default.Provides need := by
  cases need <;> simp [default, Provides, watchOf]

theorem fromConfig_provides {config : Config} {need : Need} (h : need.isWatch = false) :
    (fromConfig config).Provides need ↔ need ∈ rulesNeeds config.rules := by
  rw [fromConfig_eq, provides_foldl h]
  exact or_iff_left not_provides_default

theorem fromConfig_watchOf (config : Config) (path : PathBuf) :
    (fromConfig config).watchOf path = lastFlag (rulesNeeds config.rules) path := by
  rw [fromConfig_eq, watchOf_foldl]
  exact Option.or_none

theorem sameAs_iff {left right : SensorRequirements} :
    left.SameAs right ↔ left.watchOf = right.watchOf ∧
      ∀ need, need.isWatch = false → (left.Provides need ↔ right.Provides need) := by
  apply and_congr_right
  intro _
  constructor
  · intro heq need hneed
    rw [← heq]
    cases need with
    | watch path recursive => cases hneed
    | _ => rfl
  · intro h
    have hprocesses : left.processes = right.processes :=
      Finset.ext fun name => h (.process name) rfl
    have hservices : left.services = right.services :=
      Finset.ext fun name => h (.service name) rfl
    have hports : left.ports = right.ports :=
      Finset.ext fun entry => h (.port entry.1 entry.2) rfl
    have hwifi := Bool.eq_iff_iff.mpr (h .wifi rfl)
    have hnetwork := Bool.eq_iff_iff.mpr (h .network rfl)
    have husb := Bool.eq_iff_iff.mpr (h .usb rfl)
    have hmounts := Bool.eq_iff_iff.mpr (h .mounts rfl)
    have hsessions := Bool.eq_iff_iff.mpr (h .sessions rfl)
    have hpower := Bool.eq_iff_iff.mpr (h .power rfl)
    have hintegrity := Bool.eq_iff_iff.mpr (h .integrity rfl)
    rw [hprocesses, hservices, hports, hwifi, hnetwork, husb, hmounts, hsessions, hpower,
      hintegrity]

end SensorRequirements
end Kovert
