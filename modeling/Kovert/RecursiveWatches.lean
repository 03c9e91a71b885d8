import Kovert.SensorCoverage

/-!
# Recursive watches

The watches of a configuration are a map from paths to recursion flags into
which every file leaf inserts, rule by rule. The last leaf on a path decides,
so a recursive watch is kept exactly when no non-recursive leaf on its path has
the last word.
-/

namespace Kovert

open SensorRequirements

/-- The recursion flag that the leaf asks for on the path. -/
def TriggerSpec.watchFlag (path : PathBuf) : TriggerSpec → Option Bool
  | .file watched _ recursive => if watched.pathEq path then some recursive else none
  | _ => none

/-- The recursion flags that the rules ask for on the path, in their order. -/
def Config.watchFlags (config : Config) (path : PathBuf) : List Bool :=
  (config.rules.flatMap (fun rule => rule.trigger.leaves)).filterMap (TriggerSpec.watchFlag path)

/-- The requirements watch the path of every recursive leaf recursively. -/
def KeepsRecursion (config : Config) : Prop :=
  ∀ rule ∈ config.rules, ∀ path operations,
    TriggerSpec.file path operations true ∈ rule.trigger.leaves →
      (fromConfig config).watchOf path = some true

/-- Every non-recursive flag after a recursive one is followed by another recursive one. -/
def RecursionReturns (flags : List Bool) : Prop :=
  ∀ before later, flags = before ++ false :: later → true ∈ before → true ∈ later

theorem recursionReturns_iff {flags : List Bool} :
    RecursionReturns flags ↔ (true ∈ flags → flags.getLast? = some true) := by
  induction flags using List.reverseRecOn with
  | nil => simp [RecursionReturns]
  | append_singleton flags flag _ =>
      rw [List.getLast?_concat]
      cases flag with
      | true =>
          refine iff_of_true ?_ (fun _ => rfl)
          intro before later heq _
          have hends : (before ++ false :: later).getLast? = some true := by
            rw [← heq, List.getLast?_concat]
          rw [List.getLast?_append, List.getLast?_cons, Option.some_or, Option.some_inj] at hends
          cases hlast : later.getLast? with
          | none =>
              rw [hlast] at hends
              cases hends
          | some last =>
              rw [hlast, Option.getD_some] at hends
              exact hends ▸ List.mem_of_getLast? hlast
      | false =>
          constructor
          · intro hreturns hmem
            have hbefore : true ∈ flags := by simpa using hmem
            exact absurd (hreturns flags [] rfl hbefore) (List.not_mem_nil)
          · intro hlast before later heq hbefore
            have hmem : true ∈ flags ++ [false] := heq ▸ List.mem_append_left _ hbefore
            cases hlast hmem

/-! ## From needs to leaves -/

mutual

theorem triggerFlags_eq (path : PathBuf) : ∀ trigger : TriggerSpec,
    trigger.needs.filterMap (Need.flagFor path) =
      trigger.leaves.filterMap (TriggerSpec.watchFlag path)
  | .all triggers => triggersFlags_eq path triggers
  | .any triggers => triggersFlags_eq path triggers
  | .sequence steps _ => triggersFlags_eq path steps
  | .not trigger => triggerFlags_eq path trigger
  | .process none _ | .process (some _) _ | .service none _ | .service (some _) _ => rfl
  | .port none _ _ | .port (some _) _ none | .port (some _) _ (some _) => rfl
  | .tick | .file .. | .wifiChanged .. | .networkChanged .. | .usb .. | .mount .. | .session ..
  | .power .. | .hotkey _ | .integrityFailure _ | .manual _ | .sensorFailure _ => rfl

theorem triggersFlags_eq (path : PathBuf) : ∀ triggers : List TriggerSpec,
    (triggersNeeds triggers).filterMap (Need.flagFor path) =
      (triggersLeaves triggers).filterMap (TriggerSpec.watchFlag path)
  | [] => rfl
  | item :: items => by
      rw [triggersNeeds, triggersLeaves, List.filterMap_append, List.filterMap_append,
        triggerFlags_eq path item, triggersFlags_eq path items]

end

theorem healthFlags_eq_nil (path : PathBuf) (sensor : String) :
    (healthNeeds sensor).filterMap (Need.flagFor path) = [] := by
  rw [healthNeeds]
  split_ifs <;> rfl

mutual

/-- A condition watches nothing. -/
theorem conditionFlags_eq_nil (path : PathBuf) : ∀ condition : ConditionSpec,
    condition.needs.filterMap (Need.flagFor path) = []
  | .all conditions => conditionsFlags_eq_nil path conditions
  | .any conditions => conditionsFlags_eq_nil path conditions
  | .not condition => conditionFlags_eq_nil path condition
  | .sensorHealthy sensor _ => healthFlags_eq_nil path sensor
  | .wifi .. | .network .. | .mounted .. | .process .. | .service .. | .port .. | .session ..
  | .power .. | .timeWindow .. | .mode _ | .pathExists .. => rfl

theorem conditionsFlags_eq_nil (path : PathBuf) : ∀ conditions : List ConditionSpec,
    (conditionsNeeds conditions).filterMap (Need.flagFor path) = []
  | [] => rfl
  | item :: items => by
      rw [conditionsNeeds, List.filterMap_append, conditionFlags_eq_nil path item,
        conditionsFlags_eq_nil path items, List.append_nil]

end

theorem ruleFlags_eq (path : PathBuf) (rule : Rule) :
    rule.needs.filterMap (Need.flagFor path) =
      rule.trigger.leaves.filterMap (TriggerSpec.watchFlag path) := by
  rw [Rule.needs, List.filterMap_append, triggerFlags_eq]
  cases rule.when with
  | none => exact List.append_nil _
  | some condition =>
      rw [Option.elim_some, conditionFlags_eq_nil, List.append_nil]

/-- The watch of a path has the last flag asked for on it. -/
theorem watchOf_eq_getLast (config : Config) (path : PathBuf) :
    (fromConfig config).watchOf path = (config.watchFlags path).getLast? := by
  have hflags : (rulesNeeds config.rules).filterMap (Need.flagFor path) =
      config.watchFlags path := by
    rw [rulesNeeds, Config.watchFlags, List.filterMap_flatMap, List.filterMap_flatMap]
    exact congrArg (List.flatMap · config.rules) (funext (ruleFlags_eq path))
  rw [fromConfig_watchOf, lastFlag, ← hflags, List.getLast?_filterMap]

theorem watchFlags_congr {config : Config} {left right : PathBuf}
    (h : left.components = right.components) :
    config.watchFlags left = config.watchFlags right := by
  have hflag : TriggerSpec.watchFlag left = TriggerSpec.watchFlag right := by
    funext leaf
    cases leaf with
    | file watched operations recursive =>
        rw [TriggerSpec.watchFlag, TriggerSpec.watchFlag, PathBuf.pathEq, PathBuf.pathEq, h]
    | _ => rfl
  rw [Config.watchFlags, Config.watchFlags, hflag]

theorem true_mem_watchFlags {config : Config} {path : PathBuf} :
    true ∈ config.watchFlags path ↔ ∃ rule ∈ config.rules, ∃ watched operations,
      TriggerSpec.file watched operations true ∈ rule.trigger.leaves ∧
        watched.components = path.components := by
  rw [Config.watchFlags, List.mem_filterMap]
  constructor
  · rintro ⟨leaf, hleaf, hflag⟩
    obtain ⟨rule, hrule, hleaf⟩ := List.mem_flatMap.mp hleaf
    cases leaf with
    | file watched operations recursive =>
        by_cases hpath : watched.pathEq path = true
        · rw [TriggerSpec.watchFlag, if_pos hpath] at hflag
          cases hflag
          exact ⟨rule, hrule, watched, operations, hleaf, PathBuf.pathEq_iff.mp hpath⟩
        · rw [TriggerSpec.watchFlag, if_neg hpath] at hflag
          cases hflag
    | _ => cases hflag
  · rintro ⟨rule, hrule, watched, operations, hleaf, hpath⟩
    refine ⟨_, List.mem_flatMap.mpr ⟨rule, hrule, hleaf⟩, ?_⟩
    rw [TriggerSpec.watchFlag, if_pos (PathBuf.pathEq_iff.mpr hpath)]

/-- A configuration keeps its recursive watches exactly when on every path each
non-recursive leaf after a recursive one is followed by another recursive one. -/
theorem keepsRecursion_iff (config : Config) :
    KeepsRecursion config ↔ ∀ path, RecursionReturns (config.watchFlags path) := by
  constructor
  · intro hkeeps path
    rw [recursionReturns_iff]
    intro hmem
    obtain ⟨rule, hrule, watched, operations, hleaf, hpath⟩ := true_mem_watchFlags.mp hmem
    have hwatched := hkeeps rule hrule watched operations hleaf
    rw [watchOf_eq_getLast, watchFlags_congr hpath] at hwatched
    exact hwatched
  · intro hreturns rule hrule path operations hleaf
    have hmem : true ∈ config.watchFlags path :=
      true_mem_watchFlags.mpr ⟨rule, hrule, path, operations, hleaf, rfl⟩
    rw [watchOf_eq_getLast]
    exact recursionReturns_iff.mp (hreturns path) hmem

def subtreeRule : Rule := testRule (.file ⟨"/srv/vault"⟩ [] true)

def directoryRule : Rule := { testRule (.file ⟨"/srv/vault"⟩ [] false) with id := "directory" }

/-- A second rule on the same path turns the recursive watch of the first one off. -/
theorem second_rule_ends_recursion :
    validateConfig (fun _ => none) (testConfig [subtreeRule, directoryRule]) = .ok () ∧
      (fromConfig (testConfig [subtreeRule])).watchOf ⟨"/srv/vault"⟩ = some true ∧
      (fromConfig (testConfig [subtreeRule, directoryRule])).watchOf ⟨"/srv/vault"⟩ =
        some false ∧
      ¬ KeepsRecursion (testConfig [subtreeRule, directoryRule]) := by
  have hlost : (fromConfig (testConfig [subtreeRule, directoryRule])).watchOf ⟨"/srv/vault"⟩ =
      some false := by decide +kernel
  refine ⟨by decide +kernel, by decide +kernel, hlost, ?_⟩
  intro hkeeps
  have hkept := hkeeps subtreeRule (by simp [testConfig]) ⟨"/srv/vault"⟩ []
    (List.mem_singleton_self _)
  rw [hlost] at hkept
  cases hkept

end Kovert
