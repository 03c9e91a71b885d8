import Kovert.RuleLists
import Kovert.SensorNeeds

/-!
# Disabled rules

The engine never looks at a disabled rule, so dropping the disabled rules of a
configuration changes no plan. The requirements are collected from every rule:
a disabled rule still turns on the providers of its triggers and conditions,
unless the enabled rules ask for the same.
-/

namespace Kovert

open SensorRequirements

def Config.withoutDisabled (config : Config) : Config :=
  { config with rules := config.rules.filter (·.enabled) }

/-- The configuration and its enabled part start the same providers, and
engines built from them return the same plans on every run. -/
def DisabledInert (config : Config) : Prop :=
  (fromConfig config).SameAs (fromConfig config.withoutDisabled) ∧
    ∀ mode now now' ops, (∀ op ∈ ops, EngineOp.KeepsRules op) →
      (PolicyEngine.new config.rules mode now).planLists ops =
        (PolicyEngine.new config.withoutDisabled.rules mode now').planLists ops

/-- The enabled rules ask for everything that the disabled ones ask for, and
the last rule to watch a path that a disabled rule watches sets the flag that
the last enabled one sets. -/
structure EnabledCover (rules : List Rule) : Prop where
  needs : ∀ rule ∈ rules, rule.enabled = false → ∀ need ∈ rule.needs, need.isWatch = false →
    ∃ other ∈ rules, other.enabled = true ∧ need ∈ other.needs
  flags : ∀ rule ∈ rules, rule.enabled = false → ∀ path flag, Need.watch path flag ∈ rule.needs →
    lastFlag (rulesNeeds rules) path = lastFlag (rulesNeeds (rules.filter (·.enabled))) path

/-- Engines built from a configuration and from its enabled part answer alike. -/
theorem planLists_withoutDisabled (config : Config) (mode : String) (now now' : Timestamp)
    {ops : List EngineOp} (hops : ∀ op ∈ ops, op.KeepsRules) :
    (PolicyEngine.new config.rules mode now).planLists ops =
      (PolicyEngine.new config.withoutDisabled.rules mode now').planLists ops := by
  have hsort : (sortRules config.rules).filter (·.enabled) =
      (sortRules config.withoutDisabled.rules).filter (·.enabled) := by
    rw [sortRules, sortRules, StableSort.filter_insertionSort, StableSort.filter_insertionSort,
      Config.withoutDisabled, List.filter_filter]
    simp only [Bool.and_self]
  have hlabels : List.Forall₂ (fun op op' => op = op' ∧ EngineOp.KeepsRules op) ops ops :=
    List.forall₂_same.mpr fun op hop => ⟨rfl, hops op hop⟩
  refine Execution.answers_eq (R := Alike) ?_ hlabels (.of_new hsort mode now now')
  rintro left right op _ h ⟨rfl, hop⟩
  exact h.call hop

/-! ## The flags of a path -/

theorem lastFlag_append (first second : List Need) (path : PathBuf) :
    lastFlag (first ++ second) path = (lastFlag second path).or (lastFlag first path) := by
  rw [lastFlag, List.reverse_append, List.findSome?_append]
  rfl

theorem rulesNeeds_cons (rule : Rule) (rules : List Rule) :
    rulesNeeds (rule :: rules) = rule.needs ++ rulesNeeds rules := rfl

theorem lastFlag_eq_none {needs : List Need} {path : PathBuf}
    (h : ∀ watched flag, Need.watch watched flag ∈ needs → watched.pathEq path = false) :
    lastFlag needs path = none := by
  rw [lastFlag, List.findSome?_eq_none_iff]
  intro need hneed
  cases need with
  | watch watched flag =>
      have hne := h watched flag (List.mem_reverse.mp hneed)
      rw [Need.flagFor, hne, if_neg Bool.false_ne_true]
  | _ => rfl

theorem lastFlag_congr {needs : List Need} {path other : PathBuf}
    (h : path.components = other.components) : lastFlag needs path = lastFlag needs other := by
  have hflag : Need.flagFor path = Need.flagFor other := by
    funext need
    cases need with
    | watch watched flag =>
        have hsame : watched.pathEq path = watched.pathEq other := by
          rw [PathBuf.pathEq, PathBuf.pathEq, h]
        rw [Need.flagFor, Need.flagFor, hsame]
    | _ => rfl
  rw [lastFlag, lastFlag, hflag]

/-- A path that no disabled rule watches has its flag from the enabled rules. -/
theorem lastFlag_enabled {rules : List Rule} {path : PathBuf}
    (h : ∀ rule ∈ rules, rule.enabled = false → ∀ watched flag,
      Need.watch watched flag ∈ rule.needs → watched.pathEq path = false) :
    lastFlag (rulesNeeds rules) path = lastFlag (rulesNeeds (rules.filter (·.enabled))) path := by
  induction rules with
  | nil => rfl
  | cons rule rules ih =>
      have hrest := ih fun other hother => h other (List.mem_cons_of_mem _ hother)
      rw [rulesNeeds_cons, lastFlag_append, hrest]
      cases he : rule.enabled with
      | true => rw [List.filter_cons_of_pos he, rulesNeeds_cons, lastFlag_append]
      | false =>
          have hnone := lastFlag_eq_none (h rule List.mem_cons_self he)
          rw [List.filter_cons_of_neg (by simp [he]), hnone, Option.or_none]

theorem lastFlags_eq_iff {rules : List Rule} :
    (∀ path, lastFlag (rulesNeeds rules) path =
        lastFlag (rulesNeeds (rules.filter (·.enabled))) path) ↔
      ∀ rule ∈ rules, rule.enabled = false → ∀ path flag, Need.watch path flag ∈ rule.needs →
        lastFlag (rulesNeeds rules) path =
          lastFlag (rulesNeeds (rules.filter (·.enabled))) path := by
  constructor
  · intro h _ _ _ path _ _
    exact h path
  · intro h path
    by_cases hwatched : ∃ rule ∈ rules, rule.enabled = false ∧ ∃ watched flag,
        Need.watch watched flag ∈ rule.needs ∧ watched.pathEq path = true
    · obtain ⟨rule, hr, he, watched, flag, hneed, hsame⟩ := hwatched
      have hcomponents := PathBuf.pathEq_iff.mp hsame
      rw [← lastFlag_congr hcomponents, ← lastFlag_congr hcomponents]
      exact h rule hr he watched flag hneed
    · apply lastFlag_enabled
      intro rule hr he watched flag hneed
      rw [Bool.eq_false_iff]
      exact fun hsame => hwatched ⟨rule, hr, he, watched, flag, hneed, hsame⟩

theorem needs_eq_iff {rules : List Rule} :
    (∀ need, need.isWatch = false →
        (need ∈ rulesNeeds rules ↔ need ∈ rulesNeeds (rules.filter (·.enabled)))) ↔
      ∀ rule ∈ rules, rule.enabled = false → ∀ need ∈ rule.needs, need.isWatch = false →
        ∃ other ∈ rules, other.enabled = true ∧ need ∈ other.needs := by
  simp only [rulesNeeds, List.mem_flatMap, List.mem_filter, and_assoc]
  constructor
  · intro h rule hr _ need hneed hwatch
    exact (h need hwatch).mp ⟨rule, hr, hneed⟩
  · intro h need hwatch
    constructor
    · rintro ⟨rule, hr, hneed⟩
      cases he : rule.enabled with
      | true => exact ⟨rule, hr, he, hneed⟩
      | false => exact h rule hr he need hneed hwatch
    · rintro ⟨rule, hr, _, hneed⟩
      exact ⟨rule, hr, hneed⟩

/-- Disabled rules leave no trace exactly when the enabled rules ask for all that they ask for. -/
theorem disabled_inert_iff (config : Config) :
    DisabledInert config ↔ EnabledCover config.rules := by
  have hsame : (fromConfig config).SameAs (fromConfig config.withoutDisabled) ↔
      EnabledCover config.rules := by
    have hflags : (fromConfig config).watchOf = (fromConfig config.withoutDisabled).watchOf ↔
        ∀ path, lastFlag (rulesNeeds config.rules) path =
          lastFlag (rulesNeeds (config.rules.filter (·.enabled))) path := by
      simp only [funext_iff, fromConfig_watchOf]
      rfl
    rw [sameAs_iff, hflags, lastFlags_eq_iff]
    constructor
    · rintro ⟨hflags, hneeds⟩
      refine ⟨needs_eq_iff.mp ?_, hflags⟩
      intro need hneed
      have hprovides := hneeds need hneed
      rwa [fromConfig_provides hneed, fromConfig_provides hneed] at hprovides
    · rintro ⟨hneeds, hflags⟩
      refine ⟨hflags, ?_⟩
      intro need hneed
      rw [fromConfig_provides hneed, fromConfig_provides hneed]
      exact needs_eq_iff.mpr hneeds need hneed
  constructor
  · rintro ⟨hreq, _⟩
    exact hsame.mp hreq
  · intro hcover
    exact ⟨hsame.mpr hcover, fun mode now now' ops hops =>
      planLists_withoutDisabled config mode now now' hops⟩

/-- A disabled rule with a file trigger. -/
def retiredRule : Rule :=
  { testRule (.file ⟨"/srv/old"⟩ [] true) with enabled := false }

/-- The only rule of an accepted configuration is disabled, and its path is still watched. -/
theorem disabled_rule_watches :
    validateConfig (fun _ => none) (testConfig [retiredRule]) = .ok () ∧
      (fromConfig (testConfig [retiredRule])).watchOf ⟨"/srv/old"⟩ = some true ∧
      (fromConfig (testConfig [retiredRule]).withoutDisabled).watchOf ⟨"/srv/old"⟩ = none ∧
      ¬ DisabledInert (testConfig [retiredRule]) := by
  have hwatch : (fromConfig (testConfig [retiredRule])).watchOf ⟨"/srv/old"⟩ = some true := by
    decide +kernel
  have hnone : (fromConfig (testConfig [retiredRule]).withoutDisabled).watchOf ⟨"/srv/old"⟩ =
      none := by decide +kernel
  refine ⟨by decide +kernel, hwatch, hnone, ?_⟩
  rintro ⟨⟨hwatches, _⟩, _⟩
  rw [hwatches, hnone] at hwatch
  cases hwatch

end Kovert
