import Kovert.SequenceProgress
import Kovert.Sustain

/-!
# Recovery isolates what came before it

Entering recovery clears the partial progress of every rule, and nothing done
inside recovery creates any. After leaving, the stored progress of a rule is
explained by the events handled since. A reload that changes the trigger of a
rule id with progress of its own breaks this: the new trigger inherits matches
of the old one.
-/

namespace Kovert

open Execution

/-- No partial progress: not armed and no sequence step counted. -/
def RuleRuntime.Idle (runtime : RuleRuntime) : Prop :=
  runtime.armedAt = none ∧ runtime.sequenceIndex = 0

/-- A reload changes the trigger only of rule ids without partial progress. -/
def ReloadSparesProgress : PolicyEngine → EngineOp → Prop
  | engine, .replaceRules rules => ∀ old ∈ engine.rules, ∀ rule ∈ rules, rule.id = old.id →
      rule.trigger ≠ old.trigger → (engine.ruleRuntime rule.id).Idle
  | _, _ => True

/-- The rule was armed by the event handled at position `i`, which matched its
trigger; for a sequence the events up to that position match all its steps. -/
def ArmedBy (start : PolicyEngine) (ops : List EngineOp) (rule : Rule) (i : ℕ) : Prop :=
  ∃ engine host event engine' plans,
    Visits PolicyEngine.step start ops i engine (.handle host event) ∧
    engine.handle host event = some (engine', plans) ∧ TriggerMatched engine event rule ∧
    (engine.ruleRuntime rule.id).armedAt = none ∧
    (engine'.ruleRuntime rule.id).armedAt = some event.timestamp ∧
    ∀ steps within, rule.trigger = .sequence steps within →
      ∃ used, FullMatch ops steps within i event used

/-- The events of `ops` up to position `n` account for a firing of the rule there. -/
structure FiringExplained (start : PolicyEngine) (ops : List EngineOp) (rule : Rule) (n : ℕ) :
    Prop where
  sequence : ∀ steps within, rule.trigger = .sequence steps within →
    ∃ i ≤ n, ∃ event used, FullMatch ops steps within i event used
  sustained : 0 < rule.sustainFor → ∃ i < n, ArmedBy start ops rule i

/-! ## Inside recovery -/

theorem handle_empty {engine : PolicyEngine} (hrec : engine.recoveryMode = true) (host : Host)
    (event : Event) : ∃ next, engine.handle host event = some (next, []) :=
  ⟨_, PolicyEngine.handle_recovery hrec host event⟩

/-- Only `set_recovery_mode(false)` leaves recovery, and nothing panics before it. -/
theorem run_recovery {ops : List EngineOp} {start : PolicyEngine}
    (hops : ∀ op ∈ ops, op ≠ .setRecoveryMode false) (hrec : start.recoveryMode = true) :
    ∃ engine, run PolicyEngine.step start ops = some engine ∧ engine.recoveryMode = true := by
  induction ops generalizing start with
  | nil => exact ⟨start, rfl, hrec⟩
  | cons op ops ih =>
      have hstep : ∃ next, start.step op = some next ∧ next.recoveryMode = true := by
        cases op with
        | handle host event =>
            refine ⟨{ start with snapshot := start.snapshot.apply event }, ?_, hrec⟩
            rw [PolicyEngine.step, PolicyEngine.handle_recovery hrec]
            rfl
        | setMode mode => exact ⟨_, rfl, hrec⟩
        | setRecoveryMode enabled =>
            have hne := hops _ List.mem_cons_self
            cases enabled with
            | true => exact ⟨_, rfl, rfl⟩
            | false => exact absurd rfl hne
        | replaceRules rules => exact ⟨_, rfl, hrec⟩
      obtain ⟨next, hs, hnext⟩ := hstep
      rw [run_cons, hs, Option.bind_some]
      exact ih (fun op hop => hops op (List.mem_cons_of_mem _ hop)) hnext

def RecoveryIdle (engine : PolicyEngine) : Prop :=
  DistinctIds engine.rules ∧ (engine.recoveryMode = true → ∀ id, (engine.ruleRuntime id).Idle)

theorem idle_default : RuleRuntime.default.Idle := ⟨rfl, rfl⟩

theorem step_recoveryIdle {engine engine' : PolicyEngine} {op : EngineOp}
    (hop : DistinctReload engine op) (h : RecoveryIdle engine)
    (hs : engine.step op = some engine') : RecoveryIdle engine' := by
  refine ⟨step_distinctIds hop h.1 hs, ?_⟩
  intro hrec id
  cases op with
  | handle host event =>
      obtain ⟨plans, hh⟩ := step_handle hs
      rw [(PolicyEngine.handle_frame hh).2.1] at hrec
      have hidle := h.2 hrec id
      rw [PolicyEngine.handle_recovery hrec] at hh
      cases hh
      exact hidle
  | setMode mode =>
      cases hs
      exact h.2 hrec id
  | setRecoveryMode enabled =>
      cases hs
      cases hrec
      rw [PolicyEngine.setRecoveryMode_ruleRuntime]
      exact ⟨rfl, rfl⟩
  | replaceRules rules =>
      cases hs
      by_cases hid : id ∈ rules.map (·.id)
      · obtain ⟨rule, hr, rfl⟩ := List.mem_map.mp hid
        rw [PolicyEngine.replaceRules_ruleRuntime engine hop hr]
        exact h.2 hrec rule.id
      · rw [PolicyEngine.replaceRules_ruleRuntime_notMem engine hid]
        exact idle_default

/-! ## Progress after leaving recovery -/

structure RuleExplained (start : PolicyEngine) (ops : List EngineOp) (rule : Rule)
    (runtime : RuleRuntime) : Prop where
  counted : ∀ steps within, rule.trigger = .sequence steps within →
    ∃ used, PartialMatch ops steps runtime used
  armed : runtime.armedAt ≠ none → ∃ i, ArmedBy start ops rule i

theorem RuleRuntime.Idle.explained {runtime : RuleRuntime} (h : runtime.Idle)
    (start : PolicyEngine) (ops : List EngineOp) (rule : Rule) :
    RuleExplained start ops rule runtime :=
  ⟨fun steps _ _ => ⟨[], partialMatch_nil ops steps h.2⟩, fun harmed => absurd h.1 harmed⟩

theorem ArmedBy.lt_length {start : PolicyEngine} {ops : List EngineOp} {rule : Rule} {i : ℕ}
    (h : ArmedBy start ops rule i) : i < ops.length := by
  obtain ⟨_, _, _, _, _, hv, _⟩ := h
  exact hv.lt_length

theorem ArmedBy.append {start : PolicyEngine} {ops : List EngineOp} {rule : Rule} {i : ℕ}
    (h : ArmedBy start ops rule i) (rest : List EngineOp) : ArmedBy start (ops ++ rest) rule i := by
  have hlt := h.lt_length
  obtain ⟨engine, host, event, engine', plans, hv, hh, hmatch, hbefore, hafter, hfull⟩ := h
  refine ⟨engine, host, event, engine', plans, (visits_append_left rest hlt).mpr hv, hh, hmatch,
    hbefore, hafter, ?_⟩
  intro steps within ht
  obtain ⟨used, hused⟩ := hfull steps within ht
  exact ⟨used, hused.append hlt rest⟩

theorem RuleExplained.append {start : PolicyEngine} {ops : List EngineOp} {rule : Rule}
    {runtime : RuleRuntime} (h : RuleExplained start ops rule runtime) (rest : List EngineOp) :
    RuleExplained start (ops ++ rest) rule runtime := by
  constructor
  · intro steps within ht
    obtain ⟨used, hused⟩ := h.counted steps within ht
    exact ⟨used, hused.append rest⟩
  · intro harmed
    obtain ⟨i, hi⟩ := h.armed harmed
    exact ⟨i, hi.append rest⟩

theorem triggerStep_congr {rule rule' : Rule} (ht : rule'.trigger = rule.trigger)
    (runtime : RuleRuntime) (event : Event) :
    rule'.triggerStep runtime event = rule.triggerStep runtime event := by
  unfold Rule.triggerStep
  rw [ht]

/-- The explanation is about the id and the trigger: a reload may change the rest. -/
theorem RuleExplained.congr {start : PolicyEngine} {ops : List EngineOp} {rule rule' : Rule}
    {runtime : RuleRuntime} (h : RuleExplained start ops rule runtime)
    (hid : rule'.id = rule.id) (ht : rule'.trigger = rule.trigger) :
    RuleExplained start ops rule' runtime := by
  refine ⟨ht ▸ h.counted, ?_⟩
  intro harmed
  obtain ⟨i, engine, host, event, engine', plans, hv, hh, ⟨next, hmatch⟩, hrest⟩ := h.armed harmed
  refine ⟨i, engine, host, event, engine', plans, hv, hh, ⟨next, ?_⟩, ?_⟩
  · rw [triggerStep_congr ht, hid]
    exact hmatch
  · rw [hid, ht]
    exact hrest

/-- Matching of the root trigger keeps the counted steps explained, and a match
of a sequence comes with all its steps. -/
theorem RuleExplained.triggerStep {start : PolicyEngine} {ops : List EngineOp} {rule : Rule}
    {runtime next : RuleRuntime} {event : Event} {matched : Bool}
    (h : RuleExplained start ops rule runtime) (host : Host)
    (hstep : rule.triggerStep runtime event = some (matched, next)) :
    (∀ steps within, rule.trigger = .sequence steps within →
        ∃ used, PartialMatch (ops ++ [.handle host event]) steps next used) ∧
      (matched = true → ∀ steps within, rule.trigger = .sequence steps within →
        ∃ used, FullMatch (ops ++ [.handle host event]) steps within ops.length event used) := by
  constructor
  · intro steps within ht
    obtain ⟨used, hused⟩ := h.counted steps within ht
    obtain ⟨used', hused', _⟩ := triggerStep_explained ht host hstep hused
    exact ⟨used', hused'⟩
  · intro hm steps within ht
    obtain ⟨used, hused⟩ := h.counted steps within ht
    obtain ⟨_, _, _, hfull⟩ := triggerStep_explained ht host hstep hused
    obtain ⟨_, full, hmatch, _⟩ := hfull hm
    exact ⟨full, hmatch⟩

theorem RuleExplained.handle {start engine engine' : PolicyEngine} {ops : List EngineOp}
    {rule : Rule} {host : Host} {event : Event} {plans : List ActionPlan}
    {snapshot : SystemSnapshot} {outcome : RuleOutcome}
    (h : RuleExplained start ops rule (engine.ruleRuntime rule.id))
    (hrun : run PolicyEngine.step start ops = some engine)
    (hh : engine.handle host event = some (engine', plans))
    (hstep : RuleStep host snapshot event rule (engine.ruleRuntime rule.id)
      (engine'.ruleRuntime rule.id) outcome) :
    RuleExplained start (ops ++ [.handle host event]) rule (engine'.ruleRuntime rule.id) := by
  have hkept := h.append [.handle host event]
  generalize hnext : engine'.ruleRuntime rule.id = next at hstep
  cases hstep with
  | blocked => exact hkept
  | disarmed => exact ⟨fun steps within ht =>
      (hkept.counted steps within ht).imp fun _ hused => hused.congr rfl rfl,
      fun harmed => absurd rfl harmed⟩
  | waiting => exact hkept
  | sustained => exact ⟨fun steps within ht =>
      (hkept.counted steps within ht).imp fun _ hused => hused.congr rfl rfl,
      fun harmed => absurd rfl harmed⟩
  | progressed hactive hunarmed htrigger =>
      refine ⟨(h.triggerStep host htrigger).1, ?_⟩
      rw [(triggerStep_frame htrigger).2.2]
      exact fun harmed => absurd hunarmed harmed
  | immediate hactive hunarmed htrigger =>
      refine ⟨fun steps within ht => ((h.triggerStep host htrigger).1 steps within ht).imp
        fun _ hused => hused.congr rfl rfl, ?_⟩
      have hunarmed' := (triggerStep_frame htrigger).2.2.trans hunarmed
      exact fun harmed => absurd hunarmed' harmed
  | armed hactive hunarmed htrigger =>
      refine ⟨fun steps within ht => ((h.triggerStep host htrigger).1 steps within ht).imp
        fun _ hused => hused.congr rfl rfl, fun _ => ⟨ops.length, ?_⟩⟩
      refine ⟨engine, host, event, engine', plans, visits_snoc_last.mpr ⟨rfl, hrun⟩, hh,
        ⟨_, htrigger⟩, hunarmed, ?_, (h.triggerStep host htrigger).2 rfl⟩
      rw [hnext]

structure ProgressExplained (start : PolicyEngine) (ops : List EngineOp) (engine : PolicyEngine) :
    Prop where
  distinct : DistinctIds engine.rules
  absent : ∀ id, id ∉ engine.rules.map (·.id) → (engine.ruleRuntime id).Idle
  explained : ∀ rule ∈ engine.rules, RuleExplained start ops rule (engine.ruleRuntime rule.id)

theorem ProgressExplained.handle {start engine engine' : PolicyEngine} {ops : List EngineOp}
    {host : Host} {event : Event} {plans : List ActionPlan}
    (h : ProgressExplained start ops engine)
    (hrun : run PolicyEngine.step start ops = some engine)
    (hh : engine.handle host event = some (engine', plans)) :
    ProgressExplained start (ops ++ [.handle host event]) engine' := by
  have hrules := (PolicyEngine.handle_frame hh).1
  refine ⟨hrules ▸ h.distinct, ?_, ?_⟩
  · intro id hid
    rw [hrules] at hid
    rw [PolicyEngine.handle_ruleRuntime_notMem hh hid]
    exact h.absent id hid
  · intro rule hr
    rw [hrules] at hr
    cases hrec : engine.recoveryMode with
    | true =>
        rw [PolicyEngine.handle_recovery hrec] at hh
        cases hh
        exact (h.explained rule hr).append _
    | false =>
        obtain ⟨outcome, hstep, _⟩ := PolicyEngine.handle_ruleStep h.distinct hrec hh hr
        exact (h.explained rule hr).handle hrun hh hstep

theorem ProgressExplained.replaceRules {start engine : PolicyEngine} {ops : List EngineOp}
    {rules : List Rule} (h : ProgressExplained start ops engine) (hd : DistinctIds rules)
    (hspare : ReloadSparesProgress engine (.replaceRules rules)) :
    ProgressExplained start (ops ++ [.replaceRules rules]) (engine.replaceRules rules) := by
  refine ⟨distinctIds_sortRules.mpr hd, ?_, ?_⟩
  · intro id hid
    have hid' : id ∉ rules.map (·.id) := by
      rwa [← ((sortRules_perm rules).map _).mem_iff]
    rw [PolicyEngine.replaceRules_ruleRuntime_notMem engine hid']
    exact idle_default
  · intro rule hr
    have hr' := mem_sortRules.mp hr
    rw [PolicyEngine.replaceRules_ruleRuntime engine hd hr']
    by_cases hid : rule.id ∈ engine.rules.map (·.id)
    · obtain ⟨old, hold, heq⟩ := List.mem_map.mp hid
      by_cases ht : rule.trigger = old.trigger
      · have hexplained := (h.explained old hold).append [.replaceRules rules]
        rw [heq] at hexplained
        exact hexplained.congr heq.symm ht
      · exact (hspare old hold rule hr' heq.symm ht).explained _ _ _
    · exact (h.absent rule.id hid).explained _ _ _

theorem ProgressExplained.setRecoveryMode {start engine : PolicyEngine} {ops : List EngineOp}
    (h : ProgressExplained start ops engine) (enabled : Bool) :
    ProgressExplained start (ops ++ [.setRecoveryMode enabled])
      (engine.setRecoveryMode enabled) := by
  cases enabled with
  | false => exact ⟨h.distinct, h.absent, fun rule hr => (h.explained rule hr).append _⟩
  | true =>
      have hidle : ∀ id, ((engine.setRecoveryMode true).ruleRuntime id).Idle := by
        intro id
        rw [PolicyEngine.setRecoveryMode_ruleRuntime]
        exact ⟨rfl, rfl⟩
      exact ⟨h.distinct, fun id _ => hidle id, fun rule _ => (hidle rule.id).explained _ _ _⟩

theorem run_progressExplained {start engine : PolicyEngine} {ops : List EngineOp}
    (hd : DistinctIds start.rules) (hidle : ∀ id, (start.ruleRuntime id).Idle)
    (hrun : run PolicyEngine.step start ops = some engine)
    (hall : AllSteps PolicyEngine.step
      (fun m op => DistinctReload m op ∧ ReloadSparesProgress m op) start ops) :
    ProgressExplained start ops engine := by
  refine run_history (P := ProgressExplained start) ?_ ?_ hrun hall
  · exact ⟨hd, fun id _ => hidle id, fun rule _ => (hidle rule.id).explained _ _ _⟩
  · intro ops m op t hm _ hop hinv hs
    cases op with
    | handle host event =>
        obtain ⟨plans, hh⟩ := step_handle hs
        exact hinv.handle hm hh
    | setMode mode =>
        cases hs
        exact ⟨hinv.distinct, hinv.absent, fun rule hr => (hinv.explained rule hr).append _⟩
    | setRecoveryMode enabled =>
        cases hs
        exact hinv.setRecoveryMode enabled
    | replaceRules rules =>
        cases hs
        exact hinv.replaceRules hop.1 hop.2

/-- Both firing sites draw on explained progress. -/
theorem ProgressExplained.firing {start engine : PolicyEngine} {ops : List EngineOp} {rule : Rule}
    {host : Host} {event : Event} (h : ProgressExplained start ops engine)
    (hf : engine.Fires host event rule) :
    FiringExplained start (ops ++ [.handle host event]) rule ops.length := by
  have hexplained := h.explained rule hf.mem_rules
  obtain ⟨_, _, ⟨armedAt, harmed, _⟩ | ⟨_, hsustain, next, htrigger⟩⟩ := hf.cases h.distinct
  · obtain ⟨i, hi⟩ := hexplained.armed (by simp [harmed])
    have hi' := hi.append [.handle host event]
    refine ⟨?_, fun _ => ⟨i, hi.lt_length, hi'⟩⟩
    intro steps within ht
    obtain ⟨_, _, first, _, _, _, _, _, _, _, hfull⟩ := hi'
    obtain ⟨used, hused⟩ := hfull steps within ht
    exact ⟨i, hi.lt_length.le, first, used, hused⟩
  · refine ⟨?_, fun hpos => absurd hsustain hpos.ne'⟩
    intro steps within ht
    obtain ⟨used, hused⟩ := (hexplained.triggerStep host htrigger).2 rfl steps within ht
    exact ⟨ops.length, le_rfl, event, used, hused⟩

theorem FiringExplained.append {start : PolicyEngine} {ops : List EngineOp} {rule : Rule} {n : ℕ}
    (h : FiringExplained start ops rule n) (hn : n < ops.length) (rest : List EngineOp) :
    FiringExplained start (ops ++ rest) rule n := by
  constructor
  · intro steps within ht
    obtain ⟨i, hi, event, used, hused⟩ := h.sequence steps within ht
    exact ⟨i, hi, event, used, hused.append (Nat.lt_of_le_of_lt hi hn) rest⟩
  · intro hpos
    obtain ⟨i, hi, harmed⟩ := h.sustained hpos
    exact ⟨i, hi, harmed.append rest⟩

theorem allSteps_distinctReload {start : PolicyEngine} {ops : List EngineOp}
    (hops : ∀ rules, EngineOp.replaceRules rules ∈ ops → DistinctIds rules) :
    AllSteps PolicyEngine.step DistinctReload start ops := by
  intro n m op hv
  cases op with
  | replaceRules rules => exact hops rules (List.mem_of_getElem? hv.1)
  | _ => trivial

/-- From its entry to its end recovery plans nothing, and every firing after
leaving it rests on events handled since, in runs whose reloads change only
the triggers of rules without progress. -/
theorem recovery_isolates (rules : List Rule) (mode : String) (now : Timestamp)
    (pre : List EngineOp) (engine : PolicyEngine)
    (hrun : run PolicyEngine.step (.new rules mode now) pre = some engine) :
    (∀ mid : List EngineOp, (∀ op ∈ mid, op ≠ .setRecoveryMode false) →
      ∃ inside, run PolicyEngine.step (engine.setRecoveryMode true) mid = some inside ∧
        ∀ host event, ∃ next, inside.handle host event = some (next, [])) ∧
    (engine.recoveryMode = true → DistinctIds rules → ∀ post : List EngineOp,
      (∀ rules', EngineOp.replaceRules rules' ∈ pre ++ post → DistinctIds rules') →
      AllSteps PolicyEngine.step ReloadSparesProgress (engine.setRecoveryMode false) post →
      ∀ n rule event, FiresAt (engine.setRecoveryMode false) post n rule event →
        FiringExplained (engine.setRecoveryMode false) post rule n) := by
  constructor
  · intro mid hmid
    obtain ⟨inside, hinside, hrec⟩ := run_recovery hmid
      (show (engine.setRecoveryMode true).recoveryMode = true from rfl)
    exact ⟨inside, hinside, fun host event => handle_empty hrec host event⟩
  · intro hrec hd post hreloads hspare n rule event hf
    have hidle : RecoveryIdle engine := by
      refine run_invariant (C := DistinctReload) (P := RecoveryIdle) ?_
        (fun m op t hop hm hs => step_recoveryIdle hop hm hs) hrun
        (allSteps_distinctReload fun rules' hmem => hreloads rules' (List.mem_append_left _ hmem))
      exact ⟨new_distinctIds hd mode now, fun hrec => (by cases hrec)⟩
    have hdistinct : AllSteps PolicyEngine.step DistinctReload (engine.setRecoveryMode false) post :=
      allSteps_distinctReload fun rules' hmem => hreloads rules' (List.mem_append_right _ hmem)
    have hall : AllSteps PolicyEngine.step
        (fun m op => DistinctReload m op ∧ ReloadSparesProgress m op)
        (engine.setRecoveryMode false) post :=
      fun k m op hv => ⟨hdistinct k m op hv, hspare k m op hv⟩
    obtain ⟨engine', host, hv, hfires⟩ := hf
    have hinv := run_progressExplained (by exact hidle.1) (by exact hidle.2 hrec) hv.2 (hall.take n)
    have hlength : (post.take n).length = n := List.length_take_of_le hv.lt_length.le
    have hfiring := hinv.firing hfires
    rw [hlength] at hfiring
    rw [hv.split]
    exact hfiring.append (by simp [hlength]) _

def sustainedSequence : Rule := { manualSequence ["a", "b"] with sustainFor := 2 }

def afterRecovery : List EngineOp :=
  [manualAt "b" 1, manualAt "a" 2, manualAt "b" 3, .handle bareHost (eventAt .tick 5)]

/-- The first step matched before recovery does not count after it. -/
theorem recovery_isolates_sustained :
    ∃ engine, run PolicyEngine.step (.new [sustainedSequence] "normal" 0)
        [manualAt "a" 0, .setRecoveryMode true] = some engine ∧
      (∃ inside, run PolicyEngine.step (engine.setRecoveryMode true) [manualAt "b" 1] =
          some inside ∧
        ∀ host event, ∃ next, inside.handle host event = some (next, [])) ∧
      FiresAt (engine.setRecoveryMode false) afterRecovery 3 sustainedSequence (eventAt .tick 5) ∧
      FiringExplained (engine.setRecoveryMode false) afterRecovery sustainedSequence 3 := by
  obtain ⟨hinside, hafter⟩ := recovery_isolates [sustainedSequence] "normal" 0
    [manualAt "a" 0, .setRecoveryMode true] _ rfl
  refine ⟨_, rfl, hinside _ (by simp [manualAt]), ?_⟩
  suffices hfires : FiresAt _ afterRecovery 3 sustainedSequence (eventAt .tick 5) by
    refine ⟨hfires, hafter rfl (by simp [DistinctIds]) afterRecovery
      (by simp [manualAt, afterRecovery]) ?_ 3 _ _ hfires⟩
    rintro (_ | _ | _ | _ | n) m op ⟨hop, -⟩ <;> cases hop <;> trivial
  exact ⟨_, bareHost, ⟨rfl, rfl⟩, rfl, _, _, rfl, List.mem_singleton.mpr rfl⟩

def reloadedOps : List EngineOp :=
  [manualAt "a" 0, manualAt "b" 1, .replaceRules [manualSequence ["x", "y", "c"]],
    manualAt "c" 2]

/-- Two steps matched after recovery, then a reload to a sequence whose first
two steps never occurred: its third step alone fires the rule. -/
theorem reload_carries_progress_after_recovery :
    Accepted (fun _ => none) [manualSequence ["a", "b", "c"]] ∧
      Accepted (fun _ => none) [manualSequence ["x", "y", "c"]] ∧
      ∃ engine, run PolicyEngine.step (.new [manualSequence ["a", "b", "c"]] "normal" 0)
          [.setRecoveryMode true] = some engine ∧ engine.recoveryMode = true ∧
        FiresAt (engine.setRecoveryMode false) reloadedOps 3 (manualSequence ["x", "y", "c"])
          (eventAt (.manual "c") 2) ∧
        ¬ FiringExplained (engine.setRecoveryMode false) reloadedOps
          (manualSequence ["x", "y", "c"]) 3 := by
  refine ⟨⟨testConfig _, rfl, rfl⟩, ⟨testConfig _, rfl, rfl⟩, _, rfl, rfl,
    ⟨_, bareHost, ⟨rfl, rfl⟩, rfl, _, _, rfl, List.mem_singleton.mpr rfl⟩, ?_⟩
  intro hexplained
  obtain ⟨i, _, event, used, hfull⟩ := hexplained.sequence _ _ rfl
  cases hfull.matched with
  | @cons j _ _ _ hfirst _ =>
      obtain ⟨host, first, hop, hm⟩ := hfirst
      rcases j with _ | _ | _ | _ | j <;> cases hop <;> exact absurd hm (by decide)

end Kovert
