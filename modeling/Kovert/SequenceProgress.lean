import Kovert.Runs

/-!
# Sequence progress and the events behind it

A sequence rule stores only an index and one start time. `PartialMatch` recovers
from the history the increasing positions of the events that matched the steps
counted so far; `FullMatch` is what a completed sequence leaves. Both survive
expiry, restarts on the first step and ignored events.
-/

namespace Kovert

open Execution

/-- The operation at position `i` handles an event that matches `step`. -/
def StepMatchedAt (ops : List EngineOp) (i : ℕ) (step : TriggerSpec) : Prop :=
  ∃ host event, ops[i]? = some (.handle host event) ∧ triggerMatches step event = true

/-- The positions `used` match the first `sequenceIndex` steps in order, and
the first of them is the stored start. -/
structure PartialMatch (ops : List EngineOp) (steps : List TriggerSpec) (runtime : RuleRuntime)
    (used : List ℕ) : Prop where
  increasing : used.Pairwise (· < ·)
  matched : List.Forall₂ (StepMatchedAt ops) used (steps.take runtime.sequenceIndex)
  started : ∀ i, used.head? = some i → ∃ host event, ops[i]? = some (.handle host event) ∧
    runtime.sequenceStarted = some event.timestamp

/-- The positions `used` match all steps in order, end at `n`, and the first of
them is at most `within` before `event`. -/
structure FullMatch (ops : List EngineOp) (steps : List TriggerSpec) (within : Duration) (n : ℕ)
    (event : Event) (used : List ℕ) : Prop where
  increasing : used.Pairwise (· < ·)
  last : used.getLast? = some n
  matched : List.Forall₂ (StepMatchedAt ops) used steps
  inWindow : ∀ i, used.head? = some i → ∀ host first, ops[i]? = some (.handle host first) →
    event.timestamp ≤ first.timestamp + within

theorem StepMatchedAt.append {ops : List EngineOp} {i : ℕ} {step : TriggerSpec}
    (h : StepMatchedAt ops i step) (rest : List EngineOp) : StepMatchedAt (ops ++ rest) i step := by
  obtain ⟨host, event, hop, hm⟩ := h
  refine ⟨host, event, ?_, hm⟩
  rw [List.getElem?_append_left (List.getElem?_eq_some_iff.mp hop).1]
  exact hop

theorem StepMatchedAt.lt_length {ops : List EngineOp} {i : ℕ} {step : TriggerSpec}
    (h : StepMatchedAt ops i step) : i < ops.length := by
  obtain ⟨_, _, hop, _⟩ := h
  exact (List.getElem?_eq_some_iff.mp hop).1

theorem PartialMatch.lt_length {ops : List EngineOp} {steps : List TriggerSpec}
    {runtime : RuleRuntime} {used : List ℕ} (h : PartialMatch ops steps runtime used) {i : ℕ}
    (hi : i ∈ used) : i < ops.length := by
  obtain ⟨k, hk, rfl⟩ := List.mem_iff_getElem.mp hi
  have hm := h.matched.get hk (by rwa [← h.matched.length_eq])
  exact hm.lt_length

theorem PartialMatch.append {ops : List EngineOp} {steps : List TriggerSpec}
    {runtime : RuleRuntime} {used : List ℕ} (h : PartialMatch ops steps runtime used)
    (rest : List EngineOp) : PartialMatch (ops ++ rest) steps runtime used := by
  refine ⟨h.increasing, h.matched.imp fun i step hm => hm.append rest, ?_⟩
  intro i hi
  obtain ⟨host, event, hop, hstarted⟩ := h.started i hi
  refine ⟨host, event, ?_, hstarted⟩
  rw [List.getElem?_append_left (List.getElem?_eq_some_iff.mp hop).1]
  exact hop

theorem partialMatch_nil (ops : List EngineOp) (steps : List TriggerSpec) {runtime : RuleRuntime}
    (h : runtime.sequenceIndex = 0) : PartialMatch ops steps runtime [] := by
  refine ⟨List.Pairwise.nil, ?_, fun i hi => by cases hi⟩
  rw [h]
  exact List.Forall₂.nil

theorem PartialMatch.congr {ops : List EngineOp} {steps : List TriggerSpec}
    {runtime runtime' : RuleRuntime} {used : List ℕ} (h : PartialMatch ops steps runtime used)
    (hindex : runtime'.sequenceIndex = runtime.sequenceIndex)
    (hstarted : runtime'.sequenceStarted = runtime.sequenceStarted) :
    PartialMatch ops steps runtime' used :=
  ⟨h.increasing, hindex ▸ h.matched, hstarted ▸ h.started⟩

/-- The expiry check drops the whole partial match or finds it inside the window. -/
theorem PartialMatch.expire {ops : List EngineOp} {steps : List TriggerSpec}
    {runtime : RuleRuntime} {used : List ℕ} (h : PartialMatch ops steps runtime used)
    (within : Duration) (event : Event) :
    ∃ kept, kept ⊆ used ∧ PartialMatch ops steps (expireSequence runtime within event) kept ∧
      ∀ i, kept.head? = some i → ∀ host first, ops[i]? = some (.handle host first) →
        event.timestamp ≤ first.timestamp + within := by
  rcases expireSequence_cases runtime within event with he | ⟨he, hlive⟩
  · exact ⟨[], List.nil_subset _, partialMatch_nil ops steps (by rw [he]), fun i hi => by cases hi⟩
  · refine ⟨used, List.Subset.refl _, by rw [he]; exact h, ?_⟩
    intro i hi host first hop
    obtain ⟨host', first', hop', hstarted⟩ := h.started i hi
    cases hop.symm.trans hop'
    exact elapsed_le_iff.mp (hlive first.timestamp hstarted)

theorem pairwise_snoc_length {used : List ℕ} {n : ℕ} (h : used.Pairwise (· < ·))
    (hlt : ∀ i ∈ used, i < n) : (used ++ [n]).Pairwise (· < ·) := by
  rw [List.pairwise_append]
  refine ⟨h, List.pairwise_singleton _ _, ?_⟩
  intro i hi j hj
  rw [List.mem_singleton.mp hj]
  exact hlt i hi

/-- The event handled now extends a partial match by the step it was waiting for. -/
theorem PartialMatch.extend {ops : List EngineOp} {steps : List TriggerSpec}
    {live : RuleRuntime} {used : List ℕ} (h : PartialMatch ops steps live used) (host : Host)
    {event : Event} {expected : TriggerSpec} (hread : steps[live.sequenceIndex]? = some expected)
    (hyes : triggerMatches expected event = true) :
    List.Forall₂ (StepMatchedAt (ops ++ [.handle host event])) (used ++ [ops.length])
      (steps.take (live.sequenceIndex + 1)) := by
  rw [List.take_add_one, hread]
  apply List.rel_append (h.append _).matched
  refine List.Forall₂.cons ⟨host, event, ?_, hyes⟩ List.Forall₂.nil
  simp

theorem head?_snoc_cases {used : List ℕ} {n i : ℕ} (h : (used ++ [n]).head? = some i) :
    used = [] ∧ i = n ∨ used.head? = some i := by
  cases used with
  | nil => exact Or.inl ⟨rfl, (Option.some.inj h).symm⟩
  | cons j used => exact Or.inr h

/-- One call of `sequence_matches` keeps the stored progress explained, and a
completion leaves a full match. -/
theorem SequenceStep.explained {ops : List EngineOp} {steps : List TriggerSpec}
    {live next : RuleRuntime} {used : List ℕ} {event : Event} {matched : Bool}
    {within : Duration} (hstep : SequenceStep steps event live matched next) (host : Host)
    (h : PartialMatch ops steps live used)
    (hwindow : ∀ i, used.head? = some i → ∀ host first, ops[i]? = some (.handle host first) →
      event.timestamp ≤ first.timestamp + within) :
    ∃ used', PartialMatch (ops ++ [.handle host event]) steps next used' ∧
      (∀ i ∈ used', i ∈ used ∨ i = ops.length) ∧
      (matched = true → used' = [] ∧ ∃ full,
        FullMatch (ops ++ [.handle host event]) steps within ops.length event full ∧
          ∀ i ∈ full, i ∈ used ∨ i = ops.length) := by
  have hmem : ∀ i ∈ used ++ [ops.length], i ∈ used ∨ i = ops.length := by
    intro i hi
    simpa using hi
  have hhere : (ops ++ [EngineOp.handle host event])[ops.length]? =
      some (.handle host event) := by simp
  cases hstep with
  | ignored hread hno hfirst =>
      exact ⟨used, h.append _, fun i hi => Or.inl hi, fun hm => by cases hm⟩
  | restarted hread hno hhead hfirst =>
      refine ⟨[ops.length], ⟨List.pairwise_singleton _ _, ?_, ?_⟩, ?_, fun hm => by cases hm⟩
      · rw [List.take_add_one, hhead]
        exact List.Forall₂.cons ⟨host, event, hhere, hfirst⟩ List.Forall₂.nil
      · intro i hi
        cases hi
        exact ⟨host, event, hhere, rfl⟩
      · intro i hi
        exact Or.inr (List.mem_singleton.mp hi)
  | advanced hread hyes hlen =>
      refine ⟨used ++ [ops.length],
        ⟨pairwise_snoc_length h.increasing fun i hi => h.lt_length hi, h.extend host hread hyes, ?_⟩,
        hmem, fun hm => by cases hm⟩
      intro i hi
      rcases head?_snoc_cases hi with ⟨rfl, rfl⟩ | hi
      · have hzero : live.sequenceIndex = 0 := by
          have hlt := (List.getElem?_eq_some_iff.mp hread).1
          have hl := h.matched.length_eq
          rw [List.length_nil, List.length_take] at hl
          omega
        exact ⟨host, event, hhere, by simp [hzero]⟩
      · have hne : live.sequenceIndex ≠ 0 := by
          intro hzero
          have hmatched := h.matched
          rw [hzero] at hmatched
          cases hmatched
          cases hi
        obtain ⟨host', first, hop, hstarted⟩ := (h.append [.handle host event]).started i hi
        exact ⟨host', first, hop, by simp [hne, hstarted]⟩
  | completed hread hyes hlen =>
      refine ⟨[], partialMatch_nil _ _ rfl, fun i hi => (by cases hi), fun _ =>
        ⟨rfl, used ++ [ops.length], ⟨?_, by simp, ?_, ?_⟩, hmem⟩⟩
      · exact pairwise_snoc_length h.increasing fun i hi => h.lt_length hi
      · have hall := h.extend host hread hyes
        rwa [hlen, List.take_length] at hall
      · intro i hi host' first hop
        rcases head?_snoc_cases hi with ⟨rfl, rfl⟩ | hi
        · rw [hhere] at hop
          cases hop
          exact le_add_of_nonneg_right (Int.natCast_nonneg within)
        · obtain ⟨host₀, first₀, hop₀, _⟩ := h.started i hi
          rw [List.getElem?_append_left (List.getElem?_eq_some_iff.mp hop₀).1] at hop
          exact hwindow i hi host' first hop

theorem triggerStep_explained {ops : List EngineOp} {rule : Rule} {steps : List TriggerSpec}
    {within : Duration} {runtime next : RuleRuntime} {used : List ℕ} {event : Event}
    {matched : Bool} (ht : rule.trigger = .sequence steps within) (host : Host)
    (hstep : rule.triggerStep runtime event = some (matched, next))
    (h : PartialMatch ops steps runtime used) :
    ∃ used', PartialMatch (ops ++ [.handle host event]) steps next used' ∧
      (∀ i ∈ used', i ∈ used ∨ i = ops.length) ∧
      (matched = true → used' = [] ∧ ∃ full,
        FullMatch (ops ++ [.handle host event]) steps within ops.length event full ∧
          ∀ i ∈ full, i ∈ used ∨ i = ops.length) := by
  simp only [Rule.triggerStep, ht] at hstep
  rcases sequenceMatches_cases hstep with ⟨_, rfl, rfl⟩ | hstep
  · exact ⟨used, h.append _, fun i hi => Or.inl hi, fun hm => by cases hm⟩
  · obtain ⟨kept, hsub, hkept, hwindow⟩ := h.expire within event
    obtain ⟨used', hused', hmem, hfull⟩ := hstep.explained host hkept hwindow
    refine ⟨used', hused', fun i hi => (hmem i hi).imp_left (@hsub i), fun hm => ?_⟩
    obtain ⟨hnil, full, hmatch, hin⟩ := hfull hm
    exact ⟨hnil, full, hmatch, fun i hi => (hin i hi).imp_left (@hsub i)⟩

/-! ## Firings of a sequence rule -/

theorem FullMatch.le_last {ops : List EngineOp} {steps : List TriggerSpec} {within : Duration}
    {n : ℕ} {event : Event} {used : List ℕ} (h : FullMatch ops steps within n event used) {i : ℕ}
    (hi : i ∈ used) : i ≤ n := by
  obtain ⟨front, rfl⟩ := List.getLast?_eq_some_iff.mp h.last
  rcases List.mem_append.mp hi with hi | hi
  · exact ((List.pairwise_append.mp h.increasing).2.2 i hi n (List.mem_singleton.mpr rfl)).le
  · exact (List.mem_singleton.mp hi).le

theorem FullMatch.append {ops : List EngineOp} {steps : List TriggerSpec} {within : Duration}
    {n : ℕ} {event : Event} {used : List ℕ} (h : FullMatch ops steps within n event used)
    (hn : n < ops.length) (rest : List EngineOp) :
    FullMatch (ops ++ rest) steps within n event used := by
  refine ⟨h.increasing, h.last, h.matched.imp fun i step hm => hm.append rest, ?_⟩
  intro i hi host first hop
  have hlt : i < ops.length := Nat.lt_of_le_of_lt (h.le_last (List.mem_of_head? hi)) hn
  rw [List.getElem?_append_left hlt] at hop
  exact h.inWindow i hi host first hop

/-- The stored progress of the rule rests on events after its last firing. -/
structure SequenceExplained (start : PolicyEngine) (rule : Rule) (steps : List TriggerSpec)
    (ops : List EngineOp) (engine : PolicyEngine) : Prop where
  distinct : DistinctIds engine.rules
  mem : rule ∈ engine.rules
  unarmed : (engine.ruleRuntime rule.id).armedAt = none
  progress : ∃ used, PartialMatch ops steps (engine.ruleRuntime rule.id) used ∧
    ∀ n event, FiresAt start ops n rule event → ∀ i ∈ used, n < i

theorem SequenceExplained.quiet {start engine engine' : PolicyEngine} {rule : Rule}
    {steps : List TriggerSpec} {ops : List EngineOp} {op : EngineOp}
    (h : SequenceExplained start rule steps ops engine)
    (hrun : run PolicyEngine.step start ops = some engine)
    (hno : ∀ host event, op = .handle host event → ¬ engine.Fires host event rule)
    (hrules : engine'.rules = engine.rules)
    (hsame : engine'.ruleRuntime rule.id = engine.ruleRuntime rule.id) :
    SequenceExplained start rule steps (ops ++ [op]) engine' := by
  obtain ⟨used, hused, hafter⟩ := h.progress
  refine ⟨hrules ▸ h.distinct, hrules ▸ h.mem, hsame ▸ h.unarmed, used, hsame ▸ hused.append _, ?_⟩
  intro n event hf
  exact hafter n event (firesAt_snoc_of_not_fires hrun hno hf)

/-- The match a firing leaves, built on the progress stored before it. -/
theorem SequenceExplained.fullMatch {start engine : PolicyEngine} {rule : Rule}
    {steps : List TriggerSpec} {within : Duration} {ops : List EngineOp} {host : Host}
    {event : Event} (h : SequenceExplained start rule steps ops engine)
    (ht : rule.trigger = .sequence steps within) (hf : engine.Fires host event rule) :
    ∃ full, FullMatch (ops ++ [.handle host event]) steps within ops.length event full ∧
      ∀ n event', FiresAt start ops n rule event' → ∀ i ∈ full, n < i := by
  obtain ⟨used, hused, hafter⟩ := h.progress
  obtain ⟨_, _, ⟨armedAt, harmed, _⟩ | ⟨_, _, next, hstep⟩⟩ := hf.cases h.distinct
  · rw [h.unarmed] at harmed
    cases harmed
  · obtain ⟨_, _, _, hfull⟩ := triggerStep_explained ht host hstep hused
    obtain ⟨_, full, hmatch, hin⟩ := hfull rfl
    refine ⟨full, hmatch, ?_⟩
    intro n event' hn i hi
    rcases hin i hi with hi | rfl
    · exact hafter n event' hn i hi
    · exact hn.lt_length

theorem SequenceExplained.handle {start engine engine' : PolicyEngine} {rule : Rule}
    {steps : List TriggerSpec} {within : Duration} {ops : List EngineOp} {host : Host}
    {event : Event} {plans : List ActionPlan} (h : SequenceExplained start rule steps ops engine)
    (ht : rule.trigger = .sequence steps within) (hsustain : rule.sustainFor = 0)
    (hrun : run PolicyEngine.step start ops = some engine)
    (hh : engine.handle host event = some (engine', plans)) :
    SequenceExplained start rule steps (ops ++ [.handle host event]) engine' := by
  have hrules := (PolicyEngine.handle_frame hh).1
  cases hrec : engine.recoveryMode with
  | true =>
      rw [PolicyEngine.handle_recovery hrec] at hh
      cases hh
      exact h.quiet hrun (fun _ _ _ => PolicyEngine.not_fires_of_recovery hrec) rfl rfl
  | false =>
      obtain ⟨outcome, hstep, hfires⟩ := PolicyEngine.handle_ruleStep h.distinct hrec hh h.mem
      have hquiet : outcome ≠ .fired → ∀ host' event',
          EngineOp.handle host event = .handle host' event' →
            ¬ engine.Fires host' event' rule := by
        intro hne host' event' heq hf
        cases heq
        exact hne (hfires.mp hf)
      obtain ⟨used, hused, hafter⟩ := h.progress
      generalize hnext : engine'.ruleRuntime rule.id = next at hstep
      cases hstep with
      | blocked hidle hne => exact h.quiet hrun (hquiet hne) hrules hnext
      | disarmed hactive harmed => cases h.unarmed.symm.trans harmed
      | waiting hactive harmed => cases h.unarmed.symm.trans harmed
      | sustained hactive harmed => cases h.unarmed.symm.trans harmed
      | armed hactive hunarmed htrigger hcond hpositive => exact absurd hsustain hpositive
      | progressed hactive hunarmed htrigger hno =>
          obtain ⟨used', hused', hin, _⟩ := triggerStep_explained ht host htrigger hused
          refine ⟨hrules ▸ h.distinct, hrules ▸ h.mem, ?_, used', hnext ▸ hused', ?_⟩
          · rw [hnext, (triggerStep_frame htrigger).2.2, hunarmed]
          · intro n event' hf i hi
            have hf := firesAt_snoc_of_not_fires hrun (hquiet (by simp)) hf
            rcases hin i hi with hi | rfl
            · exact hafter n event' hf i hi
            · exact hf.lt_length
      | immediate hactive hunarmed htrigger =>
          obtain ⟨used', hused', _, hfull⟩ := triggerStep_explained ht host htrigger hused
          obtain ⟨rfl, _⟩ := hfull rfl
          refine ⟨hrules ▸ h.distinct, hrules ▸ h.mem, ?_, [], ?_, fun _ _ _ i hi => (by cases hi)⟩
          · rw [hnext]
            exact (triggerStep_frame htrigger).2.2.trans hunarmed
          · rw [hnext]
            exact hused'.congr rfl rfl

theorem run_sequenceExplained {start engine : PolicyEngine} {rule : Rule}
    {steps : List TriggerSpec} {within : Duration} {ops : List EngineOp}
    (hstart : SequenceExplained start rule steps [] start)
    (ht : rule.trigger = .sequence steps within) (hsustain : rule.sustainFor = 0)
    (hrun : run PolicyEngine.step start ops = some engine)
    (hall : AllSteps PolicyEngine.step (fun _ op => op.KeepsRules) start ops) :
    SequenceExplained start rule steps ops engine := by
  refine run_history (P := SequenceExplained start rule steps) hstart ?_ hrun hall
  intro ops m op t hm _ hop hinv hs
  cases op with
  | handle host event =>
      obtain ⟨plans, hh⟩ := step_handle hs
      exact hinv.handle ht hsustain hm hh
  | setMode mode =>
      cases hs
      exact hinv.quiet hm (fun _ _ heq => (by cases heq)) rfl rfl
  | setRecoveryMode enabled =>
      cases hs
      cases enabled with
      | false => exact hinv.quiet hm (fun _ _ heq => (by cases heq)) rfl rfl
      | true =>
          refine ⟨hinv.distinct, hinv.mem, ?_, [], partialMatch_nil _ _ ?_,
            fun _ _ _ i hi => (by cases hi)⟩
          · rw [PolicyEngine.setRecoveryMode_ruleRuntime]
            rfl
          · rw [PolicyEngine.setRecoveryMode_ruleRuntime]
            rfl
  | replaceRules rules => exact hop.elim

theorem new_sequenceExplained {rules : List Rule} {rule : Rule} (hd : DistinctIds rules)
    (hr : rule ∈ rules) (mode : String) (now : Timestamp) (steps : List TriggerSpec) :
    SequenceExplained (.new rules mode now) rule steps [] (.new rules mode now) := by
  refine ⟨new_distinctIds hd mode now, mem_sortRules.mpr hr, ?_, [], partialMatch_nil _ _ ?_,
    fun _ _ _ i hi => (by cases hi)⟩
  · rw [PolicyEngine.new_ruleRuntime]
    rfl
  · rw [PolicyEngine.new_ruleRuntime]
    rfl

/-- The match behind a firing lies after every earlier firing. -/
theorem FiresAt.exists_fullMatch {start : PolicyEngine} {rule : Rule} {steps : List TriggerSpec}
    {within : Duration} {ops : List EngineOp} {n : ℕ} {event : Event}
    (hf : FiresAt start ops n rule event) (hstart : SequenceExplained start rule steps [] start)
    (ht : rule.trigger = .sequence steps within) (hsustain : rule.sustainFor = 0)
    (hall : AllSteps PolicyEngine.step (fun _ op => op.KeepsRules) start ops) :
    ∃ full, FullMatch ops steps within n event full ∧
      ∀ k event', k < n → FiresAt start ops k rule event' → ∀ i ∈ full, k < i := by
  obtain ⟨engine, host, hv, hfires⟩ := hf
  have hinv := run_sequenceExplained hstart ht hsustain hv.2 (hall.take n)
  have hlength : (ops.take n).length = n := List.length_take_of_le hv.lt_length.le
  obtain ⟨full, hmatch, hafter⟩ := hinv.fullMatch ht hfires
  rw [hlength] at hmatch
  refine ⟨full, ?_, fun k event' hk hfk => hafter k event' (hfk.take hk)⟩
  rw [hv.split]
  exact hmatch.append (by simp [hlength]) _

/-- Every firing of a sequence rule is explained by events of its own: they
match the steps in order, within the window, and no other firing uses them. -/
theorem sequence_firings_sound (rules : List Rule) (mode : String) (now : Timestamp)
    (rule : Rule) (steps : List TriggerSpec) (within : Duration) (ops : List EngineOp)
    (hd : DistinctIds rules) (hr : rule ∈ rules) (ht : rule.trigger = .sequence steps within)
    (hsustain : rule.sustainFor = 0) (hops : ∀ op ∈ ops, op.KeepsRules) :
    ∃ used : ℕ → List ℕ,
      (∀ n event, FiresAt (.new rules mode now) ops n rule event →
        FullMatch ops steps within n event (used n)) ∧
      ∀ n n' event event', FiresAt (.new rules mode now) ops n rule event →
        FiresAt (.new rules mode now) ops n' rule event' → n ≠ n' →
          (used n).Disjoint (used n') := by
  have hstart := new_sequenceExplained hd hr mode now steps
  have hchoose : ∀ n, ∃ full, ∀ event, FiresAt (.new rules mode now) ops n rule event →
      FullMatch ops steps within n event full ∧
        ∀ k event', k < n → FiresAt (.new rules mode now) ops k rule event' →
          ∀ i ∈ full, k < i := by
    intro n
    by_cases hn : ∃ event, FiresAt (.new rules mode now) ops n rule event
    · obtain ⟨event, hf⟩ := hn
      obtain ⟨full, hmatch⟩ :=
        hf.exists_fullMatch hstart ht hsustain (allSteps_of_forall_mem hops)
      refine ⟨full, fun event' hf' => ?_⟩
      cases hf'.event_eq hf
      exact hmatch
    · exact ⟨[], fun event hf => absurd ⟨event, hf⟩ hn⟩
  choose used hused using hchoose
  refine ⟨used, fun n event hf => (hused n event hf).1, ?_⟩
  have hlt : ∀ n n' event event', FiresAt (.new rules mode now) ops n rule event →
      FiresAt (.new rules mode now) ops n' rule event' → n < n' →
        (used n).Disjoint (used n') := by
    intro n n' event event' hf hf' hn i hi hi'
    have hle := (hused n event hf).1.le_last hi
    have hgt := (hused n' event' hf').2 n event hn hf i hi'
    omega
  intro n n' event event' hf hf' hne
  rcases Nat.lt_or_gt_of_ne hne with hn | hn
  · exact hlt n n' event event' hf hf' hn
  · exact (hlt n' n event' event hf' hf hn).symm

def repeatedOps : List EngineOp :=
  [manualAt "a" 0, manualAt "b" 1, manualAt "x" 2, manualAt "a" 3, manualAt "b" 4]

theorem sequence_firings_sound_repeated :
    FiresAt (.new [manualSequence ["a", "b"]] "normal" 0) repeatedOps 1
        (manualSequence ["a", "b"]) (eventAt (.manual "b") 1) ∧
      FiresAt (.new [manualSequence ["a", "b"]] "normal" 0) repeatedOps 4
        (manualSequence ["a", "b"]) (eventAt (.manual "b") 4) ∧
      ∃ used : ℕ → List ℕ,
        FullMatch repeatedOps [.manual "a", .manual "b"] 5 1 (eventAt (.manual "b") 1) (used 1) ∧
          FullMatch repeatedOps [.manual "a", .manual "b"] 5 4 (eventAt (.manual "b") 4) (used 4) ∧
          (used 1).Disjoint (used 4) := by
  have hfirst : FiresAt (.new [manualSequence ["a", "b"]] "normal" 0) repeatedOps 1
      (manualSequence ["a", "b"]) (eventAt (.manual "b") 1) :=
    ⟨_, bareHost, ⟨rfl, rfl⟩, rfl, _, _, rfl, List.mem_singleton.mpr rfl⟩
  have hlast : FiresAt (.new [manualSequence ["a", "b"]] "normal" 0) repeatedOps 4
      (manualSequence ["a", "b"]) (eventAt (.manual "b") 4) :=
    ⟨_, bareHost, ⟨rfl, rfl⟩, rfl, _, _, rfl, List.mem_singleton.mpr rfl⟩
  obtain ⟨used, hmatch, hdisjoint⟩ := sequence_firings_sound [manualSequence ["a", "b"]] "normal" 0
    (manualSequence ["a", "b"]) [.manual "a", .manual "b"] 5 repeatedOps (by simp [DistinctIds])
    (by simp) rfl rfl (by simp [repeatedOps, manualAt, EngineOp.KeepsRules])
  exact ⟨hfirst, hlast, used, hmatch 1 _ hfirst, hmatch 4 _ hlast,
    hdisjoint 1 4 _ _ hfirst hlast (by decide)⟩

end Kovert
