import Kovert.Engine
import Kovert.Validation

/-!
# What one operation does to one rule

`SequenceStep` and `RuleStep` list everything `sequence_matches` and the loop
body of `handle` can do to a rule's record, with the guards they checked. On
rule lists with distinct ids the rules do not share records, so the loop
reduces to one `RuleStep` for each rule.
-/

namespace Kovert

/-- Effects of `sequence_matches` on the record `live` left by its expiry check. -/
inductive SequenceStep (steps : List TriggerSpec) (event : Event) (live : RuleRuntime) :
    Bool → RuleRuntime → Prop
  | ignored {expected : TriggerSpec} (hread : steps[live.sequenceIndex]? = some expected)
      (hno : triggerMatches expected event = false)
      (hfirst : ∀ first, steps[0]? = some first → triggerMatches first event = false) :
      SequenceStep steps event live false live
  | restarted {expected first : TriggerSpec} (hread : steps[live.sequenceIndex]? = some expected)
      (hno : triggerMatches expected event = false) (hhead : steps[0]? = some first)
      (hfirst : triggerMatches first event = true) :
      SequenceStep steps event live false
        { live with sequenceIndex := 1, sequenceStarted := some event.timestamp }
  | advanced {expected : TriggerSpec} (hread : steps[live.sequenceIndex]? = some expected)
      (hyes : triggerMatches expected event = true)
      (hlen : live.sequenceIndex + 1 ≠ steps.length) :
      SequenceStep steps event live false
        { live with
          sequenceIndex := live.sequenceIndex + 1
          sequenceStarted :=
            if live.sequenceIndex = 0 then some event.timestamp else live.sequenceStarted }
  | completed {expected : TriggerSpec} (hread : steps[live.sequenceIndex]? = some expected)
      (hyes : triggerMatches expected event = true)
      (hlen : live.sequenceIndex + 1 = steps.length) :
      SequenceStep steps event live true
        { live with sequenceIndex := 0, sequenceStarted := none }

theorem sequenceMatches_cases {runtime next : RuleRuntime} {steps : List TriggerSpec}
    {within : Duration} {event : Event} {matched : Bool}
    (h : sequenceMatches runtime steps within event = some (matched, next)) :
    steps = [] ∧ matched = false ∧ next = runtime ∨
      SequenceStep steps event (expireSequence runtime within event) matched next := by
  cases steps with
  | nil =>
      simp only [sequenceMatches, Option.some.injEq, Prod.mk.injEq] at h
      exact Or.inl ⟨rfl, h.1.symm, h.2.symm⟩
  | cons first rest =>
      right
      simp only [sequenceMatches] at h
      generalize hlive : expireSequence runtime within event = live at h ⊢
      cases hread : (first :: rest)[live.sequenceIndex]? with
      | none => simp [hread] at h
      | some expected =>
          simp only [hread] at h
          cases hm : triggerMatches expected event with
          | false =>
              cases hf : triggerMatches first event with
              | false =>
                  simp only [hm, hf, Bool.not_false, if_true, Bool.false_eq_true, if_false,
                    Option.some.injEq, Prod.mk.injEq] at h
                  obtain ⟨rfl, rfl⟩ := h
                  refine .ignored hread hm ?_
                  intro first' hfirst'
                  cases hfirst'
                  exact hf
              | true =>
                  simp only [hm, hf, Bool.not_false, if_true, Option.some.injEq,
                    Prod.mk.injEq] at h
                  obtain ⟨rfl, rfl⟩ := h
                  exact .restarted hread hm rfl hf
          | true =>
              have hidx : ∀ r : RuleRuntime,
                  (if r.sequenceIndex = 0 then { r with sequenceStarted := some event.timestamp }
                    else r).sequenceIndex = r.sequenceIndex := by
                intro r
                split_ifs <;> rfl
              simp only [hm, Bool.not_true, Bool.false_eq_true, if_false, hidx] at h
              by_cases hlen : live.sequenceIndex + 1 = (first :: rest).length
              · rw [if_pos hlen] at h
                have hstep := SequenceStep.completed hread hm hlen
                by_cases h0 : live.sequenceIndex = 0
                · simp only [h0, if_true, Option.some.injEq, Prod.mk.injEq] at h
                  obtain ⟨rfl, rfl⟩ := h
                  exact hstep
                · simp only [h0, if_false, Option.some.injEq, Prod.mk.injEq] at h
                  obtain ⟨rfl, rfl⟩ := h
                  exact hstep
              · rw [if_neg hlen] at h
                have hstep := SequenceStep.advanced hread hm hlen
                by_cases h0 : live.sequenceIndex = 0
                · simp only [h0, if_true, Option.some.injEq, Prod.mk.injEq] at h hstep
                  obtain ⟨rfl, rfl⟩ := h
                  exact hstep
                · simp only [h0, if_false, Option.some.injEq, Prod.mk.injEq] at h hstep
                  obtain ⟨rfl, rfl⟩ := h
                  exact hstep

/-- The read of `steps[runtime.sequence_index]` panics exactly when the index
left by the expiry check is past the end. -/
theorem sequenceMatches_eq_none {runtime : RuleRuntime} {steps : List TriggerSpec}
    {within : Duration} {event : Event} :
    sequenceMatches runtime steps within event = none ↔
      steps ≠ [] ∧ steps.length ≤ (expireSequence runtime within event).sequenceIndex := by
  cases steps with
  | nil => simp [sequenceMatches]
  | cons first rest =>
      simp only [sequenceMatches]
      generalize expireSequence runtime within event = live
      cases hread : (first :: rest)[live.sequenceIndex]? with
      | none =>
          have hle := List.getElem?_eq_none_iff.mp hread
          simpa using hle
      | some expected =>
          have hlt : live.sequenceIndex < (first :: rest).length :=
            (List.getElem?_eq_some_iff.mp hread).1
          simp only [ne_eq, reduceCtorEq, not_false_eq_true, true_and]
          constructor
          · intro h
            split_ifs at h
          · intro h
            omega

theorem expireSequence_cases (runtime : RuleRuntime) (within : Duration) (event : Event) :
    expireSequence runtime within event =
        { runtime with sequenceIndex := 0, sequenceStarted := none } ∨
      expireSequence runtime within event = runtime ∧
        ∀ start, runtime.sequenceStarted = some start →
          elapsed event.timestamp start ≤ within := by
  unfold expireSequence
  split_ifs with h
  · exact Or.inl rfl
  · refine Or.inr ⟨rfl, ?_⟩
    intro start hstart
    simpa [hstart] using h

/-! ## The loop body -/

/-- The rule is evaluated: enabled, not rate-limited, not diverted by its
sensor-failure policy. -/
structure Active (rule : Rule) (runtime : RuleRuntime) (event : Event) : Prop where
  enabled : rule.enabled = true
  unlimited : rateLimited rule runtime event = false
  undiverted : sensorFailureOutcome rule event = none

inductive RuleStep (host : Host) (snapshot : SystemSnapshot) (event : Event) (rule : Rule)
    (runtime : RuleRuntime) : RuleRuntime → RuleOutcome → Prop
  | blocked {outcome : RuleOutcome} (hidle : ¬ Active rule runtime event)
      (hne : outcome ≠ .fired) : RuleStep host snapshot event rule runtime runtime outcome
  | disarmed {armedAt : Timestamp} (hactive : Active rule runtime event)
      (harmed : runtime.armedAt = some armedAt)
      (hcond : rule.conditionsMatch host snapshot = false) :
      RuleStep host snapshot event rule runtime { runtime with armedAt := none } .skipped
  | waiting {armedAt : Timestamp} (hactive : Active rule runtime event)
      (harmed : runtime.armedAt = some armedAt)
      (hcond : rule.conditionsMatch host snapshot = true)
      (helapsed : elapsed event.timestamp armedAt < rule.sustainFor) :
      RuleStep host snapshot event rule runtime runtime .skipped
  | sustained {armedAt : Timestamp} (hactive : Active rule runtime event)
      (harmed : runtime.armedAt = some armedAt)
      (hcond : rule.conditionsMatch host snapshot = true)
      (helapsed : rule.sustainFor ≤ elapsed event.timestamp armedAt) :
      RuleStep host snapshot event rule runtime
        (RuleRuntime.markFired { runtime with armedAt := none } event) .fired
  | progressed {matched : Bool} {next : RuleRuntime} (hactive : Active rule runtime event)
      (hunarmed : runtime.armedAt = none)
      (htrigger : rule.triggerStep runtime event = some (matched, next))
      (hno : matched = false ∨ rule.conditionsMatch host snapshot = false) :
      RuleStep host snapshot event rule runtime next .skipped
  | immediate {next : RuleRuntime} (hactive : Active rule runtime event)
      (hunarmed : runtime.armedAt = none)
      (htrigger : rule.triggerStep runtime event = some (true, next))
      (hcond : rule.conditionsMatch host snapshot = true) (hsustain : rule.sustainFor = 0) :
      RuleStep host snapshot event rule runtime (next.markFired event) .fired
  | armed {next : RuleRuntime} (hactive : Active rule runtime event)
      (hunarmed : runtime.armedAt = none)
      (htrigger : rule.triggerStep runtime event = some (true, next))
      (hcond : rule.conditionsMatch host snapshot = true) (hsustain : rule.sustainFor ≠ 0) :
      RuleStep host snapshot event rule runtime
        { next with armedAt := some event.timestamp } .skipped

theorem sensorFailureOutcome_ne_fired {rule : Rule} {event : Event} {outcome : RuleOutcome}
    (h : sensorFailureOutcome rule event = some outcome) : outcome ≠ .fired := by
  unfold sensorFailureOutcome at h
  rintro rfl
  split at h
  · split_ifs at h
    split at h <;> cases h
  · cases h

theorem evalRule_ruleStep {host : Host} {snapshot : SystemSnapshot} {event : Event} {rule : Rule}
    {runtime next : RuleRuntime} {outcome : RuleOutcome}
    (h : evalRule host snapshot event rule runtime = some (next, outcome)) :
    RuleStep host snapshot event rule runtime next outcome := by
  unfold evalRule at h
  by_cases hguard : (!rule.enabled || rateLimited rule runtime event) = true
  · rw [if_pos hguard] at h
    cases h
    refine .blocked ?_ (by simp)
    intro hactive
    simp [hactive.enabled, hactive.unlimited] at hguard
  rw [if_neg hguard] at h
  simp only [Bool.or_eq_true, Bool.not_eq_true', not_or, Bool.not_eq_false,
    Bool.not_eq_true] at hguard
  cases hs : sensorFailureOutcome rule event with
  | some diverted =>
      simp only [hs] at h
      cases h
      refine .blocked ?_ (sensorFailureOutcome_ne_fired hs)
      intro hactive
      rw [hactive.undiverted] at hs
      cases hs
  | none =>
      have hactive : Active rule runtime event := ⟨hguard.1, hguard.2, hs⟩
      simp only [hs] at h
      cases ha : runtime.armedAt with
      | some armedAt =>
          simp only [ha] at h
          split_ifs at h with hcond helapsed
          · cases h
            exact .disarmed hactive ha (by simpa using hcond)
          · cases h
            exact .waiting hactive ha (by simpa using hcond) helapsed
          · cases h
            exact .sustained hactive ha (by simpa using hcond) (not_lt.mp helapsed)
      | none =>
          simp only [ha] at h
          cases ht : rule.triggerStep runtime event with
          | none => simp [ht] at h
          | some result =>
              obtain ⟨matched, after⟩ := result
              simp only [ht] at h
              split_ifs at h with hno hsustain
              · cases h
                exact .progressed hactive ha ht (by simpa using hno)
              · cases h
                simp only [Bool.or_eq_true, Bool.not_eq_true', not_or, Bool.not_eq_false] at hno
                exact .immediate hactive ha (hno.1 ▸ ht) hno.2 hsustain
              · cases h
                simp only [Bool.or_eq_true, Bool.not_eq_true', not_or, Bool.not_eq_false] at hno
                exact .armed hactive ha (hno.1 ▸ ht) hno.2 hsustain

/-- Only the sequence read can abort the loop body. -/
theorem evalRule_eq_none {host : Host} {snapshot : SystemSnapshot} {event : Event} {rule : Rule}
    {runtime : RuleRuntime} :
    evalRule host snapshot event rule runtime = none ↔
      Active rule runtime event ∧ runtime.armedAt = none ∧
        rule.triggerStep runtime event = none := by
  constructor
  · intro h
    unfold evalRule at h
    by_cases hguard : (!rule.enabled || rateLimited rule runtime event) = true
    · rw [if_pos hguard] at h
      cases h
    rw [if_neg hguard] at h
    simp only [Bool.or_eq_true, Bool.not_eq_true', not_or, Bool.not_eq_false,
      Bool.not_eq_true] at hguard
    cases hs : sensorFailureOutcome rule event with
    | some diverted => simp [hs] at h
    | none =>
        simp only [hs] at h
        cases ha : runtime.armedAt with
        | some armedAt =>
            simp only [ha] at h
            split_ifs at h
        | none =>
            simp only [ha] at h
            cases ht : rule.triggerStep runtime event with
            | none => exact ⟨⟨hguard.1, hguard.2, hs⟩, rfl, rfl⟩
            | some result =>
                simp only [ht] at h
                split_ifs at h
  · rintro ⟨hactive, ha, ht⟩
    simp [evalRule, hactive.enabled, hactive.unlimited, hactive.undiverted, ha, ht]

theorem triggerStep_frame {rule : Rule} {runtime next : RuleRuntime} {event : Event}
    {matched : Bool} (h : rule.triggerStep runtime event = some (matched, next)) :
    next.lastFired = runtime.lastFired ∧ next.firedOnce = runtime.firedOnce ∧
      next.armedAt = runtime.armedAt := by
  have hexpire : ∀ within : Duration,
      (expireSequence runtime within event).lastFired = runtime.lastFired ∧
        (expireSequence runtime within event).firedOnce = runtime.firedOnce ∧
        (expireSequence runtime within event).armedAt = runtime.armedAt := by
    intro within
    rcases expireSequence_cases runtime within event with he | ⟨he, _⟩ <;> simp [he]
  unfold Rule.triggerStep at h
  split at h
  · next steps within _ =>
    rcases sequenceMatches_cases h with ⟨_, _, rfl⟩ | hstep
    · exact ⟨rfl, rfl, rfl⟩
    · cases hstep <;> exact hexpire within
  · cases h
    exact ⟨rfl, rfl, rfl⟩

end Kovert
