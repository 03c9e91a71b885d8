import Kovert.SequenceBounds
import Kovert.SequenceProgress

/-!
# When a window of matching events fires a sequence rule

The matcher keeps a single attempt. If the first event of a window that spells
the whole sequence is taken as the next step of an older attempt, the window's
own attempt is never begun, and the rule fires inside the window only when the
older attempt completes there. `CompletesFrom` says when it does, in terms of
the steps, the index and the deadline of that attempt.
-/

namespace Kovert

open Execution

/-- An attempt that waits for step `index` and expires after `deadline`
completes on these events: each event up to the last matching one is the step
awaited, or matches neither it nor the first step. -/
inductive CompletesFrom (steps : List TriggerSpec) (deadline : Timestamp) : ℕ → List Event → Prop
  | last {index : ℕ} {awaited : TriggerSpec} {event : Event} {rest : List Event}
      (hread : steps[index]? = some awaited) (hyes : triggerMatches awaited event = true)
      (hlen : index + 1 = steps.length) (htime : event.timestamp ≤ deadline) :
      CompletesFrom steps deadline index (event :: rest)
  | next {index : ℕ} {awaited : TriggerSpec} {event : Event} {rest : List Event}
      (hread : steps[index]? = some awaited) (hyes : triggerMatches awaited event = true)
      (hlen : index + 1 ≠ steps.length) (htime : event.timestamp ≤ deadline)
      (hrest : CompletesFrom steps deadline (index + 1) rest) :
      CompletesFrom steps deadline index (event :: rest)
  | skip {index : ℕ} {awaited : TriggerSpec} {event : Event} {rest : List Event}
      (hread : steps[index]? = some awaited) (hno : triggerMatches awaited event = false)
      (hfirst : ∀ first, steps[0]? = some first → triggerMatches first event = false)
      (htime : event.timestamp ≤ deadline) (hrest : CompletesFrom steps deadline index rest) :
      CompletesFrom steps deadline index (event :: rest)

/-- The event is the step awaited by an attempt begun at `begun` and not expired. -/
def ContinuesAttempt (steps : List TriggerSpec) (within : Duration) (runtime : RuleRuntime)
    (event : Event) (begun : Timestamp) : Prop :=
  runtime.sequenceIndex ≠ 0 ∧ runtime.sequenceStarted = some begun ∧
    event.timestamp ≤ begun + within ∧
    ∃ awaited, steps[runtime.sequenceIndex]? = some awaited ∧ triggerMatches awaited event = true

/-- A rule that fires whenever its sequence completes. -/
structure PlainSequence (rule : Rule) (steps : List TriggerSpec) (within : Duration) : Prop where
  trigger : rule.trigger = .sequence steps within
  enabled : rule.enabled = true
  unconditional : rule.when = none
  cooldown : rule.cooldown = 0
  sustainFor : rule.sustainFor = 0
  repeatable : rule.oncePerBoot = false

/-! ## The matcher on a list of events -/

/-- Some call of `sequence_matches` along the events returns true. -/
def Completes (steps : List TriggerSpec) (within : Duration) : RuleRuntime → List Event → Prop
  | _, [] => False
  | runtime, event :: rest =>
    match sequenceMatches runtime steps within event with
    | none => False
    | some (matched, next) => matched = true ∨ Completes steps within next rest

theorem completes_cons {steps : List TriggerSpec} {within : Duration} {runtime next : RuleRuntime}
    {event : Event} {rest : List Event} {matched : Bool}
    (h : sequenceMatches runtime steps within event = some (matched, next)) :
    Completes steps within runtime (event :: rest) ↔
      matched = true ∨ Completes steps within next rest := by
  rw [Completes, h]

/-- Within bounds the matcher takes a `SequenceStep`. -/
theorem sequenceMatches_some {runtime : RuleRuntime} {steps : List TriggerSpec} {within : Duration}
    {event : Event} (hlt : runtime.sequenceIndex < steps.length) :
    ∃ matched next, sequenceMatches runtime steps within event = some (matched, next) ∧
      SequenceStep steps event (expireSequence runtime within event) matched next := by
  cases h : sequenceMatches runtime steps within event with
  | none =>
      have hle := (sequenceMatches_eq_none.mp h).2
      have hexpire := expireSequence_index_le runtime within event
      omega
  | some result =>
      obtain ⟨matched, next⟩ := result
      rcases sequenceMatches_cases h with ⟨rfl, _⟩ | hstep
      · simp at hlt
      · exact ⟨matched, next, rfl, hstep⟩

theorem SequenceStep.index_le {steps : List TriggerSpec} {event : Event}
    {live next : RuleRuntime} {matched : Bool} (h : SequenceStep steps event live matched next) :
    next.sequenceIndex ≤ live.sequenceIndex + 1 := by
  cases h with
  | ignored => exact Nat.le_succ _
  | restarted => exact Nat.le_add_left 1 _
  | advanced => exact le_rfl
  | completed => exact Nat.zero_le _

/-- Each event moves the index by at most one. -/
theorem Completes.length_le {steps : List TriggerSpec} {within : Duration} {runtime : RuleRuntime}
    {events : List Event} (hlong : 2 ≤ steps.length)
    (hlt : runtime.sequenceIndex < steps.length) (h : Completes steps within runtime events) :
    steps.length ≤ runtime.sequenceIndex + events.length := by
  induction events generalizing runtime with
  | nil => exact h.elim
  | cons event rest ih =>
      obtain ⟨matched, next, heq, hstep⟩ := sequenceMatches_some hlt
      have hexpire := expireSequence_index_le runtime within event
      rcases (completes_cons heq).mp h with rfl | hrest
      · cases hstep with
        | completed hread hyes hlen =>
            rw [List.length_cons]
            omega
      · have hnext := hstep.index_lt hlong
        have hmoved := hstep.index_le
        have hcount := ih hnext hrest
        rw [List.length_cons]
        omega

/-- An event cannot both match and miss the step awaited. -/
theorem awaited_absurd {steps : List TriggerSpec} {index : ℕ} {step step' : TriggerSpec}
    {event : Event} (hread : steps[index]? = some step) (hread' : steps[index]? = some step')
    (hyes : triggerMatches step event = true) (hno : triggerMatches step' event = false) :
    False := by
  cases hread.symm.trans hread'
  rw [hyes] at hno
  cases hno

/-- In time, a match of the awaited step that is not the last moves on to the next one. -/
theorem completesFrom_cons_of_match {steps : List TriggerSpec} {deadline : Timestamp} {index : ℕ}
    {awaited : TriggerSpec} {event : Event} {rest : List Event}
    (hread : steps[index]? = some awaited) (hyes : triggerMatches awaited event = true)
    (hlen : index + 1 ≠ steps.length) (htime : event.timestamp ≤ deadline) :
    CompletesFrom steps deadline index (event :: rest) ↔
      CompletesFrom steps deadline (index + 1) rest := by
  constructor
  · intro h
    cases h with
    | last _ _ hlast => exact absurd hlast hlen
    | next _ _ _ _ hrest => exact hrest
    | skip hread' hno => exact (awaited_absurd hread hread' hyes hno).elim
  · intro hrest
    exact .next hread hyes hlen htime hrest

/-- In time, a miss of the awaited step is skipped unless it begins the sequence anew. -/
theorem completesFrom_cons_of_miss {steps : List TriggerSpec} {deadline : Timestamp} {index : ℕ}
    {awaited : TriggerSpec} {event : Event} {rest : List Event}
    (hread : steps[index]? = some awaited) (hno : triggerMatches awaited event = false)
    (htime : event.timestamp ≤ deadline) :
    CompletesFrom steps deadline index (event :: rest) ↔
      (∀ first, steps[0]? = some first → triggerMatches first event = false) ∧
        CompletesFrom steps deadline index rest := by
  constructor
  · intro h
    cases h with
    | last hread' hyes => exact (awaited_absurd hread' hread hyes hno).elim
    | next hread' hyes => exact (awaited_absurd hread' hread hyes hno).elim
    | skip _ _ hquiet _ hrest => exact ⟨hquiet, hrest⟩
  · rintro ⟨hquiet, hrest⟩
    exact .skip hread hno hquiet htime hrest

theorem expireSequence_live {runtime : RuleRuntime} {within : Duration} {event : Event}
    {begun : Timestamp} (hstarted : runtime.sequenceStarted = some begun)
    (htime : event.timestamp ≤ begun + within) : expireSequence runtime within event = runtime := by
  have hle : elapsed event.timestamp begun ≤ within := elapsed_le_iff.mpr htime
  simp [expireSequence, hstarted, hle]

theorem expireSequence_expired {runtime : RuleRuntime} {within : Duration} {event : Event}
    {begun : Timestamp} (hstarted : runtime.sequenceStarted = some begun)
    (htime : ¬ event.timestamp ≤ begun + within) :
    (expireSequence runtime within event).sequenceIndex = 0 := by
  rcases expireSequence_cases runtime within event with he | ⟨_, hlive⟩
  · rw [he]
  · exact absurd (elapsed_le_iff.mp (hlive begun hstarted)) htime

/-- With fewer events left than the sequence has steps, only the attempt under
way can complete: an expiry or a restart leaves too few events. -/
theorem completes_iff_completesFrom {steps : List TriggerSpec} {runtime : RuleRuntime}
    {begun : Timestamp} {events : List Event} (within : Duration) (hlong : 2 ≤ steps.length)
    (hlt : runtime.sequenceIndex < steps.length) (hpos : runtime.sequenceIndex ≠ 0)
    (hstarted : runtime.sequenceStarted = some begun) (hfew : events.length < steps.length) :
    Completes steps within runtime events ↔
      CompletesFrom steps (begun + within) runtime.sequenceIndex events := by
  induction events generalizing runtime with
  | nil =>
      constructor
      · exact fun h => h.elim
      · intro h
        cases h
  | cons event rest ih =>
      rw [List.length_cons] at hfew
      obtain ⟨matched, next, heq, hstep⟩ := sequenceMatches_some hlt
      rw [completes_cons heq]
      have hbound := hstep.index_lt hlong
      have hcount : Completes steps within next rest →
          steps.length ≤ next.sequenceIndex + rest.length :=
        fun hrest => hrest.length_le hlong hbound
      by_cases htime : event.timestamp ≤ begun + within
      · rw [expireSequence_live hstarted htime] at hstep
        cases hstep with
        | ignored hread hno hfirst =>
            have ih := ih hlt hpos hstarted (by omega)
            rw [completesFrom_cons_of_miss hread hno htime, ih]
            constructor
            · rintro (hm | hrest)
              · cases hm
              · exact ⟨hfirst, hrest⟩
            · exact fun h => Or.inr h.2
        | restarted hread hno hhead hfirst =>
            rw [completesFrom_cons_of_miss hread hno htime]
            constructor
            · rintro (hm | hrest)
              · cases hm
              · have hle : steps.length ≤ 1 + rest.length := hcount hrest
                omega
            · rintro ⟨hquiet, _⟩
              exact (awaited_absurd hhead hhead hfirst (hquiet _ hhead)).elim
        | advanced hread hyes hlen =>
            have ih := ih hbound (Nat.succ_ne_zero _) (by simp [hpos, hstarted]) (by omega)
            rw [completesFrom_cons_of_match hread hyes hlen htime, ih]
            simp only [Bool.false_eq_true, false_or]
        | completed hread hyes hlen =>
            exact iff_of_true (Or.inl rfl) (.last hread hyes hlen htime)
      · have hzero := expireSequence_expired hstarted htime
        constructor
        · rintro (rfl | hrest)
          · cases hstep with
            | completed _ _ hlen => omega
          · have hmoved := hstep.index_le
            have hle := hcount hrest
            omega
        · intro h
          cases h <;> contradiction

theorem completesFrom_of_matching {steps : List TriggerSpec} {deadline : Timestamp} {index : ℕ}
    {events : List Event} (hlt : index < steps.length)
    (hmatch : List.Forall₂ (fun step event => triggerMatches step event = true)
      (steps.drop index) events)
    (htime : ∀ event ∈ events, event.timestamp ≤ deadline) :
    CompletesFrom steps deadline index events := by
  induction events generalizing index with
  | nil =>
      have hlength := hmatch.length_eq
      rw [List.length_drop, List.length_nil] at hlength
      omega
  | cons event rest ih =>
      rw [List.drop_eq_getElem_cons hlt] at hmatch
      obtain ⟨hyes, hrest⟩ := List.forall₂_cons.mp hmatch
      have hread : steps[index]? = some steps[index] := List.getElem?_eq_getElem hlt
      have hnow := htime event List.mem_cons_self
      by_cases hlen : index + 1 = steps.length
      · exact .last hread hyes hlen hnow
      · refine .next hread hyes hlen hnow (ih (by omega) hrest ?_)
        intro later hlater
        exact htime later (List.mem_cons_of_mem _ hlater)

/-- A window that spells the sequence completes it unless its first event
continues an older attempt that does not itself complete in the window. -/
theorem window_completes_iff {steps : List TriggerSpec} {within : Duration}
    {runtime : RuleRuntime} {first : Event} {rest : List Event} (hlong : 2 ≤ steps.length)
    (hlt : runtime.sequenceIndex < steps.length)
    (hmatch : List.Forall₂ (fun step event => triggerMatches step event = true)
      steps (first :: rest))
    (hbegun : runtime.sequenceIndex ≠ 0 → ∃ begun, runtime.sequenceStarted = some begun)
    (htime : ∀ event ∈ rest, event.timestamp ≤ first.timestamp + within) :
    Completes steps within runtime (first :: rest) ↔
      ∀ begun, ContinuesAttempt steps within runtime first begun →
        CompletesFrom steps (begun + within) runtime.sequenceIndex (first :: rest) := by
  have hfew : rest.length < steps.length := by
    rw [hmatch.length_eq, List.length_cons]
    omega
  obtain ⟨matched, next, heq, hstep⟩ := sequenceMatches_some hlt
  rw [completes_cons heq]
  have hbound := hstep.index_lt hlong
  -- An attempt begun by the first event of the window runs through it.
  have hfresh : next.sequenceIndex = 1 → next.sequenceStarted = some first.timestamp →
      Completes steps within next rest := by
    intro hindex hstarted
    rw [completes_iff_completesFrom within hlong (by omega) (by omega) hstarted hfew]
    apply completesFrom_of_matching (by omega) _ htime
    rw [hindex, List.drop_one]
    cases hmatch with
    | cons _ hrest => exact hrest
  by_cases hcont : ∃ begun, ContinuesAttempt steps within runtime first begun
  · obtain ⟨begun, hcont⟩ := hcont
    obtain ⟨hpos, hstarted, hnow, awaited, hread, hyes⟩ := hcont
    rw [expireSequence_live hstarted hnow] at hstep
    cases hstep with
    | ignored hread' hno => exact (awaited_absurd hread hread' hyes hno).elim
    | restarted hread' hno => exact (awaited_absurd hread hread' hyes hno).elim
    | advanced hread' hyes' hlen =>
        have hiff := completes_iff_completesFrom within hlong hbound (Nat.succ_ne_zero _)
          ((if_neg hpos).trans hstarted) hfew
        constructor
        · rintro (hm | hrest) begun' ⟨_, hstarted', _⟩
          · cases hm
          · cases hstarted.symm.trans hstarted'
            exact (completesFrom_cons_of_match hread hyes hlen hnow).mpr (hiff.mp hrest)
        · intro h
          have hfrom := h begun ⟨hpos, hstarted, hnow, awaited, hread, hyes⟩
          exact Or.inr (hiff.mpr ((completesFrom_cons_of_match hread hyes hlen hnow).mp hfrom))
    | completed hread' hyes' hlen =>
        refine iff_of_true (Or.inl rfl) ?_
        rintro begun' ⟨_, _, hnow', _⟩
        exact .last hread hyes hlen hnow'
  · refine iff_of_true ?_ fun begun h => absurd ⟨begun, h⟩ hcont
    obtain ⟨step, tail, hmatchFirst, _, rfl⟩ := List.forall₂_cons_right_iff.mp hmatch
    have hhead : (step :: tail)[0]? = some step := rfl
    cases hstep with
    | ignored hread hno hquiet =>
        exact (awaited_absurd hhead hhead hmatchFirst (hquiet step hhead)).elim
    | restarted => exact Or.inr (hfresh rfl rfl)
    | advanced hread hyes hlen =>
        by_cases hzero : (expireSequence runtime within first).sequenceIndex = 0
        · exact Or.inr (hfresh (by simp [hzero]) (by simp [hzero]))
        · rcases expireSequence_cases runtime within first with he | ⟨he, hlive⟩
          · simp [he] at hzero
          · rw [he] at hzero hread
            obtain ⟨begun, hstarted⟩ := hbegun hzero
            have hnow := elapsed_le_iff.mp (hlive begun hstarted)
            exact absurd ⟨begun, hzero, hstarted, hnow, _, hread, hyes⟩ hcont
    | completed => exact Or.inl rfl

/-! ## The window in a run of the engine -/

/-- No reload, no entry into recovery and no sensor failure. -/
def EngineOp.Undisturbed : EngineOp → Prop
  | .handle _ event => ∀ sensor message, event.kind ≠ .sensorFailure sensor message
  | .setMode _ => True
  | .setRecoveryMode enabled => enabled = false
  | .replaceRules _ => False

structure Watching (rule : Rule) (engine : PolicyEngine) : Prop where
  inBounds : SequencesInBounds engine
  mem : rule ∈ engine.rules
  unarmed : (engine.ruleRuntime rule.id).armedAt = none
  live : engine.recoveryMode = false

theorem PlainSequence.active {rule : Rule} {steps : List TriggerSpec} {within : Duration}
    (h : PlainSequence rule steps within) {event : Event}
    (hkind : ∀ sensor message, event.kind ≠ .sensorFailure sensor message)
    (runtime : RuleRuntime) : Active rule runtime event := by
  refine ⟨h.enabled, ?_, ?_⟩
  · simp [rateLimited, h.repeatable, h.cooldown]
  · unfold sensorFailureOutcome
    split
    · next sensor message heq => exact absurd heq (hkind sensor message)
    · rfl

/-- An undisturbed event fires the rule exactly when its sequence completes. -/
theorem Watching.handle {rule : Rule} {steps : List TriggerSpec} {within : Duration}
    {engine : PolicyEngine} {event : Event} (h : Watching rule engine)
    (hplain : PlainSequence rule steps within)
    (hkind : ∀ sensor message, event.kind ≠ .sensorFailure sensor message) (host : Host) :
    ∃ engine' matched next, engine.step (.handle host event) = some engine' ∧
      Watching rule engine' ∧
      sequenceMatches (engine.ruleRuntime rule.id) steps within event = some (matched, next) ∧
      (engine.Fires host event rule ↔ matched = true) ∧
      (matched = false → engine'.ruleRuntime rule.id = next) := by
  obtain ⟨⟨engine', plans⟩, hh⟩ := Option.isSome_iff_exists.mp (h.inBounds.handle_isSome host event)
  have hs : engine.step (.handle host event) = some engine' := by
    rw [PolicyEngine.step, hh]
    rfl
  have hinBounds : SequencesInBounds engine' :=
    step_sequencesInBounds (show FittingReload (fun _ => none) engine (.handle host event) from
      trivial) h.inBounds hs
  obtain ⟨hrules, hrec, _⟩ := PolicyEngine.handle_frame hh
  obtain ⟨outcome, hstep, hfires⟩ :=
    PolicyEngine.handle_ruleStep h.inBounds.distinct h.live hh h.mem
  have hcond : rule.conditionsMatch host (engine.snapshot.apply event) = true := by
    simp [Rule.conditionsMatch, hplain.unconditional]
  have hwatch : (engine'.ruleRuntime rule.id).armedAt = none → Watching rule engine' :=
    fun hunarmed => ⟨hinBounds, hrules ▸ h.mem, hunarmed, hrec.trans h.live⟩
  generalize hnext : engine'.ruleRuntime rule.id = after at hstep hwatch
  cases hstep with
  | blocked hidle => exact absurd (hplain.active hkind _) hidle
  | disarmed hactive harmed => cases h.unarmed.symm.trans harmed
  | waiting hactive harmed => cases h.unarmed.symm.trans harmed
  | sustained hactive harmed => cases h.unarmed.symm.trans harmed
  | armed hactive hunarmed htrigger hcond hpositive => exact absurd hplain.sustainFor hpositive
  | @progressed matched _ hactive hunarmed htrigger hno =>
      have hmatched : matched = false := hno.resolve_right (by simp [hcond])
      have hframe := (triggerStep_frame htrigger).2.2
      simp only [Rule.triggerStep, hplain.trigger] at htrigger
      exact ⟨engine', matched, after, hs, hwatch (hframe.trans hunarmed), htrigger,
        by simp [hfires, hmatched], fun _ => hnext⟩
  | @immediate next hactive hunarmed htrigger =>
      have hframe := (triggerStep_frame htrigger).2.2
      simp only [Rule.triggerStep, hplain.trigger] at htrigger
      exact ⟨engine', true, next, hs, hwatch (hframe.trans hunarmed), htrigger,
        by simp [hfires], fun hm => (by cases hm)⟩

theorem firesAt_iff_completes {rule : Rule} {steps : List TriggerSpec} {within : Duration}
    {engine : PolicyEngine} {window : List EngineOp} (h : Watching rule engine)
    (hplain : PlainSequence rule steps within) (hops : ∀ op ∈ window, op.Undisturbed) :
    (∃ n event, FiresAt engine window n rule event) ↔
      Completes steps within (engine.ruleRuntime rule.id) (window.filterMap EngineOp.event?) := by
  induction window generalizing engine with
  | nil =>
      constructor
      · rintro ⟨n, event, hf⟩
        cases hf.lt_length
      · exact fun hc => hc.elim
  | cons op rest ih =>
      have hrest : ∀ op ∈ rest, op.Undisturbed := fun op hop => hops op (List.mem_cons_of_mem _ hop)
      have hop : op.Undisturbed := hops op List.mem_cons_self
      have hskip : ∀ engine', op.event? = none → engine.step op = some engine' →
          Watching rule engine' → engine'.ruleRuntime rule.id = engine.ruleRuntime rule.id →
          ((∃ n event, FiresAt engine (op :: rest) n rule event) ↔
            Completes steps within (engine.ruleRuntime rule.id)
              ((op :: rest).filterMap EngineOp.event?)) := by
        intro engine' hevent hs hw hsame
        rw [exists_firesAt_cons_of_event_none hevent hs, List.filterMap_cons_none hevent, ← hsame]
        exact ih hw hrest
      cases op with
      | handle host event =>
          obtain ⟨engine', matched, next, hs, hw, hmatches, hfires, hkeep⟩ :=
            h.handle hplain hop host
          rw [List.filterMap_cons_some (show EngineOp.event? (.handle host event) = some event from
            rfl), completes_cons hmatches]
          constructor
          · rintro ⟨n, event', hf⟩
            rcases firesAt_cons.mp hf with ⟨_, host', heq, hf⟩ | ⟨k, next', _, hs', hf⟩
            · cases heq
              exact Or.inl (hfires.mp hf)
            · cases hs.symm.trans hs'
              cases matched with
              | true => exact Or.inl rfl
              | false => exact Or.inr (hkeep rfl ▸ (ih hw hrest).mp ⟨k, event', hf⟩)
          · intro hc
            cases matched with
            | true =>
                exact ⟨0, event, firesAt_cons.mpr (Or.inl ⟨rfl, host, rfl, hfires.mpr rfl⟩)⟩
            | false =>
                have hc := hc.resolve_left (by simp)
                rw [← hkeep rfl] at hc
                obtain ⟨n, event', hf⟩ := (ih hw hrest).mpr hc
                exact ⟨n + 1, event', firesAt_cons.mpr (Or.inr ⟨n, engine', rfl, hs, hf⟩)⟩
      | setMode mode =>
          exact hskip (engine.setMode mode) rfl rfl
            ⟨⟨h.inBounds.distinct, h.inBounds.long, h.inBounds.bounded⟩, h.mem, h.unarmed, h.live⟩ rfl
      | setRecoveryMode enabled =>
          cases hop
          exact hskip (engine.setRecoveryMode false) rfl rfl
            ⟨⟨h.inBounds.distinct, h.inBounds.long, h.inBounds.bounded⟩, h.mem, h.unarmed, rfl⟩ rfl
      | replaceRules rules => exact hop.elim

theorem PartialMatch.begun {ops : List EngineOp} {steps : List TriggerSpec}
    {runtime : RuleRuntime} {used : List ℕ} (h : PartialMatch ops steps runtime used)
    (hne : steps ≠ []) (hpos : runtime.sequenceIndex ≠ 0) :
    ∃ begun, runtime.sequenceStarted = some begun := by
  cases used with
  | nil =>
      have hlength := h.matched.length_eq
      have hsteps := List.length_pos_of_ne_nil hne
      rw [List.length_nil, List.length_take] at hlength
      omega
  | cons i used =>
      obtain ⟨_, event, _, hstarted⟩ := h.started i rfl
      exact ⟨event.timestamp, hstarted⟩

/-- Timestamps that never decrease put the whole window before its last event. -/
theorem Nondecreasing.window_le {pre window : List EngineOp} {first : Event} {rest : List Event}
    {within : Duration} (h : Nondecreasing (pre ++ window))
    (hevents : window.filterMap EngineOp.event? = first :: rest)
    (hspan : ∀ last, (first :: rest).getLast? = some last →
      last.timestamp ≤ first.timestamp + within) :
    ∀ event ∈ rest, event.timestamp ≤ first.timestamp + within := by
  intro event hmem
  rw [Nondecreasing, List.filterMap_append, hevents] at h
  have hwindow := (List.pairwise_append.mp h).2.1
  obtain ⟨front, last, hlast⟩ := List.eq_nil_or_concat (first :: rest) |>.resolve_left (by simp)
  have hbound := hspan last (by simp [hlast])
  have hin : event ∈ front ++ [last] := by
    rw [← List.concat_eq_append, ← hlast]
    exact List.mem_cons_of_mem _ hmem
  rw [hlast, List.concat_eq_append] at hwindow
  rcases List.mem_append.mp hin with hin | hin
  · exact ((List.pairwise_append.mp hwindow).2.2 event hin last List.mem_cons_self).trans hbound
  · rw [List.mem_singleton.mp hin]
    exact hbound

/-- In any reachable state, a window of events that spells the sequence of a
plain rule fires it if and only if an older attempt continued by the window's
first event completes in the window itself. -/
theorem sequence_window_fires_iff (parseTime : String → Option ℕ) (rules : List Rule)
    (mode : String) (now : Timestamp) (rule : Rule) (steps : List TriggerSpec)
    (within : Duration) (pre window : List EngineOp) (engine : PolicyEngine) (first : Event)
    (rest : List Event) (hrules : Accepted parseTime rules) (hr : rule ∈ rules)
    (hplain : PlainSequence rule steps within) (hpre : ∀ op ∈ pre, op.KeepsRules)
    (hrun : run PolicyEngine.step (.new rules mode now) pre = some engine)
    (hlive : engine.recoveryMode = false) (hops : ∀ op ∈ window, op.Undisturbed)
    (hevents : window.filterMap EngineOp.event? = first :: rest)
    (htimes : Nondecreasing (pre ++ window))
    (hmatch : List.Forall₂ (fun step event => triggerMatches step event = true)
      steps (first :: rest))
    (hspan : ∀ last, (first :: rest).getLast? = some last →
      last.timestamp ≤ first.timestamp + within) :
    (∃ n event, FiresAt engine window n rule event) ↔
      ∀ begun, ContinuesAttempt steps within (engine.ruleRuntime rule.id) first begun →
        CompletesFrom steps (begun + within) (engine.ruleRuntime rule.id).sequenceIndex
          (first :: rest) := by
  have hkeeps : AllSteps PolicyEngine.step (fun _ op => op.KeepsRules) (.new rules mode now) pre :=
    allSteps_of_forall_mem hpre
  have hfitting : AllSteps PolicyEngine.step (FittingReload parseTime) (.new rules mode now) pre := by
    intro n m op hv
    have hop := hkeeps n m op hv
    cases op with
    | replaceRules rules' => exact hop.elim
    | _ => trivial
  have hinBounds : SequencesInBounds engine := by
    obtain ⟨engine', hrun', hinv⟩ := run_sequencesInBounds (new_sequencesInBounds hrules mode now)
      hfitting
    cases hrun.symm.trans hrun'
    exact hinv
  have hexplained := run_sequenceExplained
    (new_sequenceExplained hrules.distinctIds hr mode now steps) hplain.trigger hplain.sustainFor
    hrun hkeeps
  have hwatch : Watching rule engine := ⟨hinBounds, hexplained.mem, hexplained.unarmed, hlive⟩
  have hlong := hinBounds.long rule hwatch.mem steps within hplain.trigger
  have hlt := hinBounds.bounded rule hwatch.mem steps within hplain.trigger
  rw [firesAt_iff_completes hwatch hplain hops, hevents]
  apply window_completes_iff hlong hlt hmatch ?_ (htimes.window_le hevents hspan)
  intro hpos
  obtain ⟨used, hused, _⟩ := hexplained.progress
  exact hused.begun (List.ne_nil_of_length_pos (by omega)) hpos

/-- The older attempt completes: `a` before the window and its first two events. -/
theorem sequence_window_fires_iff_overlapping :
    ∃ engine, run PolicyEngine.step (.new [manualSequence ["a", "a", "a"]] "normal" 0)
        [manualAt "a" 0] = some engine ∧
      ContinuesAttempt [.manual "a", .manual "a", .manual "a"] 5 (engine.ruleRuntime "test")
        (eventAt (.manual "a") 1) 0 ∧
      ∃ n event, FiresAt engine [manualAt "a" 1, manualAt "a" 2, manualAt "a" 3] n
        (manualSequence ["a", "a", "a"]) event := by
  refine ⟨_, rfl, ⟨by decide, rfl, by decide, _, rfl, rfl⟩, ?_⟩
  refine (sequence_window_fires_iff (fun _ => none) [manualSequence ["a", "a", "a"]] "normal" 0
    (manualSequence ["a", "a", "a"]) [.manual "a", .manual "a", .manual "a"] 5 [manualAt "a" 0]
    [manualAt "a" 1, manualAt "a" 2, manualAt "a" 3] _ (eventAt (.manual "a") 1)
    [eventAt (.manual "a") 2, eventAt (.manual "a") 3] ⟨testConfig _, rfl, rfl⟩ (by simp)
    ⟨rfl, rfl, rfl, rfl, rfl, rfl⟩ (by simp [manualAt, EngineOp.KeepsRules]) rfl rfl
    (by simp [manualAt, EngineOp.Undisturbed, eventAt]) rfl (by unfold Nondecreasing; decide)
    (.cons rfl (.cons rfl (.cons rfl .nil))) ?_).mpr ?_
  · intro last hlast
    cases hlast
    decide
  · rintro begun ⟨_, hstarted, _⟩
    cases hstarted
    exact .next rfl rfl (by decide) (by decide) (.last rfl rfl rfl (by decide))

/-- After an earlier `a` the window `a`, `a`, `b` does not fire the sequence
`a`, `a`, `b`: its first event is taken as the second step, and its second one
restarts the attempt. -/
theorem overlapping_window_missed :
    Accepted (fun _ => none) [manualSequence ["a", "a", "b"]] ∧
      PlainSequence (manualSequence ["a", "a", "b"]) [.manual "a", .manual "a", .manual "b"] 5 ∧
      Nondecreasing ([manualAt "a" 0] ++ [manualAt "a" 1, manualAt "a" 2, manualAt "b" 3]) ∧
      List.Forall₂ (fun step event => triggerMatches step event = true)
        [.manual "a", .manual "a", .manual "b"]
        [eventAt (.manual "a") 1, eventAt (.manual "a") 2, eventAt (.manual "b") 3] ∧
      ∃ engine, run PolicyEngine.step (.new [manualSequence ["a", "a", "b"]] "normal" 0)
          [manualAt "a" 0] = some engine ∧ engine.recoveryMode = false ∧
        ¬ ∃ n event, FiresAt engine [manualAt "a" 1, manualAt "a" 2, manualAt "b" 3] n
          (manualSequence ["a", "a", "b"]) event := by
  refine ⟨⟨testConfig _, rfl, rfl⟩, ⟨rfl, rfl, rfl, rfl, rfl, rfl⟩,
    by unfold Nondecreasing; decide, .cons rfl (.cons rfl (.cons rfl .nil)), _, rfl, rfl, ?_⟩
  rintro ⟨n, event, engine, host, ⟨hop, hrun⟩, -, runtime, outcomes, hout, hmem⟩
  rcases n with _ | _ | _ | n
  · cases hop
    cases hrun
    cases hout
    simp at hmem
  · cases hop
    cases hrun
    cases hout
    simp at hmem
  · cases hop
    cases hrun
    cases hout
    simp at hmem
  · cases hop

end Kovert
