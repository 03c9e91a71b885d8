import Kovert.RateLimits
import Kovert.Sustain

/-!
# No sustained condition is missed

The counterpart of the soundness of sustained rules: a rule that is matched while
it may fire, and whose condition holds from then on, has fired by the first event
at which `sustain_for` has passed. It need not be armed by that match; an earlier
one may have armed it, and then it fires no later.
-/

namespace Kovert

open Execution

/-- The rule waits to fire since some time up to this one, and nothing limits it. -/
def Pending (rule : Rule) (time : Timestamp) (runtime : RuleRuntime) : Prop :=
  UnlimitedFrom rule runtime time ∧ ∃ armedAt ≤ time, runtime.armedAt = some armedAt

/-- The instant at which a rule was armed is that of an event handled before. -/
def ArmedByEvent (rule : Rule) (ops : List EngineOp) (engine : PolicyEngine) : Prop :=
  DistinctIds engine.rules ∧ rule ∈ engine.rules ∧
    ∀ armedAt, (engine.ruleRuntime rule.id).armedAt = some armedAt →
      ∃ (i : ℕ) (host : Host) (event : Event),
        ops[i]? = some (.handle host event) ∧ event.timestamp = armedAt

/-! ## What arms a rule -/

theorem RuleStep.armedAt_cases {host : Host} {snapshot : SystemSnapshot} {event : Event}
    {rule : Rule} {runtime next : RuleRuntime} {outcome : RuleOutcome}
    (h : RuleStep host snapshot event rule runtime next outcome) :
    next.armedAt = none ∨ next.armedAt = runtime.armedAt ∨
      next.armedAt = some event.timestamp := by
  cases h with
  | blocked => exact Or.inr (Or.inl rfl)
  | disarmed => exact Or.inl rfl
  | waiting => exact Or.inr (Or.inl rfl)
  | sustained => exact Or.inl rfl
  | progressed hactive hunarmed htrigger =>
      exact Or.inr (Or.inl (triggerStep_frame htrigger).2.2)
  | immediate hactive hunarmed htrigger =>
      exact Or.inr (Or.inl (triggerStep_frame htrigger).2.2)
  | armed => exact Or.inr (Or.inr rfl)

theorem step_armedByEvent {rule : Rule} {ops : List EngineOp} {engine engine' : PolicyEngine}
    {op : EngineOp} (hkeep : op.KeepsRules) (h : ArmedByEvent rule ops engine)
    (hs : engine.step op = some engine') : ArmedByEvent rule (ops ++ [op]) engine' := by
  obtain ⟨hd, hr, hsince⟩ := h
  have hrules := step_rules hkeep hs
  refine ⟨hrules ▸ hd, hrules ▸ hr, ?_⟩
  have hold : ∀ armedAt, (engine.ruleRuntime rule.id).armedAt = some armedAt →
      ∃ (i : ℕ) (host : Host) (event : Event),
        (ops ++ [op])[i]? = some (.handle host event) ∧ event.timestamp = armedAt := by
    intro armedAt harmed
    obtain ⟨i, host, event, hi, htime⟩ := hsince armedAt harmed
    have hlt : i < ops.length := (List.getElem?_eq_some_iff.mp hi).1
    exact ⟨i, host, event, by rw [List.getElem?_append_left hlt, hi], htime⟩
  intro armedAt harmed
  cases op with
  | handle host event =>
      obtain ⟨plans, hh⟩ := step_handle hs
      cases hrec : engine.recoveryMode with
      | true =>
          rw [PolicyEngine.handle_recovery hrec] at hh
          cases hh
          exact hold armedAt harmed
      | false =>
          obtain ⟨outcome, hstep, _⟩ := PolicyEngine.handle_ruleStep hd hrec hh hr
          rcases hstep.armedAt_cases with hnone | hsame | hnow
          · rw [hnone] at harmed
            cases harmed
          · exact hold armedAt (hsame ▸ harmed)
          · rw [hnow] at harmed
            exact ⟨ops.length, host, event, by simp, Option.some.inj harmed⟩
  | setMode mode =>
      cases hs
      exact hold armedAt harmed
  | setRecoveryMode enabled =>
      cases hs
      rw [PolicyEngine.setRecoveryMode_ruleRuntime] at harmed
      cases enabled with
      | true => cases harmed
      | false => exact hold armedAt harmed
  | replaceRules rules => exact hkeep.elim

theorem run_armedByEvent {rules : List Rule} {mode : String} {now : Timestamp} {rule : Rule}
    {ops : List EngineOp} {engine : PolicyEngine} (hd : DistinctIds rules) (hr : rule ∈ rules)
    (hops : ∀ op ∈ ops, op.KeepsRules)
    (hrun : run PolicyEngine.step (.new rules mode now) ops = some engine) :
    ArmedByEvent rule ops engine := by
  refine run_history (P := ArmedByEvent rule) ?_ ?_ hrun (allSteps_of_forall_mem hops)
  · refine ⟨new_distinctIds hd mode now, mem_sortRules.mpr hr, ?_⟩
    intro armedAt harmed
    rw [PolicyEngine.new_ruleRuntime] at harmed
    cases harmed
  · intro ops m op t _ _ hkeep h hs
    exact step_armedByEvent hkeep h hs

/-! ## One event -/

/-- A pending rule whose condition holds fires or stays pending; it fires at once
when its time has passed and the event is no failure of its sensors. -/
theorem Pending.ruleStep {host : Host} {snapshot : SystemSnapshot} {event : Event} {rule : Rule}
    {runtime next : RuleRuntime} {outcome : RuleOutcome} {time : Timestamp}
    (h : Pending rule time runtime) (henabled : rule.enabled = true)
    (hcond : rule.conditionsMatch host snapshot = true) (hle : time ≤ event.timestamp)
    (hstep : RuleStep host snapshot event rule runtime next outcome) :
    (outcome = .fired ∨ Pending rule time next) ∧
      (sensorFailureOutcome rule event = none → 0 < rule.sustainFor →
        time + rule.sustainFor ≤ event.timestamp → outcome = .fired) := by
  obtain ⟨hfree, armedAt, harmedAt, harmed⟩ := h
  have hunlimited := hfree.rateLimited_eq_false hle
  cases hstep with
  | blocked hidle =>
      refine ⟨Or.inr ⟨hfree, armedAt, harmedAt, harmed⟩, fun hplain _ _ => ?_⟩
      exact absurd ⟨henabled, hunlimited, hplain⟩ hidle
  | disarmed hactive _ hbroken =>
      rw [hcond] at hbroken
      cases hbroken
  | @waiting since hactive hsince _ hearly =>
      obtain rfl : since = armedAt := Option.some.inj (hsince.symm.trans harmed)
      refine ⟨Or.inr ⟨hfree, since, harmedAt, harmed⟩, fun _ hsustain hlate => ?_⟩
      have hreached : rule.sustainFor ≤ elapsed event.timestamp since := by
        refine (le_elapsed_iff hsustain).mpr ?_
        linarith
      exact absurd hearly (not_lt.mpr hreached)
  | sustained => exact ⟨Or.inl rfl, fun _ _ _ => rfl⟩
  | progressed _ hunarmed =>
      rw [harmed] at hunarmed
      cases hunarmed
  | immediate _ hunarmed =>
      rw [harmed] at hunarmed
      cases hunarmed
  | armed _ hunarmed =>
      rw [harmed] at hunarmed
      cases hunarmed

/-- A match of an unlimited rule whose condition holds leaves it pending, if it does not fire. -/
theorem pending_of_matched {host : Host} {snapshot : SystemSnapshot} {event : Event} {rule : Rule}
    {runtime next : RuleRuntime} {outcome : RuleOutcome} (hactive : Active rule runtime event)
    (hearlier : ∀ armedAt, runtime.armedAt = some armedAt → armedAt ≤ event.timestamp)
    (hmatch : ∃ matched, rule.triggerStep runtime event = some (true, matched))
    (hcond : rule.conditionsMatch host snapshot = true)
    (hstep : RuleStep host snapshot event rule runtime next outcome) :
    outcome = .fired ∨ Pending rule event.timestamp next := by
  have hfree := unlimitedFrom_of_active hactive
  cases harmed : runtime.armedAt with
  | some armedAt =>
      have hpending : Pending rule event.timestamp runtime :=
        ⟨hfree, armedAt, hearlier armedAt harmed, harmed⟩
      exact (hpending.ruleStep hactive.enabled hcond le_rfl hstep).1
  | none =>
      obtain ⟨matched, hmatch⟩ := hmatch
      cases hstep with
      | blocked hidle => exact absurd hactive hidle
      | disarmed _ hsome =>
          rw [harmed] at hsome
          cases hsome
      | waiting _ hsome =>
          rw [harmed] at hsome
          cases hsome
      | sustained => exact Or.inl rfl
      | progressed _ _ htrigger hno =>
          rw [hmatch] at htrigger
          rcases hno with rfl | hbroken
          · cases htrigger
          · rw [hcond] at hbroken
            cases hbroken
      | immediate => exact Or.inl rfl
      | armed _ _ htrigger =>
          obtain ⟨hlast, honce, _⟩ := triggerStep_frame htrigger
          refine Or.inr ⟨⟨by rw [honce]; exact hfree.1, fun last h => ?_⟩, _, le_rfl, rfl⟩
          exact hfree.2 last (hlast ▸ h)

/-! ## Between the match and its time -/

/-- From position `i` on the rule has fired, or it is pending outside recovery. -/
def DueSince (start : PolicyEngine) (ops : List EngineOp) (rule : Rule) (i : ℕ)
    (time : Timestamp) (k : ℕ) (engine : PolicyEngine) : Prop :=
  (∃ m event, i ≤ m ∧ m < k ∧ FiresAt start ops m rule event) ∨
    engine.recoveryMode = false ∧ Pending rule time (engine.ruleRuntime rule.id)

theorem DueSince.succ {start engine engine' : PolicyEngine} {ops : List EngineOp} {rule : Rule}
    {i k : ℕ} {time : Timestamp} {op : EngineOp} (h : DueSince start ops rule i time k engine)
    (hd : DistinctIds engine.rules) (hr : rule ∈ engine.rules) (henabled : rule.enabled = true)
    (hik : i ≤ k) (hv : Visits PolicyEngine.step start ops k engine op)
    (hs : engine.step op = some engine') (hkeep : op.KeepsRules)
    (hop : op ≠ .setRecoveryMode true)
    (hevent : ∀ host event, op = .handle host event → time ≤ event.timestamp ∧
      rule.conditionsMatch host (engine.snapshot.apply event) = true) :
    DueSince start ops rule i time (k + 1) engine' := by
  rcases h with ⟨m, event, him, hmk, hfires⟩ | ⟨hrec, hpending⟩
  · exact Or.inl ⟨m, event, him, by omega, hfires⟩
  · cases op with
    | handle host event =>
        obtain ⟨plans, hh⟩ := step_handle hs
        obtain ⟨hle, hcond⟩ := hevent host event rfl
        obtain ⟨outcome, hstep, hfires⟩ := PolicyEngine.handle_ruleStep hd hrec hh hr
        rcases (hpending.ruleStep henabled hcond hle hstep).1 with hfired | hnext
        · exact Or.inl ⟨k, event, hik, by omega, engine, host, hv, hfires.mpr hfired⟩
        · exact Or.inr ⟨(PolicyEngine.handle_frame hh).2.1.trans hrec, hnext⟩
    | setMode mode =>
        cases hs
        exact Or.inr ⟨hrec, hpending⟩
    | setRecoveryMode enabled =>
        cases enabled with
        | true => exact absurd rfl hop
        | false =>
            cases hs
            exact Or.inr ⟨rfl, hpending⟩
    | replaceRules rules => exact hkeep.elim

/-! ## Runs -/

theorem Nondecreasing.le_of_lt {ops : List EngineOp} (h : Nondecreasing ops) {i k : ℕ}
    {host host' : Host} {event event' : Event} (hik : i < k)
    (hi : ops[i]? = some (.handle host event)) (hk : ops[k]? = some (.handle host' event')) :
    event.timestamp ≤ event'.timestamp := by
  have htake : ops.take (k + 1) = ops.take k ++ [.handle host' event'] := by
    rw [List.take_add_one, hk]
    rfl
  have hearlier : (ops.take k)[i]? = some (.handle host event) := by
    rw [List.getElem?_take_of_lt hik, hi]
  exact (htake ▸ h.take (k + 1)).timestamp_le hearlier

/-- A match of a rule that may fire makes it due, up to the next event that could fire it. -/
theorem run_dueSince {rules : List Rule} {mode : String} {now : Timestamp} {rule : Rule}
    {ops : List EngineOp} (hd : DistinctIds rules) (hr : rule ∈ rules)
    (hops : ∀ op ∈ ops, op.KeepsRules) (htime : Nondecreasing ops) {i n : ℕ}
    {engine : PolicyEngine} {host : Host} {event : Event}
    (hv : Visits PolicyEngine.step (.new rules mode now) ops i engine (.handle host event))
    (hrec : engine.recoveryMode = false)
    (hactive : Active rule (engine.ruleRuntime rule.id) event)
    (hmatch : TriggerMatched engine event rule)
    (hquiet : ∀ k, i < k → k < n → ops[k]? ≠ some (.setRecoveryMode true))
    (hheld : HeldBetween (.new rules mode now) ops rule i n) (hn : n ≤ ops.length) (k : ℕ)
    (hik : i + 1 ≤ k) (hkn : k ≤ n) (reached : PolicyEngine)
    (hreached : run PolicyEngine.step (.new rules mode now) (ops.take k) = some reached) :
    DueSince (.new rules mode now) ops rule i event.timestamp k reached := by
  have hby : ∀ {k engine op}, Visits PolicyEngine.step (.new rules mode now) ops k engine op →
      ArmedByEvent rule (ops.take k) engine := fun hvisit =>
    run_armedByEvent hd hr (fun op hop => hops op (List.mem_of_mem_take hop)) hvisit.2
  induction k, hik using Nat.le_induction generalizing reached with
  | base =>
      obtain ⟨before, hv', hs⟩ := (run_take_succ hv.1).mp hreached
      obtain rfl : engine = before := Option.some.inj (hv.2.symm.trans hv'.2)
      obtain ⟨hdistinct, hmem, hsince⟩ := hby hv
      obtain ⟨plans, hh⟩ := step_handle hs
      obtain ⟨outcome, hstep, hfires⟩ := PolicyEngine.handle_ruleStep hdistinct hrec hh hmem
      have hcond := hheld i engine host event le_rfl (by omega) hv
      have hearlier : ∀ armedAt, (engine.ruleRuntime rule.id).armedAt = some armedAt →
          armedAt ≤ event.timestamp := by
        intro armedAt harmed
        obtain ⟨j, host', event', hj, rfl⟩ := hsince armedAt harmed
        have hji : j < i := by
          have hlt := (List.getElem?_eq_some_iff.mp hj).1
          rw [List.length_take] at hlt
          omega
        rw [List.getElem?_take_of_lt hji] at hj
        exact htime.le_of_lt hji hj hv.1
      rcases pending_of_matched hactive hearlier hmatch hcond hstep with hfired | hpending
      · exact Or.inl ⟨i, event, le_rfl, by omega, engine, host, hv, hfires.mpr hfired⟩
      · exact Or.inr ⟨(PolicyEngine.handle_frame hh).2.1.trans hrec, hpending⟩
  | succ k hik ih =>
      obtain ⟨op, hop⟩ : ∃ op, ops[k]? = some op :=
        ⟨_, List.getElem?_eq_getElem (by omega : k < ops.length)⟩
      obtain ⟨before, hvk, hs⟩ := (run_take_succ hop).mp hreached
      obtain ⟨hdistinct, hmem, _⟩ := hby hvk
      refine (ih (by omega) before hvk.2).succ hdistinct hmem hactive.enabled (by omega) hvk hs
        (hops op (List.mem_of_getElem? hop)) ?_ ?_
      · rintro rfl
        exact hquiet k (by omega) (by omega) hop
      · rintro host' event' rfl
        exact ⟨htime.le_of_lt (by omega) hv.1 hop,
          hheld k before host' event' (by omega) (by omega) hvk⟩

/-- A sustained rule that is matched while it may fire, and whose condition holds
from then on, fires by the first event after `sustain_for` at the latest. -/
theorem sustained_condition_fires (rules : List Rule) (mode : String) (now : Timestamp)
    (rule : Rule) (ops : List EngineOp) (final : PolicyEngine) (hd : DistinctIds rules)
    (hr : rule ∈ rules) (hops : ∀ op ∈ ops, op.KeepsRules) (htime : Nondecreasing ops)
    (hrun : run PolicyEngine.step (.new rules mode now) ops = some final)
    (hsustain : 0 < rule.sustainFor) (i n : ℕ) (hin : i < n) (engine : PolicyEngine)
    (host host' : Host) (arming event : Event)
    (hv : Visits PolicyEngine.step (.new rules mode now) ops i engine (.handle host arming))
    (hrec : engine.recoveryMode = false)
    (hactive : Active rule (engine.ruleRuntime rule.id) arming)
    (hmatch : TriggerMatched engine arming rule)
    (hquiet : ∀ k, i < k → k < n → ops[k]? ≠ some (.setRecoveryMode true))
    (hevent : ops[n]? = some (.handle host' event))
    (hplain : sensorFailureOutcome rule event = none)
    (hlate : arming.timestamp + rule.sustainFor ≤ event.timestamp)
    (hheld : HeldBetween (.new rules mode now) ops rule i n) :
    ∃ m fired, i ≤ m ∧ m ≤ n ∧ FiresAt (.new rules mode now) ops m rule fired := by
  have hlength : n < ops.length := (List.getElem?_eq_some_iff.mp hevent).1
  obtain ⟨next, hnext⟩ := exists_run_take hrun (n + 1)
  obtain ⟨reached, hvn, hs⟩ := (run_take_succ hevent).mp hnext
  rcases run_dueSince hd hr hops htime hv hrec hactive hmatch hquiet hheld hlength.le n hin le_rfl
    reached hvn.2 with ⟨m, fired, him, hmn, hfires⟩ | ⟨hout, hpending⟩
  · exact ⟨m, fired, him, hmn.le, hfires⟩
  · obtain ⟨hdistinct, hmem, _⟩ := run_armedByEvent hd hr
      (fun op hop => hops op (List.mem_of_mem_take hop)) hvn.2
    obtain ⟨plans, hh⟩ := step_handle hs
    obtain ⟨outcome, hstep, hfires⟩ := PolicyEngine.handle_ruleStep hdistinct hout hh hmem
    have hcond := hheld n reached host' event hin.le le_rfl hvn
    have hfired := (hpending.ruleStep hactive.enabled hcond (htime.le_of_lt hin hv.1 hevent)
      hstep).2 hplain hsustain hlate
    exact ⟨n, event, hin.le, le_rfl, reached, host', hvn, hfires.mpr hfired⟩

/-- The Wi-Fi sensor stays healthy past a change of the mode. -/
theorem sustained_condition_fires_wifi : ∃ m fired, 0 ≤ m ∧ m ≤ 2 ∧
    FiresAt (.new [healthyWifiRule] "normal" 0) wifiOps m healthyWifiRule fired := by
  obtain ⟨final, hrun⟩ : ∃ final,
      run PolicyEngine.step (.new [healthyWifiRule] "normal" 0) wifiOps = some final := ⟨_, rfl⟩
  refine sustained_condition_fires [healthyWifiRule] "normal" 0 healthyWifiRule wifiOps final
    (by simp [DistinctIds]) (by simp) ?_ (by unfold Nondecreasing; decide) hrun (by decide) 0 2
    (by decide) _ bareHost bareHost _ _ ⟨rfl, rfl⟩ rfl ⟨rfl, rfl, rfl⟩ ⟨_, rfl⟩ ?_ rfl rfl
    (by decide) ?_
  · intro op hop
    simp only [wifiOps, List.mem_cons, List.not_mem_nil, or_false] at hop
    rcases hop with rfl | rfl | rfl <;> trivial
  · intro k hpos hlt
    obtain rfl : k = 1 := by omega
    simp [wifiOps]
  · rintro (_ | _ | _ | k) engine host event _ hk ⟨hop, hrun⟩
    · cases hop
      cases hrun
      rfl
    · cases hop
    · cases hop
      cases hrun
      rfl
    · omega

end Kovert
