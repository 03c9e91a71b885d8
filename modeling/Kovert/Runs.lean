import Kovert.EngineStep

/-!
# Runs of the engine

A run starts from `PolicyEngine::new` and executes a list of operations; an
out-of-bounds panic ends it. Positions in the list identify the handled events.
-/

namespace Kovert

open Execution

/-- The rule fires on the trigger path at position `n` of the run. -/
def FiresAt (start : PolicyEngine) (ops : List EngineOp) (n : ℕ) (rule : Rule) (event : Event) :
    Prop :=
  ∃ engine host, Visits PolicyEngine.step start ops n engine (.handle host event) ∧
    engine.Fires host event rule

/-- Reloads carry the distinct ids that validation guarantees. -/
def DistinctReload : PolicyEngine → EngineOp → Prop
  | _, .replaceRules rules => DistinctIds rules
  | _, _ => True

/-- The operations that leave the rule list alone. -/
def EngineOp.KeepsRules : EngineOp → Prop
  | .replaceRules _ => False
  | _ => True

/-- The event handled by an operation, if any. -/
def EngineOp.event? : EngineOp → Option Event
  | .handle _ event => some event
  | _ => none

/-- Timestamps of handled events never decrease along the run. -/
def Nondecreasing (ops : List EngineOp) : Prop :=
  (ops.filterMap EngineOp.event?).Pairwise (fun earlier later => earlier.timestamp ≤ later.timestamp)

theorem Nondecreasing.of_append {ops rest : List EngineOp} (h : Nondecreasing (ops ++ rest)) :
    Nondecreasing ops := by
  rw [Nondecreasing, List.filterMap_append] at h
  exact (List.pairwise_append.mp h).1

theorem Nondecreasing.take {ops : List EngineOp} (h : Nondecreasing ops) (n : ℕ) :
    Nondecreasing (ops.take n) := by
  rw [← List.take_append_drop n ops] at h
  exact h.of_append

theorem Nondecreasing.timestamp_le {ops : List EngineOp} {n : ℕ} {host host' : Host}
    {event event' : Event} (h : Nondecreasing (ops ++ [.handle host' event']))
    (hn : ops[n]? = some (.handle host event)) : event.timestamp ≤ event'.timestamp := by
  rw [Nondecreasing, List.filterMap_append] at h
  apply (List.pairwise_append.mp h).2.2 event _ event' (List.mem_singleton.mpr rfl)
  exact List.mem_filterMap.mpr ⟨_, List.mem_of_getElem? hn, rfl⟩

theorem FiresAt.lt_length {start : PolicyEngine} {ops : List EngineOp} {n : ℕ} {rule : Rule}
    {event : Event} (h : FiresAt start ops n rule event) : n < ops.length := by
  obtain ⟨_, _, hv, _⟩ := h
  exact hv.lt_length

theorem FiresAt.take {start : PolicyEngine} {ops : List EngineOp} {n k : ℕ} {rule : Rule}
    {event : Event} (h : FiresAt start ops n rule event) (hk : n < k) :
    FiresAt start (ops.take k) n rule event := by
  obtain ⟨engine, host, hv, hf⟩ := h
  exact ⟨engine, host, hv.take hk, hf⟩

theorem FiresAt.of_take {start : PolicyEngine} {ops : List EngineOp} {n k : ℕ} {rule : Rule}
    {event : Event} (h : FiresAt start (ops.take k) n rule event) :
    FiresAt start ops n rule event := by
  obtain ⟨engine, host, hv, hf⟩ := h
  exact ⟨engine, host, hv.of_take, hf⟩

theorem FiresAt.event_eq {start : PolicyEngine} {ops : List EngineOp} {n : ℕ} {rule rule' : Rule}
    {event event' : Event} (h : FiresAt start ops n rule event)
    (h' : FiresAt start ops n rule' event') : event = event' := by
  obtain ⟨_, _, hv, _⟩ := h
  obtain ⟨_, _, hv', _⟩ := h'
  cases hv.1.symm.trans hv'.1
  rfl

theorem firesAt_snoc {start : PolicyEngine} {ops : List EngineOp} {op : EngineOp} {n : ℕ}
    {rule : Rule} {event : Event} :
    FiresAt start (ops ++ [op]) n rule event ↔
      FiresAt start ops n rule event ∨ n = ops.length ∧ ∃ engine host,
        op = .handle host event ∧ run PolicyEngine.step start ops = some engine ∧
          engine.Fires host event rule := by
  constructor
  · rintro ⟨engine, host, hv, hf⟩
    rcases visits_snoc.mp hv with hv | ⟨hn, hop, hrun⟩
    · exact Or.inl ⟨engine, host, hv, hf⟩
    · exact Or.inr ⟨hn, engine, host, hop, hrun, hf⟩
  · rintro (⟨engine, host, hv, hf⟩ | ⟨rfl, engine, host, rfl, hrun, hf⟩)
    · exact ⟨engine, host, visits_snoc.mpr (Or.inl hv), hf⟩
    · exact ⟨engine, host, visits_snoc_last.mpr ⟨rfl, hrun⟩, hf⟩

theorem firesAt_cons {start : PolicyEngine} {ops : List EngineOp} {op : EngineOp} {n : ℕ}
    {rule : Rule} {event : Event} :
    FiresAt start (op :: ops) n rule event ↔
      n = 0 ∧ (∃ host, op = .handle host event ∧ start.Fires host event rule) ∨
        ∃ k next, n = k + 1 ∧ start.step op = some next ∧ FiresAt next ops k rule event := by
  constructor
  · rintro ⟨engine, host, hv, hf⟩
    cases n with
    | zero =>
        obtain ⟨hop, rfl⟩ := visits_cons_zero.mp hv
        exact Or.inl ⟨rfl, host, hop, hf⟩
    | succ k =>
        obtain ⟨next, hs, hv⟩ := visits_cons_succ.mp hv
        exact Or.inr ⟨k, next, rfl, hs, engine, host, hv, hf⟩
  · rintro (⟨rfl, host, hop, hf⟩ | ⟨k, next, rfl, hs, engine, host, hv, hf⟩)
    · exact ⟨start, host, visits_cons_zero.mpr ⟨hop, rfl⟩, hf⟩
    · exact ⟨engine, host, visits_cons_succ.mpr ⟨next, hs, hv⟩, hf⟩

/-- An operation that handles no event only shifts the positions of the firings. -/
theorem exists_firesAt_cons_of_event_none {engine engine' : PolicyEngine} {op : EngineOp}
    {rest : List EngineOp} {rule : Rule} (hevent : op.event? = none)
    (hs : engine.step op = some engine') :
    (∃ n event, FiresAt engine (op :: rest) n rule event) ↔
      ∃ n event, FiresAt engine' rest n rule event := by
  constructor
  · rintro ⟨n, event, hf⟩
    rcases firesAt_cons.mp hf with ⟨_, host, rfl, _⟩ | ⟨k, next, _, hs', hf⟩
    · cases hevent
    · cases hs.symm.trans hs'
      exact ⟨k, event, hf⟩
  · rintro ⟨n, event, hf⟩
    exact ⟨n + 1, event, firesAt_cons.mpr (Or.inr ⟨n, engine', rfl, hs, hf⟩)⟩

theorem firesAt_snoc_of_not_fires {start engine : PolicyEngine} {ops : List EngineOp}
    {op : EngineOp} {n : ℕ} {rule : Rule} {event : Event}
    (hrun : run PolicyEngine.step start ops = some engine)
    (hno : ∀ host event, op = .handle host event → ¬ engine.Fires host event rule)
    (h : FiresAt start (ops ++ [op]) n rule event) : FiresAt start ops n rule event := by
  rcases firesAt_snoc.mp h with h | ⟨_, engine', host, hop, hrun', hf⟩
  · exact h
  · rw [hrun] at hrun'
    cases hrun'
    exact absurd hf (hno host event hop)

theorem step_handle {engine engine' : PolicyEngine} {host : Host} {event : Event}
    (h : engine.step (.handle host event) = some engine') :
    ∃ plans, engine.handle host event = some (engine', plans) := by
  obtain ⟨⟨_, plans⟩, hh, rfl⟩ := Option.map_eq_some_iff.mp h
  exact ⟨plans, hh⟩

/-! ## Rules along a run -/

theorem step_distinctIds {engine engine' : PolicyEngine} {op : EngineOp}
    (hop : DistinctReload engine op) (hd : DistinctIds engine.rules)
    (h : engine.step op = some engine') : DistinctIds engine'.rules := by
  cases op with
  | handle host event =>
      obtain ⟨plans, hh⟩ := step_handle h
      rw [(PolicyEngine.handle_frame hh).1]
      exact hd
  | setMode mode =>
      cases h
      exact hd
  | setRecoveryMode enabled =>
      cases h
      exact hd
  | replaceRules rules =>
      cases h
      exact distinctIds_sortRules.mpr hop

theorem step_rules {engine engine' : PolicyEngine} {op : EngineOp} (hop : op.KeepsRules)
    (h : engine.step op = some engine') : engine'.rules = engine.rules := by
  cases op with
  | handle host event =>
      obtain ⟨plans, hh⟩ := step_handle h
      exact (PolicyEngine.handle_frame hh).1
  | setMode mode =>
      cases h
      rfl
  | setRecoveryMode enabled =>
      cases h
      rfl
  | replaceRules rules => exact hop.elim

theorem new_distinctIds {rules : List Rule} (hd : DistinctIds rules) (mode : String)
    (now : Timestamp) : DistinctIds (PolicyEngine.new rules mode now).rules :=
  distinctIds_sortRules.mpr hd

/-! ## Firing marks -/

theorem RuleStep.marks {host : Host} {snapshot : SystemSnapshot} {event : Event} {rule : Rule}
    {runtime next : RuleRuntime} {outcome : RuleOutcome}
    (h : RuleStep host snapshot event rule runtime next outcome) :
    if outcome = .fired then next.lastFired = some event.timestamp ∧ next.firedOnce = true
    else next.lastFired = runtime.lastFired ∧ next.firedOnce = runtime.firedOnce := by
  cases h with
  | blocked hidle hne => simp [hne]
  | disarmed => simp
  | waiting => simp
  | sustained => simp [RuleRuntime.markFired]
  | progressed hactive hunarmed htrigger =>
      obtain ⟨hlast, honce, _⟩ := triggerStep_frame htrigger
      simp [hlast, honce]
  | immediate => simp [RuleRuntime.markFired]
  | armed hactive hunarmed htrigger =>
      obtain ⟨hlast, honce, _⟩ := triggerStep_frame htrigger
      simp [hlast, honce]

/-! ## Fixtures -/

def manualSequence (names : List String) : Rule :=
  testRule (.sequence (names.map .manual) 5)

def testDaemon : DaemonConfig where
  socketPath := ⟨"/run/kovert/kovert.sock"⟩
  statePath := ⟨"/var/lib/kovert/state.db"⟩
  dryRun := true
  pollInterval := 5
  commandTimeout := 15
  eventBuffer := 1024
  allowedExecutables := []
  managedProcesses := []
  desktopNotifications := false

def testConfig (rules : List Rule) : Config where
  version := 1
  daemon := testDaemon
  modes := []
  vaults := []
  hotkeys := []
  rules := rules

def manualAt (name : String) (second : ℤ) : EngineOp :=
  .handle bareHost (eventAt (.manual name) second)

end Kovert
