import Kovert.Foundations.Blocks
import Kovert.RateLimits
import Kovert.Simulation

/-!
# The engine inside the daemon

Between a start and the end of the process the engine of the runtime runs through
the engine's own operations and no others: every step of the daemon stands for a
block of them. What holds of every run of the engine therefore holds of the
daemon, whatever the store, the requests and the actions do around it.
-/

namespace Kovert

open Fallible Session Execution

variable {env : Environment}

/-- What a step of the daemon asks of its engine, in this order. -/
inductive EngineMoves (env : Environment) (daemon : Daemon) : DaemonOp → List EngineOp → Prop where
  | handled {op : DaemonOp} {host : Host} {event : Event} (modes : List String)
      (hevent : op.processed = some event) (hhost : op.host = some host)
      (hrecorded : daemon.records env event = true) :
      EngineMoves env daemon op (.handle host event :: modes.map .setMode)
  | lost {op : DaemonOp} {event : Event} (hevent : op.processed = some event)
      (hlost : daemon.records env event = false) : EngineMoves env daemon op []
  | mode {situation : Situation} {runtime : Runtime} {name : String}
      (hup : daemon.runtime = some runtime) (hknown : runtime.config.knowsMode name = true) :
      EngineMoves env daemon (.control situation (.setMode name)) [.setMode name]
  | recovery (situation : Situation) (enabled : Bool) :
      EngineMoves env daemon (.control situation (.recovery enabled)) [.setRecoveryMode enabled]
  | reloaded {situation : Situation} {config : Config} (hload : loadConfig situation = .ok config) :
      EngineMoves env daemon (.control situation .reload) [.replaceRules config.rules]
  | untouched {op : DaemonOp} (hevent : op.processed = none) : EngineMoves env daemon op []

def Daemon.engine (daemon : Daemon) : Option PolicyEngine :=
  daemon.runtime.map (fun runtime => runtime.engine)

def DaemonOp.isStart : DaemonOp → Bool
  | .start .. => true
  | _ => false

/-- The operations bring the engine of the session before to that of the session after. -/
def Moved (moves : List EngineOp) (before after : Session) : Prop :=
  run PolicyEngine.step before.runtime.engine moves = some after.runtime.engine

/-! ## One step -/

theorem Runtime.UpToMode.moved {before after : Runtime} (h : before.UpToMode after) :
    ∃ modes : List String,
      run PolicyEngine.step before.engine (modes.map .setMode) = some after.engine := by
  obtain ⟨mode, rfl⟩ := h
  exact ⟨[mode], rfl⟩

theorem processEvent_moved {host : Host} {event : Event} {session : Session}
    (hup : (processEvent env host event session).1 ≠ .error .crashed)
    (hrecorded : session.records env event = true) :
    ∃ modes : List String, Moved (.handle host event :: modes.map .setMode) session
      (processEvent env host event session).2 := by
  obtain ⟨store, hstore⟩ := records_iff.mp hrecorded
  cases hh : session.runtime.engine.handle host event with
  | none => exact absurd (processEvent_panics hh hstore) hup
  | some result =>
      obtain ⟨engine, plans⟩ := result
      rw [processEvent_recorded hh hstore]
      obtain ⟨gained, _, hplans⟩ := forEach_plansRun env event plans
        (session.withPlans event engine store)
      obtain ⟨modes, hmodes⟩ := hplans.upToMode.moved
      refine ⟨modes, ?_⟩
      rw [Moved, run_cons, PolicyEngine.step, hh]
      exact hmodes

/-- A request that only reads leaves the runtime alone. -/
theorem read_runtime {situation : Situation} {request : Request} (runtime : Runtime)
    (hreload : request ≠ .reload) (htrigger : ∀ name, request ≠ .trigger name)
    (hmode : ∀ mode, request ≠ .setMode mode) (hrecovery : ∀ enabled, request ≠ .recovery enabled) :
    Keeps (fun session => session.runtime = runtime)
      (handleControlResult env situation request) :=
  keeps_handleControlResult
    (fun _ => keeps_of_runtime fun _ _ hsame h => hsame.trans h) (fun _ h => h)
    (fun heq => absurd heq hreload) (fun name heq => absurd heq (htrigger name))
    (fun mode heq => absurd heq (hmode mode)) (fun enabled heq => absurd heq (hrecovery enabled))

/-- A request that leaves the runtime alone stands for the empty block. -/
theorem unmoved_control {daemon : Daemon} {runtime : Runtime} {situation : Situation}
    {request : Request} (hprocessed : (DaemonOp.control situation request).processed = none)
    (hkeeps : Keeps (fun session => session.runtime = runtime)
      (handleControlResult env situation request)) :
    ∃ moves, EngineMoves env daemon (.control situation request) moves ∧
      Moved moves { daemon.toJournal with runtime := runtime }
        (handleControl env situation request { daemon.toJournal with runtime := runtime }).2 := by
  have hsame : (handleControlResult env situation request
      { daemon.toJournal with runtime := runtime }).2.runtime = runtime := hkeeps.apply rfl
  refine ⟨[], .untouched hprocessed, ?_⟩
  rw [Moved, handleControl_snd, hsame]
  rfl

theorem switch_moved {situation : Situation} {session : Session} (switch : Switch)
    (haccepted : switch.accepted session.runtime.config = true) :
    (handleControl env situation switch.request session).2.runtime.engine =
      switch.apply session.runtime.engine := by
  obtain ⟨response, _, hresult⟩ : ∃ response, response.ok = true ∧
      handleControlResult env situation switch.request session =
        (switch.perform env >>= fun _ => pure response) session :=
    Switch.handleControlResult_accepted haccepted
  rw [handleControl_snd, hresult, bind_pure_snd]
  -- whatever the two writes return, the change in memory has been made
  cases hstore : switch.store env session.toJournal with
  | mk result journal =>
      cases result with
      | error stop =>
          rw [Switch.perform_store_error hstore]
          rfl
      | ok =>
          rw [Switch.perform_store_ok hstore]
          rfl

theorem reload_moved (env : Environment) (situation : Situation) (session : Session) :
    (reload env situation session).2.runtime = session.runtime ∨
      ∃ config, loadConfig situation = .ok config ∧
        (reload env situation session).2.runtime.engine =
          session.runtime.engine.replaceRules config.rules := by
  rcases reload_cases env situation session with ⟨stop, _, hreload⟩ |
    ⟨config, stop, journal, _, _, hreload⟩ | ⟨config, handles, journal, hload, _, hreload⟩
  · exact Or.inl (by rw [hreload])
  · exact Or.inl (by rw [hreload])
  · refine Or.inr ⟨config, hload, ?_⟩
    rw [hreload]
    rfl

theorem processed_moved {daemon : Daemon} {runtime : Runtime} {op : DaemonOp} {host : Host}
    {event : Event} (hevent : op.processed = some event) (hhost : op.host = some host)
    (hup : (processEvent env host event { daemon.toJournal with runtime := runtime }).1 ≠
      .error .crashed) :
    ∃ moves, EngineMoves env daemon op moves ∧
      Moved moves { daemon.toJournal with runtime := runtime }
        (processEvent env host event { daemon.toJournal with runtime := runtime }).2 := by
  cases hrecorded : daemon.records env event with
  | true =>
      obtain ⟨modes, hmoved⟩ := processEvent_moved hup hrecorded
      exact ⟨_, .handled modes hevent hhost hrecorded, hmoved⟩
  | false =>
      have hlost : ∀ store,
          ¬ EventRecorded env event { daemon.toJournal with runtime := runtime } store := by
        intro store hstore
        have htrue : daemon.records env event = true :=
          records_iff.mpr ⟨store, hstore⟩
        rw [hrecorded] at htrue
        cases htrue
      refine ⟨[], .lost hevent hrecorded, ?_⟩
      rw [Moved, (processEvent_lost host hlost).1]
      rfl

theorem control_moved {daemon : Daemon} {runtime : Runtime} {situation : Situation}
    {request : Request} (hruntime : daemon.runtime = some runtime)
    (hup : (handleControl env situation request { daemon.toJournal with runtime := runtime }).1 ≠
      .error .crashed) :
    ∃ moves, EngineMoves env daemon (.control situation request) moves ∧
      Moved moves { daemon.toJournal with runtime := runtime }
        (handleControl env situation request { daemon.toJournal with runtime := runtime }).2 := by
  let session : Session := { daemon.toJournal with runtime := runtime }
  cases request with
  | status | rules | audit _ | simulate _ | verifyAudit =>
      exact unmoved_control rfl (read_runtime runtime (by simp) (by simp) (by simp) (by simp))
  | trigger name =>
      obtain ⟨moves, hmoves, hmoved⟩ : ∃ moves,
          EngineMoves env daemon (.control situation (.trigger name)) moves ∧
            Moved moves session
              (processEvent env situation.host (manualEvent situation name) session).2 :=
        processed_moved rfl rfl fun hcrash => hup (trigger_crashed hcrash)
      exact ⟨moves, hmoves, by rw [trigger_snd]; exact hmoved⟩
  | recovery enabled =>
      refine ⟨[.setRecoveryMode enabled], .recovery situation enabled, ?_⟩
      have hmoved : (handleControl env situation (.recovery enabled) session).2.runtime.engine =
          runtime.engine.setRecoveryMode enabled := switch_moved (.recovery enabled) rfl
      exact congrArg some hmoved.symm
  | setMode mode =>
      cases hknown : runtime.config.knowsMode mode with
      | true =>
          refine ⟨[.setMode mode], .mode hruntime hknown, ?_⟩
          have hmoved : (handleControl env situation (.setMode mode) session).2.runtime.engine =
              runtime.engine.setMode mode := switch_moved (.mode mode) hknown
          exact congrArg some hmoved.symm
      | false =>
          have hrejected : (Switch.mode mode).accepted session.runtime.config = false := hknown
          obtain ⟨message, hsame⟩ : ∃ message,
              handleControl env situation (Switch.mode mode).request session =
                (.ok (.error message), session) := Switch.handleControl_rejected hrejected
          change handleControl env situation (.setMode mode) session = _ at hsame
          refine ⟨[], .untouched rfl, ?_⟩
          rw [Moved, hsame]
          rfl
  | reload =>
      have hafter : (handleControl env situation .reload session).2 =
          (reload env situation session).2 := by
        rw [handleControl_snd]
        exact bind_pure_snd _ (fun _ => Response.success "configuration reloaded" none) _
      rcases reload_moved env situation session with hsame | ⟨config, hload, hengine⟩
      · refine ⟨[], .untouched rfl, ?_⟩
        rw [Moved, hafter, hsame]
        rfl
      · refine ⟨[.replaceRules config.rules], .reloaded hload, ?_⟩
        rw [Moved, hafter, hengine]
        rfl

/-- The step lemma: a step that leaves the daemon up stands for a block of engine
operations. -/
theorem step_moves {daemon after : Daemon} {op : DaemonOp} {engine : PolicyEngine}
    (hlife : op.isStart = false) (hs : daemon.step env op = some after)
    (hengine : after.engine = some engine) :
    ∃ before moves, daemon.engine = some before ∧ EngineMoves env daemon op moves ∧
      run PolicyEngine.step before moves = some engine := by
  obtain ⟨next, hnext, rfl⟩ := Option.map_eq_some_iff.mp hengine
  cases op with
  | start situation maxRecords verifyOnStart => cases hlife
  | event host event =>
      obtain ⟨runtime, hruntime, rfl⟩ := Option.map_eq_some_iff.mp hs
      obtain ⟨moves, hmoves, hmoved⟩ : ∃ moves, EngineMoves env daemon (.event host event) moves ∧
          Moved moves { daemon.toJournal with runtime := runtime }
            (processEvent env host event { daemon.toJournal with runtime := runtime }).2 :=
        processed_moved rfl rfl (Daemon.activate_survives hnext)
      rw [Daemon.activate_runtime hnext]
      exact ⟨runtime.engine, moves, by rw [Daemon.engine, hruntime]; rfl, hmoves, hmoved⟩
  | control situation request =>
      obtain ⟨runtime, hruntime, rfl⟩ := Option.map_eq_some_iff.mp hs
      obtain ⟨moves, hmoves, hmoved⟩ := control_moved hruntime (Daemon.activate_survives hnext)
      rw [Daemon.activate_runtime hnext]
      exact ⟨runtime.engine, moves, by rw [Daemon.engine, hruntime]; rfl, hmoves, hmoved⟩
  | shutdown =>
      obtain ⟨runtime, _, rfl⟩ := Option.map_eq_some_iff.mp hs
      cases hnext
  | kill =>
      cases hs
      cases hnext

/-! ## One life of the process -/

theorem boot_engine {situation : Situation} {maxRecords : ℕ} {verifyOnStart : Bool}
    {journal after : Journal} {runtime : Runtime}
    (h : Daemon.boot env situation maxRecords verifyOnStart journal = (.ok runtime, after)) :
    ∃ config mode recovery, loadConfig situation = .ok config ∧ runtime.engine =
      (PolicyEngine.new config.rules mode situation.now).setRecoveryMode recovery := by
  let Built (runtime : Runtime) : Prop := ∃ config mode recovery,
    loadConfig situation = .ok config ∧ runtime.engine =
      (PolicyEngine.new config.rules mode situation.now).setRecoveryMode recovery
  have hwp : wp (Daemon.boot env situation maxRecords verifyOnStart) (fun runtime _ => Built runtime)
      (fun _ _ => True) journal := by
    refine wp_seq (fun config _ => loadConfig situation = .ok config)
      (wp_ofExcept (fun _ h => h) fun _ _ => trivial) fun config loaded hload => ?_
    refine wp_seq (fun _ _ => True) (wp_true _ _) fun _ _ _ => ?_
    refine wp_seq (fun _ _ => True) (wp_true _ _) fun _ _ _ => ?_
    refine wp_seq (fun _ _ => True) (wp_true _ _) fun handles _ _ => ?_
    refine wp_seq (fun runtime _ => Built runtime) ?_
      fun runtime _ hbuilt => wp_seq (fun _ _ => True) (wp_true _ _) fun _ _ _ => hbuilt
    refine wp_seq (fun _ _ => True) (wp_true _ _) fun stored _ _ => ?_
    refine wp_seq (fun _ _ => True) (wp_true _ _) fun recovery _ _ => ?_
    exact ⟨config, config.restoredMode stored, recovery == some "true", hload, rfl⟩
  exact wp_of_ok (Q := fun runtime _ => Built runtime) hwp h

/-- A daemon that a start has just brought up, over whatever was before. -/
def Booted (env : Environment) (situation : Situation) (daemon : Daemon) : Prop :=
  ∃ store before maxRecords verifyOnStart, daemon.runtime.isSome ∧
    run (Daemon.step env) (Daemon.down store)
      (before ++ [.start situation maxRecords verifyOnStart]) = some daemon

theorem Booted.engine {situation : Situation} {daemon : Daemon}
    (h : Booted env situation daemon) : ∃ config mode recovery,
      loadConfig situation = .ok config ∧ daemon.engine =
        some ((PolicyEngine.new config.rules mode situation.now).setRecoveryMode recovery) := by
  obtain ⟨store, before, maxRecords, verifyOnStart, hup, hrun⟩ := h
  obtain ⟨previous, _, hs⟩ := (run_snoc_eq_some (Daemon.step env)).mp hrun
  rcases Daemon.step_start hs with ⟨runtime, journal, hboot, rfl⟩ | ⟨stop, journal, _, rfl⟩
  · obtain ⟨config, mode, recovery, hload, hengine⟩ := boot_engine hboot
    exact ⟨config, mode, recovery, hload, congrArg some hengine⟩
  · cases hup

/-- The blocks of engine operations that a life of the process stands for. -/
abbrev EngineBlocks (env : Environment) (daemon : Daemon) (engine : PolicyEngine)
    (life : List DaemonOp) (blocks : List (List EngineOp)) : Prop :=
  Blocks (Daemon.step env) PolicyEngine.step Daemon.engine (EngineMoves env) daemon engine life
    blocks

theorem life_blocks {daemon after : Daemon} {life : List DaemonOp} {engine : PolicyEngine}
    (hlife : ∀ op ∈ life, op.isStart = false)
    (hrun : run (Daemon.step env) daemon life = some after) (hengine : after.engine = some engine) :
    ∃ first blocks, daemon.engine = some first ∧ EngineBlocks env daemon first life blocks ∧
      run PolicyEngine.step first blocks.flatten = some engine :=
  exists_blocks (fun _ _ _ _ hop hs hafter => step_moves hop hs hafter) hrun
    (allSteps_of_forall_mem hlife) hengine

/-- The rule fires on the recorded event that the daemon handles at position `n` of
the life. -/
def FiresInLife (env : Environment) (booted : Daemon) (life : List DaemonOp) (n : ℕ) (rule : Rule)
    (event : Event) : Prop :=
  ∃ daemon op host engine, Visits (Daemon.step env) booted life n daemon op ∧
    op.processed = some event ∧ op.host = some host ∧ daemon.records env event = true ∧
      daemon.engine = some engine ∧ engine.Fires host event rule

theorem EngineMoves.handles {daemon : Daemon} {op : DaemonOp} {moves : List EngineOp} {j : ℕ}
    {host : Host} {event : Event} (h : EngineMoves env daemon op moves)
    (hj : moves[j]? = some (.handle host event)) :
    j = 0 ∧ op.processed = some event ∧ op.host = some host ∧
      daemon.records env event = true := by
  cases h with
  | @handled _ host' event' modes hevent hhost hrecorded =>
      cases j with
      | zero =>
          cases hj
          exact ⟨rfl, hevent, hhost, hrecorded⟩
      | succ j =>
          rw [List.getElem?_cons_succ, List.getElem?_map] at hj
          cases hmode : modes[j]? with
          | none =>
              rw [hmode] at hj
              cases hj
          | some mode =>
              rw [hmode] at hj
              cases hj
  | lost => cases hj
  | mode => cases j <;> cases hj
  | recovery => cases j <;> cases hj
  | reloaded => cases j <;> cases hj
  | untouched => cases hj

theorem EngineMoves.of_recorded {daemon : Daemon} {op : DaemonOp} {moves : List EngineOp}
    {host : Host} {event : Event} (h : EngineMoves env daemon op moves)
    (hevent : op.processed = some event) (hhost : op.host = some host)
    (hrecorded : daemon.records env event = true) :
    ∃ modes : List String, moves = .handle host event :: modes.map .setMode := by
  cases h with
  | handled modes hevent' hhost' _ =>
      cases hevent.symm.trans hevent'
      cases hhost.symm.trans hhost'
      exact ⟨modes, rfl⟩
  | lost hevent' hlost =>
      cases hevent.symm.trans hevent'
      rw [hrecorded] at hlost
      cases hlost
  | mode => cases hevent
  | recovery => cases hevent
  | reloaded => cases hevent
  | untouched hnone => cases hevent.symm.trans hnone

/-- The firings of the daemon are those of the engine's run, in the same order. -/
theorem firesAt_blocks_iff {booted after : Daemon} {life : List DaemonOp} {first : PolicyEngine}
    {blocks : List (List EngineOp)} {rule : Rule} {event : Event} {k : ℕ}
    (h : EngineBlocks env booted first life blocks)
    (hrun : run (Daemon.step env) booted life = some after) :
    FiresAt first blocks.flatten k rule event ↔
      ∃ n, k = offset blocks n ∧ FiresInLife env booted life n rule event := by
  constructor
  · rintro ⟨engine, host, hv, hfires⟩
    obtain ⟨n, daemon, op, moves, reached, j, hvisits, _, hmoves, hengine, hk, hvisit⟩ :=
      (h.visits_iff hrun).mp hv
    obtain ⟨rfl, hevent, hhost, hrecorded⟩ := hmoves.handles hvisit.1
    cases hvisit.2
    exact ⟨n, hk, daemon, op, host, engine, hvisits, hevent, hhost, hrecorded, hengine, hfires⟩
  · rintro ⟨n, rfl, daemon, op, host, engine, hvisits, hevent, hhost, hrecorded, hengine, hfires⟩
    obtain ⟨moves, reached, hn, hmoves, hview, _⟩ := h.block n daemon op hvisits
    cases hengine.symm.trans hview
    obtain ⟨modes, rfl⟩ := hmoves.of_recorded hevent hhost hrecorded
    refine ⟨engine, host, (h.visits_iff hrun).mpr ?_, hfires⟩
    exact ⟨n, daemon, op, _, engine, 0, hvisits, hn, hmoves, hview, rfl, rfl, rfl⟩

end Kovert
