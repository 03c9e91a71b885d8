import Kovert.Modes

/-!
# Restarting from the store

The mode and the recovery flag live in the engine and, once changed, in the
store. While every store call succeeds, what `Runtime::new` reads back is what
the running engine has: a stored mode that the configuration no longer lists,
or none at all, is read as the mode the daemon started with.
-/

namespace Kovert

open Fallible Session

/-- No store call has failed and the process has not died. -/
def StoreSucceeded (journal : Journal) : Prop :=
  .failed ∉ journal.trace ∧ .crashed ∉ journal.trace

theorem StoreSucceeded.earlier {before after : Journal} (h : StoreSucceeded after)
    (hgrown : before.trace <+: after.trace) : StoreSucceeded before :=
  ⟨fun hmem => h.1 (hgrown.mem hmem), fun hmem => h.2 (hgrown.mem hmem)⟩

/-- What `Runtime::new` would read back is what the engine has. -/
structure Synced (config : Config) (session : Session) : Prop where
  mode : config.restoredMode (session.store.getState "mode") =
    session.runtime.engine.snapshot.mode
  recovery : (session.store.getState "recovery_mode" == some "true") =
    session.runtime.engine.recoveryMode

structure RestartHeld (config : Config) (session : Session) : Prop where
  config_eq : session.runtime.config = config
  rules_eq : session.runtime.engine.rules = sortRules config.rules
  synced : StoreSucceeded session.toJournal → Synced config session

section Writes

variable {env : Environment} {config : Config} {f : PolicyEngine → PolicyEngine}
  {key value : String}

/-- A change of the engine followed by the write of its copy. Between the two
the engine is ahead of the store; if the write fails, the trace says so. -/
theorem keeps_write
    (hrules : ∀ engine : PolicyEngine, (f engine).rules = engine.rules)
    (hsynced : ∀ session, Synced config session →
      Synced config { session.withEngine (f session.runtime.engine) with
        store := session.store.setState key value }) :
    Keeps (RestartHeld config) (updateEngine f >>= fun _ => Session.setState env key value) := by
  rintro session ⟨rfl, hsession, hheld⟩
  refine wp_bind.mpr (wp_onJournal.mpr (Journal.wp_storeCall ?_ ?_ ?_))
  · exact ⟨rfl, (hrules _).trans hsession, fun h => absurd (by simp [Journal.mark]) h.2⟩
  · exact fun _ => ⟨rfl, (hrules _).trans hsession, fun h => absurd (by simp [Journal.mark]) h.1⟩
  · intro clock result store _ hstore
    cases hstore
    refine ⟨rfl, (hrules _).trans hsession, fun h => ?_⟩
    have hbefore : Synced session.runtime.config session :=
      hheld (h.earlier (List.prefix_append _ _))
    have hafter := hsynced session hbefore
    exact ⟨hafter.mode, hafter.recovery⟩

end Writes

theorem restartHeld_invariant (env : Environment) (config : Config) :
    ModeInvariant env config (RestartHeld config) := by
  constructor
  case framed =>
    rintro before after ⟨hconfig, hrules, hsynced⟩ hsame hruntime
    refine ⟨hruntime ▸ hconfig, hruntime ▸ hrules, fun h => ?_⟩
    have hbefore := hsynced (h.earlier hsame.trace)
    constructor
    · rw [hsame.mode, hruntime]
      exact hbefore.mode
    · rw [hsame.recovery, hruntime]
      exact hbefore.recovery
  case config_eq => exact fun session h => h.config_eq
  case rules_eq => exact fun session h => h.rules_eq
  case handled =>
    intro session engine h hrules hrecovery hmode
    refine ⟨h.config_eq, hrules.trans h.rules_eq, fun hstore => ?_⟩
    have hbefore := h.synced hstore
    exact ⟨hbefore.mode.trans hmode.symm, hbefore.recovery.trans hrecovery.symm⟩
  case mode =>
    intro mode hknown
    refine keeps_write (fun _ => rfl) fun session hsynced => ⟨?_, hsynced.recovery⟩
    exact Config.restoredMode_of_known hknown
  case recovery =>
    intro enabled
    refine keeps_write (fun _ => rfl) fun session hsynced => ⟨hsynced.mode, ?_⟩
    cases enabled with
    | true => rfl
    | false => rfl

/-! ## Runs -/

/-- An event, or a request other than a reload. -/
def DaemonOp.KeepsConfig : DaemonOp → Prop
  | .event _ _ => True
  | .control _ request => request ≠ .reload
  | _ => False

theorem step_restartHeld {env : Environment} {config : Config} {parseTime : String → Option ℕ}
    (hvalid : validateConfig parseTime config = .ok ()) {daemon after : Daemon} {op : DaemonOp}
    (hop : op.KeepsConfig)
    (h : ∀ runtime, daemon.runtime = some runtime →
      RestartHeld config { daemon.toJournal with runtime := runtime })
    (hs : daemon.step env op = some after) (next : Runtime) (hnext : after.runtime = some next) :
    RestartHeld config { after.toJournal with runtime := next } := by
  have hinvariant := restartHeld_invariant env config
  cases op with
  | start situation maxRecords verifyOnStart => cases hop
  | event host event =>
      obtain ⟨runtime, hruntime, rfl⟩ := Option.map_eq_some_iff.mp hs
      exact Daemon.activate_session (hinvariant.keeps_processEvent hvalid host event)
        (h runtime hruntime) hnext
  | control situation request =>
      obtain ⟨runtime, hruntime, rfl⟩ := Option.map_eq_some_iff.mp hs
      exact Daemon.activate_session (hinvariant.keeps_control hvalid situation hop)
        (h runtime hruntime) hnext
  | shutdown => cases hop
  | kill => cases hop

theorem StartedFrom.restartHeld {config : Config} {journal after : Journal} {runtime : Runtime}
    (h : StartedFrom config journal.store runtime) (hstore : after.store = journal.store) :
    RestartHeld config { after with runtime := runtime } := by
  refine ⟨h.config_eq, h.rules_eq, fun _ => ?_⟩
  constructor
  · rw [hstore]
    exact h.mode_eq.symm
  · rw [hstore]
    exact h.recovery_eq.symm

/-- Started from any store and run without a failed store call, the daemon can
be rebuilt from the store after every step: the new engine has the mode and the
recovery flag of the running one. -/
theorem restart_preserves_mode (env : Environment) (parseTime : String → Option ℕ)
    (config : Config) (store : DaemonStore) (handles handles' : List ℕ) (now now' : Timestamp)
    (initial current : Runtime) (journal : Journal) (ops : List DaemonOp) (daemon : Daemon)
    (hvalid : validateConfig parseTime config = .ok ())
    (hnew : Runtime.new env config handles now (Daemon.down store).toJournal =
      (.ok initial, journal))
    (hops : ∀ op ∈ ops, op.KeepsConfig)
    (hrun : Execution.run (Daemon.step env) { journal with runtime := some initial } ops =
      some daemon)
    (hcurrent : daemon.runtime = some current) (hstore : StoreSucceeded daemon.toJournal)
    (hreads : ∀ n, daemon.calls ≤ n → n < daemon.calls + 2 →
      ∃ clock, env.answer n = .succeeds clock) :
    ∃ restarted after,
      Runtime.new env config handles' now' daemon.toJournal = (.ok restarted, after) ∧
      restarted.engine.snapshot.mode = current.engine.snapshot.mode ∧
      restarted.engine.recoveryMode = current.engine.recoveryMode := by
  have hheld : ∀ runtime, daemon.runtime = some runtime →
      RestartHeld config { daemon.toJournal with runtime := runtime } := by
    refine Execution.run_invariant (C := fun _ op => DaemonOp.KeepsConfig op)
      (P := fun daemon => ∀ runtime, daemon.runtime = some runtime →
        RestartHeld config { daemon.toJournal with runtime := runtime }) ?_ ?_
      hrun (Execution.allSteps_of_forall_mem hops)
    · intro runtime hruntime
      cases hruntime
      obtain ⟨hstarted, hsame, _⟩ := wp_of_ok (wp_new config handles now _) hnew
      exact hstarted.restartHeld hsame
    · intro daemon op after hop h hs
      exact step_restartHeld hvalid hop h hs
  have hsynced := (hheld current hcurrent).synced hstore
  obtain ⟨clock, hfirst⟩ := hreads daemon.calls le_rfl (by omega)
  obtain ⟨clock', hsecond⟩ := hreads (daemon.calls + 1) (by omega) (by omega)
  obtain ⟨restarted, after, hrestart, hstarted⟩ := exists_new config handles' now' hfirst hsecond
  refine ⟨restarted, after, hrestart, ?_, ?_⟩
  · exact hstarted.mode_eq.trans hsynced.mode
  · exact hstarted.recovery_eq.trans hsynced.recovery

/-- A rule that switches to `away`. -/
def leavingConfig : Config :=
  liveConfig homeModes [{ testRule (.manual "panic") with actions := [.setMode "away"] }]

/-- A store that names a mode the configuration does not have. -/
def staleStore : DaemonStore := emptyStore.setState "mode" "gone"

def leavingStart : Daemon where
  toJournal := { (Daemon.down staleStore).toJournal with calls := 2 }
  runtime := some
    { config := leavingConfig
      engine := (PolicyEngine.new leavingConfig.rules "home" 0).setRecoveryMode false
      executor := executorFor leavingConfig
      sensorHandles := [0] }

def leavingOps : List DaemonOp :=
  [.event bareHost panicEvent, .control (sampleSituation leavingConfig) (.recovery true)]

/-- The stored mode is unknown at first, then the one an action has set. -/
theorem restart_preserves_mode_stale : ∃ daemon restarted after,
    Execution.run (Daemon.step (sampleEnv [])) leavingStart leavingOps = some daemon ∧
    Runtime.new (sampleEnv []) leavingConfig [1] 9 daemon.toJournal = (.ok restarted, after) ∧
    restarted.engine.snapshot.mode = "away" ∧ restarted.engine.recoveryMode = true := by
  have hrun : (Execution.run (Daemon.step (sampleEnv [])) leavingStart leavingOps).map
      (fun daemon => (daemon.runtime.map (fun runtime => (runtime.engine.snapshot.mode,
        runtime.engine.recoveryMode)), daemon.trace.contains .failed,
        daemon.trace.contains .crashed)) = some (some ("away", true), false, false) := by
    decide +kernel
  obtain ⟨daemon, hdaemon, hvalues⟩ := Option.map_eq_some_iff.mp hrun
  simp only [Prod.mk.injEq, Option.map_eq_some_iff] at hvalues
  obtain ⟨⟨current, hcurrent, hmode, hrecovery⟩, hfailed, hcrashed⟩ := hvalues
  have hstore : StoreSucceeded daemon.toJournal :=
    ⟨by simpa using hfailed, by simpa using hcrashed⟩
  have hops : ∀ op ∈ leavingOps, op.KeepsConfig := by
    intro op hmem
    obtain rfl | rfl : op = _ ∨ op = _ := by simpa [leavingOps] using hmem
    · trivial
    · exact fun heq => nomatch heq
  obtain ⟨restarted, after, hrestart, hsame, hflag⟩ :=
    restart_preserves_mode (sampleEnv []) bareHost.parseTime leavingConfig staleStore [0] [1] 0 9
      _ current _ leavingOps daemon rfl rfl hops hdaemon hcurrent hstore
      (fun _ _ _ => ⟨_, rfl⟩)
  exact ⟨daemon, restarted, after, hdaemon, hrestart, hsame.trans hmode, hflag.trans hrecovery⟩

end Kovert
