import Kovert.Control
import Kovert.ModeRules

/-!
# The security mode over whole runs

The daemon takes its mode from the store at start-up, checked against the
configuration, and keeps it in the engine. In every run the mode is one of the
active configuration's modes as long as no reload drops the current mode from
the list: `Runtime::new` makes that check and `reload` does not.
-/

namespace Kovert

open Fallible Session

/-! ## Starting -/

theorem Config.knowsMode_configuredMode {config : Config} (h : config.modes ≠ []) :
    config.knowsMode config.configuredMode = true := by
  rw [Config.knowsMode_iff]
  unfold Config.configuredMode
  cases hfind : config.modes.find? (·.initial) with
  | some mode => exact ⟨mode, List.mem_of_find?_eq_some hfind, rfl⟩
  | none =>
      obtain ⟨mode, rest, hmodes⟩ := List.exists_cons_of_ne_nil h
      rw [hmodes]
      exact ⟨mode, List.mem_cons_self, rfl⟩

/-- A restored mode is one of the configuration's, whatever is stored. -/
theorem Config.knowsMode_restoredMode {config : Config} (h : config.modes ≠ [])
    (stored : Option String) : config.knowsMode (config.restoredMode stored) = true := by
  unfold Config.restoredMode
  cases hfilter : stored.filter (fun mode => config.modes.isEmpty || config.knowsMode mode) with
  | none => exact Config.knowsMode_configuredMode h
  | some mode =>
      have hkept := (Option.filter_eq_some_iff.mp hfilter).2
      rw [List.isEmpty_eq_false_iff.mpr h, Bool.false_or] at hkept
      exact hkept

theorem Config.restoredMode_of_known {config : Config} {mode : String}
    (h : config.knowsMode mode = true) : config.restoredMode (some mode) = mode := by
  have hkept : (some mode).filter (fun mode => config.modes.isEmpty || config.knowsMode mode) =
      some mode := Option.filter_eq_some_iff.mpr ⟨rfl, by rw [h, Bool.or_true]⟩
  rw [Config.restoredMode, hkept]
  rfl

theorem validated_of_loadConfig {situation : Situation} {config : Config}
    (h : loadConfig situation = .ok config) :
    validateConfig situation.host.parseTime config = .ok () := by
  unfold loadConfig at h
  split at h
  · cases h
  · next read _ =>
    split at h
    · next hok =>
      cases h
      exact hok
    · cases h

/-- What a started runtime takes from the configuration and the store. -/
structure StartedFrom (config : Config) (store : DaemonStore) (runtime : Runtime) : Prop where
  config_eq : runtime.config = config
  rules_eq : runtime.engine.rules = sortRules config.rules
  mode_eq : runtime.engine.snapshot.mode = config.restoredMode (store.getState "mode")
  recovery_eq : runtime.engine.recoveryMode = (store.getState "recovery_mode" == some "true")

theorem wp_new {env : Environment} (config : Config) (handles : List ℕ) (now : Timestamp)
    (journal : Journal) :
    wp (Runtime.new env config handles now)
      (fun runtime after => StartedFrom config journal.store runtime ∧
        after.store = journal.store ∧ after.trace = journal.trace) (fun _ _ => True) journal := by
  have hget : ∀ key other, wp (Journal.getState env key)
      (fun value after => value = other.store.getState key ∧ after.store = other.store ∧
        after.trace = other.trace) (fun _ _ => True) other := by
    intro key other
    refine Journal.wp_storeCall trivial (fun _ => trivial) ?_
    intro clock result store _ hbody
    cases hbody
    exact ⟨rfl, rfl, List.append_nil _⟩
  refine wp_seq _ (hget "mode" journal) ?_
  rintro stored first ⟨rfl, hstore, htrace⟩
  refine wp_seq _ (hget "recovery_mode" first) ?_
  rintro recovery second ⟨rfl, hstore', htrace'⟩
  rw [hstore]
  exact ⟨⟨rfl, rfl, rfl, rfl⟩, hstore'.trans hstore, htrace'.trans htrace⟩

theorem getState_of_succeeds {env : Environment} {journal : Journal} {clock : String}
    (h : env.answer journal.calls = .succeeds clock) (key : String) :
    Journal.getState env key journal = (.ok (journal.store.getState key),
      { journal with calls := journal.calls + 1 }.mark []) := by
  simp only [Journal.getState, Journal.storeCall, h]

/-- The runtime that comes out of two successful reads. -/
theorem exists_new {env : Environment} (config : Config) (handles : List ℕ) (now : Timestamp)
    {journal : Journal} {clock clock' : String} (h : env.answer journal.calls = .succeeds clock)
    (h' : env.answer (journal.calls + 1) = .succeeds clock') :
    ∃ runtime after, Runtime.new env config handles now journal = (.ok runtime, after) ∧
      StartedFrom config journal.store runtime := by
  let first := { journal with calls := journal.calls + 1 }.mark []
  have hsecond : env.answer first.calls = .succeeds clock' := h'
  have hnew : ∃ runtime after, Runtime.new env config handles now journal =
      (.ok runtime, after) :=
    ⟨_, _, (bind_ok (getState_of_succeeds h "mode")).trans
      (bind_ok (getState_of_succeeds hsecond "recovery_mode"))⟩
  obtain ⟨runtime, after, hnew⟩ := hnew
  exact ⟨runtime, after, hnew, (wp_of_ok (wp_new config handles now journal) hnew).1⟩

/-! ## The mode is one of the active modes -/

/-- A runtime on a validated configuration whose mode, if the configuration has
modes, is one of them. -/
structure ModeHeld (runtime : Runtime) : Prop where
  validated : ∃ parseTime, validateConfig parseTime runtime.config = .ok ()
  rules_eq : runtime.engine.rules = sortRules runtime.config.rules
  known : runtime.config.modes ≠ [] →
    runtime.config.knowsMode runtime.engine.snapshot.mode = true

/-- The same while the configuration stays. -/
def ModeHeldOn (config : Config) (session : Session) : Prop :=
  session.runtime.config = config ∧ ModeHeld session.runtime

theorem keeps_of_runtime {α : Type} {I : Session → Prop} {x : Fallible Journal Stop α}
    (hI : ∀ before after : Session, after.runtime = before.runtime → I before → I after) :
    Keeps I (onJournal x) := by
  intro session hs
  refine wp_onJournal.mpr (wp_mono (wp_true x _) ?_ ?_)
  · exact fun _ journal _ => hI session _ rfl hs
  · exact fun _ journal _ => hI session _ rfl hs

theorem modeHeldOn_invariant (env : Environment) (config : Config) :
    ModeInvariant env config (ModeHeldOn config) := by
  have hruntime : ∀ before after : Session, after.runtime = before.runtime →
      ModeHeldOn config before → ModeHeldOn config after := by
    intro before after heq h
    rw [ModeHeldOn, heq]
    exact h
  constructor
  case framed => exact fun before after h _ heq => hruntime before after heq h
  case config_eq => exact fun session h => h.1
  case rules_eq =>
    rintro session ⟨rfl, h⟩
    exact h.rules_eq
  case handled =>
    rintro session engine ⟨hconfig, h⟩ hrules _ hmode
    exact ⟨hconfig, h.validated, hrules.trans h.rules_eq, fun hne => hmode ▸ h.known hne⟩
  case mode =>
    intro mode hknown
    refine Keeps.bind ?_ fun _ => keeps_of_runtime hruntime
    rintro session ⟨rfl, h⟩
    exact ⟨rfl, h.validated, h.rules_eq, fun _ => hknown⟩
  case recovery =>
    intro enabled
    refine Keeps.bind ?_ fun _ => keeps_of_runtime hruntime
    rintro session ⟨rfl, h⟩
    exact ⟨rfl, h.validated, h.rules_eq, h.known⟩

theorem StartedFrom.modeHeld {config : Config} {store : DaemonStore} {runtime : Runtime}
    (h : StartedFrom config store runtime) {parseTime : String → Option ℕ}
    (hvalid : validateConfig parseTime config = .ok ()) : ModeHeld runtime := by
  obtain ⟨rfl, hrules, hmode, _⟩ := h
  refine ⟨⟨parseTime, hvalid⟩, hrules, ?_⟩
  intro hne
  rw [hmode]
  exact Config.knowsMode_restoredMode hne _

theorem boot_modeHeld {env : Environment} {situation : Situation} {maxRecords : ℕ}
    {verifyOnStart : Bool} {journal after : Journal} {runtime : Runtime}
    (h : Daemon.boot env situation maxRecords verifyOnStart journal = (.ok runtime, after)) :
    ModeHeld runtime := by
  have hwp : wp (Daemon.boot env situation maxRecords verifyOnStart)
      (fun runtime _ => ModeHeld runtime) (fun _ _ => True) journal := by
    refine wp_seq (fun config _ => loadConfig situation = .ok config)
      (wp_ofExcept (fun _ h => h) fun _ _ => trivial) fun config _ hload => ?_
    refine wp_seq (fun _ _ => True) (wp_true _ _) fun _ _ _ => ?_
    refine wp_seq (fun _ _ => True) (wp_true _ _) fun _ _ _ => ?_
    refine wp_seq (fun _ _ => True) (wp_true _ _) fun handles started _ => ?_
    refine wp_seq (fun runtime _ => ModeHeld runtime) ?_ fun runtime _ hheld => ?_
    · refine wp_mono (wp_new config handles situation.now started) ?_ fun _ _ _ => trivial
      exact fun runtime _ h => h.1.modeHeld (validated_of_loadConfig hload)
    · exact wp_seq (fun _ _ => True) (wp_true _ _) fun _ _ _ => hheld
  exact wp_of_ok (Q := fun runtime _ => ModeHeld runtime) hwp h

/-- A reload that is accepted brings a list of modes without the current mode. -/
def DropsMode (situation : Situation) (session : Session) : Prop :=
  ∃ config handles journal, loadConfig situation = .ok config ∧
    Journal.startSensors situation "restart sensors" config session.toJournal =
      (.ok handles, journal) ∧
    config.modes ≠ [] ∧ config.knowsMode session.runtime.engine.snapshot.mode = false

theorem reload_modeHeld {env : Environment} {situation : Situation} {session : Session}
    (h : ModeHeld session.runtime) (hkept : ¬ DropsMode situation session) :
    ModeHeld (reload env situation session).2.runtime := by
  rcases reload_cases env situation session with ⟨stop, _, hreload⟩ |
    ⟨config, stop, journal, _, _, hreload⟩ | ⟨config, handles, journal, hload, hsensors, hreload⟩
  · rw [hreload]
    exact h
  · rw [hreload]
    exact h
  · rw [hreload]
    refine ⟨⟨_, validated_of_loadConfig hload⟩, rfl, ?_⟩
    intro hne
    -- the mode itself is not touched
    change config.knowsMode session.runtime.engine.snapshot.mode = true
    by_contra hunknown
    exact hkept ⟨config, handles, journal, hload, hsensors, hne, by simpa using hunknown⟩

/-- The step does not reload a configuration that drops the current mode. -/
def KeepsMode : Daemon → DaemonOp → Prop
  | daemon, .control situation .reload => ∀ runtime, daemon.runtime = some runtime →
      ¬ DropsMode situation { daemon.toJournal with runtime := runtime }
  | _, _ => True

theorem step_modeHeld {env : Environment} {daemon after : Daemon} {op : DaemonOp}
    (hkept : KeepsMode daemon op)
    (h : ∀ runtime, daemon.runtime = some runtime → ModeHeld runtime)
    (hs : daemon.step env op = some after) (next : Runtime) (hnext : after.runtime = some next) :
    ModeHeld next := by
  cases op with
  | start situation maxRecords verifyOnStart =>
      rcases Daemon.step_start hs with ⟨runtime, journal, hboot, rfl⟩ | ⟨stop, journal, _, rfl⟩
      · cases hnext
        exact boot_modeHeld hboot
      · cases hnext
  | event host event =>
      obtain ⟨runtime, hruntime, rfl⟩ := Option.map_eq_some_iff.mp hs
      obtain ⟨parseTime, hvalid⟩ := (h runtime hruntime).validated
      have hkeeps := (modeHeldOn_invariant env runtime.config).keeps_processEvent hvalid host event
      exact (Daemon.activate_session hkeeps ⟨rfl, h runtime hruntime⟩ hnext).2
  | control situation request =>
      obtain ⟨runtime, hruntime, rfl⟩ := Option.map_eq_some_iff.mp hs
      by_cases hreload : request = .reload
      · subst hreload
        have hafter := Daemon.activate_runtime hnext
        rw [handleControl_snd] at hafter
        have hsame : (handleControlResult env situation .reload
            { daemon.toJournal with runtime := runtime }).2 =
            (reload env situation { daemon.toJournal with runtime := runtime }).2 :=
          bind_pure_snd _ (fun _ => Response.success "configuration reloaded" none) _
        rw [hsame] at hafter
        rw [hafter]
        exact reload_modeHeld (h runtime hruntime) (hkept runtime hruntime)
      · obtain ⟨parseTime, hvalid⟩ := (h runtime hruntime).validated
        have hkeeps := (modeHeldOn_invariant env runtime.config).keeps_control hvalid situation
          hreload
        exact (Daemon.activate_session hkeeps ⟨rfl, h runtime hruntime⟩ hnext).2
  | shutdown =>
      obtain ⟨runtime, _, rfl⟩ := Option.map_eq_some_iff.mp hs
      cases hnext
  | kill =>
      cases hs
      cases hnext

/-- In a run whose reloads keep the current mode, the mode is always one of the
active configuration's, if it has any. -/
theorem mode_is_configured (env : Environment) (store : DaemonStore) (ops : List DaemonOp)
    (daemon : Daemon) (runtime : Runtime)
    (hrun : Execution.run (Daemon.step env) (Daemon.down store) ops = some daemon)
    (hall : Execution.AllSteps (Daemon.step env) KeepsMode (Daemon.down store) ops)
    (hruntime : daemon.runtime = some runtime) (hmodes : runtime.config.modes ≠ []) :
    ∃ mode ∈ runtime.config.modes, mode.name = runtime.engine.snapshot.mode := by
  have hheld : ∀ runtime, daemon.runtime = some runtime → ModeHeld runtime := by
    refine Execution.run_invariant (C := KeepsMode)
      (P := fun daemon => ∀ runtime, daemon.runtime = some runtime → ModeHeld runtime) ?_ ?_
      hrun hall
    · intro runtime hnone
      cases hnone
    · intro daemon op after hkept h hs
      exact step_modeHeld hkept h hs
  exact Config.knowsMode_iff.mp ((hheld runtime hruntime).known hmodes)

/-- Start with the modes home and away and switch to the second. -/
def goAway : List DaemonOp :=
  [.start (sampleSituation (liveConfig homeModes [])) 0 false,
    .control (sampleSituation (liveConfig homeModes [])) (.setMode "away")]

/-- The same, then a reload to a configuration with these modes. -/
def modesReloaded (modes : List ModeConfig) : List DaemonOp :=
  goAway ++ [.control (sampleSituation (liveConfig modes [])) .reload]

/-- A reload that drops `home` and keeps the mode in use. -/
theorem mode_is_configured_away :
    ∃ daemon runtime,
      Execution.run (Daemon.step (sampleEnv [])) (Daemon.down emptyStore)
        (modesReloaded [⟨"work", true⟩, ⟨"away", false⟩]) = some daemon ∧
      daemon.runtime = some runtime ∧ runtime.config.modes.length = 2 ∧
      ∃ mode ∈ runtime.config.modes, mode.name = runtime.engine.snapshot.mode := by
  have hrun : ((Execution.run (Daemon.step (sampleEnv [])) (Daemon.down emptyStore)
      (modesReloaded [⟨"work", true⟩, ⟨"away", false⟩])).bind Daemon.runtime).map
        (fun runtime => runtime.config.modes.length) = some 2 := by
    decide +kernel
  have haway : (Execution.run (Daemon.step (sampleEnv [])) (Daemon.down emptyStore) goAway).map
      (fun daemon => daemon.runtime.map (fun runtime => runtime.engine.snapshot.mode)) =
        some (some "away") := by
    decide +kernel
  obtain ⟨runtime, hruntime, hlength⟩ := Option.map_eq_some_iff.mp hrun
  obtain ⟨daemon, hdaemon, hruntime⟩ := Option.bind_eq_some_iff.mp hruntime
  refine ⟨daemon, runtime, hdaemon, hruntime, hlength, ?_⟩
  refine mode_is_configured (sampleEnv []) emptyStore _ daemon runtime hdaemon ?_ hruntime ?_
  · refine Execution.allSteps_snoc.mpr ⟨?_, ?_⟩
    · intro n before op hvisit
      obtain rfl | rfl : op = _ ∨ op = _ := by
        simpa [goAway] using List.mem_of_getElem? hvisit.1
      · trivial
      · trivial
    · rintro before hbefore current hcurrent ⟨config, _, _, hload, _, _, hunknown⟩
      rw [hbefore, Option.map_some, hcurrent] at haway
      have hmode : current.engine.snapshot.mode = "away" := by simpa using haway
      have hconfig : liveConfig [⟨"work", true⟩, ⟨"away", false⟩] [] = config :=
        Except.ok.inj hload
      rw [hmode, ← hconfig] at hunknown
      exact absurd hunknown (by decide)
  · intro hnil
    rw [hnil] at hlength
    cases hlength

/-- A reload to a configuration without the current mode leaves the mode. -/
theorem reload_leaves_dropped_mode :
    ∃ daemon runtime,
      Execution.run (Daemon.step (sampleEnv [])) (Daemon.down emptyStore)
        (modesReloaded [⟨"work", true⟩]) = some daemon ∧
      daemon.runtime = some runtime ∧ runtime.config.modes.map (·.name) = ["work"] ∧
      runtime.engine.snapshot.mode = "away" ∧
      ¬ ∃ mode ∈ runtime.config.modes, mode.name = runtime.engine.snapshot.mode := by
  have hrun : ((Execution.run (Daemon.step (sampleEnv [])) (Daemon.down emptyStore)
      (modesReloaded [⟨"work", true⟩])).bind Daemon.runtime).map
        (fun runtime => (runtime.config.modes.map (·.name), runtime.engine.snapshot.mode)) =
          some (["work"], "away") := by
    decide +kernel
  obtain ⟨runtime, hruntime, hvalues⟩ := Option.map_eq_some_iff.mp hrun
  obtain ⟨daemon, hdaemon, hruntime⟩ := Option.bind_eq_some_iff.mp hruntime
  obtain ⟨hmodes, hmode⟩ := Prod.ext_iff.mp hvalues
  refine ⟨daemon, runtime, hdaemon, hruntime, hmodes, hmode, ?_⟩
  rintro ⟨mode, hmem, hname⟩
  have hlisted : mode.name ∈ runtime.config.modes.map (·.name) := List.mem_map_of_mem hmem
  simp only at hmodes hmode
  rw [hname, hmode, hmodes] at hlisted
  exact absurd hlisted (by decide)

end Kovert
