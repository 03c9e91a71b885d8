import Kovert.EngineHistory

/-!
# Rate limits over a life of the process

The rate limits of the engine, carried over to the daemon: between one start and
the next a rule that every reload keeps fires as rarely as it is told to, across
requests, failures of the store and failed reloads. The engine remembers this in
memory only, so another life begins afresh.
-/

namespace Kovert

open Execution

variable {env : Environment}

/-- Every configuration that a step of this life loads has the rule. -/
def LifeKeeps (rule : Rule) (situation : Situation) (life : List DaemonOp) : Prop :=
  (∀ config, loadConfig situation = .ok config → rule ∈ config.rules) ∧
    ∀ situation' config, DaemonOp.control situation' .reload ∈ life →
      loadConfig situation' = .ok config → rule ∈ config.rules

theorem loaded_distinctIds {situation : Situation} {config : Config}
    (h : loadConfig situation = .ok config) : DistinctIds config.rules := by
  have haccepted : Accepted situation.host.parseTime config.rules :=
    ⟨config, rfl, validated_of_loadConfig h⟩
  exact haccepted.distinctIds

/-- The rule lists of a block are those of a reload. -/
theorem EngineMoves.reload_eq {daemon : Daemon} {op : DaemonOp} {moves : List EngineOp}
    {rules : List Rule} (h : EngineMoves env daemon op moves)
    (hmem : EngineOp.replaceRules rules ∈ moves) : ∃ situation config,
      op = .control situation .reload ∧ loadConfig situation = .ok config ∧
        rules = config.rules := by
  cases h with
  | handled modes => simp at hmem
  | lost => cases hmem
  | mode => simp at hmem
  | recovery => simp at hmem
  | reloaded hload =>
      cases List.mem_singleton.mp hmem
      exact ⟨_, _, rfl, hload, rfl⟩
  | untouched => cases hmem

/-- The engine remembers the firings of the life so far. -/
theorem life_marksFirings {situation : Situation} {booted after : Daemon} {life : List DaemonOp}
    {rule : Rule} {engine : PolicyEngine} (hboot : Booted env situation booted)
    (hlife : ∀ op ∈ life, op.isStart = false) (hkeeps : LifeKeeps rule situation life)
    (hrun : run (Daemon.step env) booted life = some after) (hengine : after.engine = some engine) :
    ∃ first blocks, EngineBlocks env booted first life blocks ∧
      MarksFirings first rule blocks.flatten engine := by
  obtain ⟨config, mode, recovery, hload, hbooted⟩ := hboot.engine
  obtain ⟨first, blocks, hfirst, hblocks, hflat⟩ := life_blocks hlife hrun hengine
  cases hbooted.symm.trans hfirst
  refine ⟨_, blocks, hblocks, run_marksFirings ?_ ?_ hflat ?_⟩
  · exact new_distinctIds (loaded_distinctIds hload) mode situation.now
  · exact mem_sortRules.mpr (hkeeps.1 config hload)
  · refine allSteps_retainsRule fun rules hmem => ?_
    obtain ⟨moves, hmoves, hin⟩ := List.mem_flatten.mp hmem
    obtain ⟨n, hn⟩ := List.mem_iff_getElem?.mp hmoves
    have hlt : n < life.length := hblocks.length_eq ▸ (List.getElem?_eq_some_iff.mp hn).1
    obtain ⟨daemon, hdaemon⟩ := exists_run_take hrun n
    obtain ⟨moves', _, hn', hB, _⟩ :=
      hblocks.block n daemon life[n] ⟨List.getElem?_eq_getElem hlt, hdaemon⟩
    cases hn.symm.trans hn'
    obtain ⟨situation', config', hop, hload', rfl⟩ := hB.reload_eq hin
    refine ⟨loaded_distinctIds hload', hkeeps.2 situation' config' ?_ hload'⟩
    exact hop ▸ List.getElem_mem hlt

theorem FiresInLife.take {booted : Daemon} {life : List DaemonOp} {n k : ℕ} {rule : Rule}
    {event : Event} (h : FiresInLife env booted life n rule event) (hk : n < k) :
    FiresInLife env booted (life.take k) n rule event := by
  obtain ⟨daemon, op, host, engine, hv, hrest⟩ := h
  exact ⟨daemon, op, host, engine, hv.take hk, hrest⟩

theorem FiresInLife.of_take {booted : Daemon} {life : List DaemonOp} {n k : ℕ} {rule : Rule}
    {event : Event} (h : FiresInLife env booted (life.take k) n rule event) :
    n < k ∧ FiresInLife env booted life n rule event := by
  obtain ⟨daemon, op, host, engine, hv, hrest⟩ := h
  have hlt := hv.lt_length
  rw [List.length_take] at hlt
  exact ⟨hlt.trans_le (Nat.min_le_left _ _), daemon, op, host, engine, hv.of_take, hrest⟩

/-- What an earlier firing of the life leaves to a later one. -/
theorem firesInLife_unlimited {situation : Situation} {booted : Daemon} {life : List DaemonOp}
    {rule : Rule} {i j : ℕ} {event event' : Event} (hboot : Booted env situation booted)
    (hlife : ∀ op ∈ life, op.isStart = false) (hkeeps : LifeKeeps rule situation life)
    (hi : FiresInLife env booted life i rule event)
    (hj : FiresInLife env booted life j rule event') (hij : i < j) :
    rule.oncePerBoot = false ∧
      ((∀ k event'', FiresInLife env booted life k rule event'' → k ≤ i ∨ j ≤ k) →
        rule.cooldown ≤ elapsed event'.timestamp event.timestamp) := by
  obtain ⟨daemon, op, host, engine, hv, _, _, _, hengine, hfires⟩ := hj
  have hkeeps' : LifeKeeps rule situation (life.take j) :=
    ⟨hkeeps.1, fun situation' config hmem => hkeeps.2 situation' config (List.mem_of_mem_take hmem)⟩
  obtain ⟨first, blocks, hblocks, hmarks⟩ := life_marksFirings hboot
    (fun op hop => hlife op (List.mem_of_mem_take hop)) hkeeps' hv.2 hengine
  have hearlier : FiresAt first blocks.flatten (offset blocks i) rule event :=
    (firesAt_blocks_iff hblocks hv.2).mpr ⟨i, rfl, hi.take hij⟩
  have hfree := (hfires.cases hmarks.distinct).1.unlimited
  rw [rateLimited, Bool.or_eq_false_iff] at hfree
  constructor
  · have hfired := hmarks.once _ event hearlier
    simpa [hfired] using hfree.1
  · intro hbetween
    have hlast : (engine.ruleRuntime rule.id).lastFired = some event.timestamp := by
      refine hmarks.latest _ event hearlier fun k other hk => ?_
      obtain ⟨n, rfl, hn⟩ := (firesAt_blocks_iff hblocks hv.2).mp hk
      obtain ⟨hlt, hn⟩ := hn.of_take
      have hle : n ≤ i := (hbetween n other hn).resolve_right (Nat.not_le_of_lt hlt)
      exact offset_mono blocks hle
    simpa [hlast] using hfree.2

/-- Between one start and the next a once-per-boot rule fires at most once, and
consecutive firings of a rule are its cooldown apart. -/
theorem rate_limits_per_life (env : Environment) (situation : Situation) (booted : Daemon)
    (life : List DaemonOp) (rule : Rule) (hboot : Booted env situation booted)
    (hlife : ∀ op ∈ life, op.isStart = false) (hkeeps : LifeKeeps rule situation life) :
    (rule.oncePerBoot = true → ∀ i j event event', FiresInLife env booted life i rule event →
      FiresInLife env booted life j rule event' → i = j) ∧
    (0 < rule.cooldown → ∀ i j event event', FiresInLife env booted life i rule event →
      FiresInLife env booted life j rule event' → i < j →
      (∀ k event'', FiresInLife env booted life k rule event'' → k ≤ i ∨ j ≤ k) →
      event.timestamp + rule.cooldown ≤ event'.timestamp) := by
  constructor
  · intro honce i j event event' hi hj
    have hlt : ∀ i j event event', FiresInLife env booted life i rule event →
        FiresInLife env booted life j rule event' → ¬ i < j := by
      intro i j event event' hi hj hij
      have hnot := (firesInLife_unlimited hboot hlife hkeeps hi hj hij).1
      rw [honce] at hnot
      cases hnot
    have hij := hlt i j event event' hi hj
    have hji := hlt j i event' event hj hi
    omega
  · intro hcool i j event event' hi hj hij hbetween
    have helapsed := (firesInLife_unlimited hboot hlife hkeeps hi hj hij).2 hbetween
    exact (le_elapsed_iff hcool).mp helapsed

/-! ## A life with a reload -/

/-- A test for a firing of the rule with this id. -/
def PolicyEngine.testFires (engine : PolicyEngine) (host : Host) (event : Event) (id : String) :
    Bool :=
  !engine.recoveryMode && (engine.outcomes host event).any (fun result =>
    result.2.any (fun entry => entry.1.id == id && entry.2 == .fired))

theorem PolicyEngine.fires_of_test {engine : PolicyEngine} {host : Host} {event : Event}
    {rule : Rule} (hd : DistinctIds engine.rules) (hr : rule ∈ engine.rules)
    (h : engine.testFires host event rule.id = true) : engine.Fires host event rule := by
  rw [testFires, Bool.and_eq_true, Bool.not_eq_true', Option.any_eq_true] at h
  obtain ⟨hrec, ⟨runtime, outcomes⟩, hout, hany⟩ := h
  obtain ⟨⟨other, outcome⟩, hmem, hentry⟩ := List.any_eq_true.mp hany
  rw [Bool.and_eq_true, beq_iff_eq, beq_iff_eq] at hentry
  obtain ⟨hid, rfl⟩ := hentry
  have hother : other ∈ engine.rules := by
    rw [← evalRules_map_fst hout]
    exact List.mem_map_of_mem hmem
  obtain rfl : other = rule := List.inj_on_of_nodup_map hd hother hr hid
  exact ⟨hrec, runtime, outcomes, hout, hmem⟩

/-- A reload between two firings. -/
def cooledLife : List DaemonOp :=
  [.event bareHost (eventAt .tick 0),
    .control (sampleSituation (liveConfig homeModes [cooledRule])) .reload,
    .event bareHost (eventAt .tick 5)]

def cooledStart : DaemonOp := .start (sampleSituation (liveConfig homeModes [cooledRule])) 0 false

theorem rate_limits_per_life_cooled : ∃ booted,
    Booted (sampleEnv []) (sampleSituation (liveConfig homeModes [cooledRule])) booted ∧
      FiresInLife (sampleEnv []) booted cooledLife 0 cooledRule (eventAt .tick 0) ∧
      FiresInLife (sampleEnv []) booted cooledLife 2 cooledRule (eventAt .tick 5) ∧
      (eventAt .tick 0).timestamp + cooledRule.cooldown ≤ (eventAt .tick 5).timestamp := by
  have hloads : ∀ config,
      loadConfig (sampleSituation (liveConfig homeModes [cooledRule])) = .ok config →
        cooledRule ∈ config.rules := by
    intro config hload
    have hvalid : validateConfig bareHost.parseTime (liveConfig homeModes [cooledRule]) = .ok () :=
      rfl
    have hconfig : config = liveConfig homeModes [cooledRule] := by
      simpa only [loadConfig, sampleSituation, hvalid, Except.ok.injEq, eq_comm] using hload
    rw [hconfig]
    exact List.mem_singleton.mpr rfl
  have hkeeps : ∀ n, LifeKeeps cooledRule
      (sampleSituation (liveConfig homeModes [cooledRule])) (cooledLife.take n) := by
    refine fun n => ⟨hloads, fun situation config hmem => ?_⟩
    have hreload := List.mem_of_mem_take hmem
    simp only [cooledLife, List.mem_cons, reduceCtorEq, List.not_mem_nil, or_false, false_or,
      DaemonOp.control.injEq, and_true] at hreload
    rw [hreload]
    exact hloads config
  have hlife : ∀ op ∈ cooledLife, op.isStart = false := by simp [cooledLife, DaemonOp.isStart]
  obtain ⟨booted, hbooted, hup⟩ : ∃ booted, run (Daemon.step (sampleEnv []))
      (Daemon.down emptyStore) [cooledStart] = some booted ∧ booted.runtime.isSome := by
    have hstart : (run (Daemon.step (sampleEnv [])) (Daemon.down emptyStore) [cooledStart]).any
        (fun daemon => daemon.runtime.isSome) = true := by decide +kernel
    rwa [Option.any_eq_true] at hstart
  have hboot : Booted (sampleEnv []) (sampleSituation (liveConfig homeModes [cooledRule])) booted :=
    ⟨emptyStore, [], 0, false, hup, hbooted⟩
  have hfires : ∀ n op event, cooledLife[n]? = some op → op.processed = some event →
      op.host = some bareHost →
      ((run (Daemon.step (sampleEnv [])) (Daemon.down emptyStore)
        (cooledStart :: cooledLife.take n)).any fun daemon => daemon.records (sampleEnv []) event &&
          daemon.engine.any fun engine => engine.testFires bareHost event cooledRule.id) = true →
      FiresInLife (sampleEnv []) booted cooledLife n cooledRule event := by
    intro n op event hop hevent hhost htest
    rw [← List.singleton_append, run_append, hbooted] at htest
    rw [Option.any_eq_true] at htest
    obtain ⟨daemon, hrun, htest⟩ := htest
    rw [Bool.and_eq_true, Option.any_eq_true] at htest
    obtain ⟨hrecorded, engine, hengine, htest⟩ := htest
    obtain ⟨_, _, _, hmarks⟩ := life_marksFirings hboot
      (fun op hop => hlife op (List.mem_of_mem_take hop)) (hkeeps n) hrun hengine
    exact ⟨daemon, op, bareHost, engine, ⟨hop, hrun⟩, hevent, hhost, hrecorded, hengine,
      PolicyEngine.fires_of_test hmarks.distinct hmarks.mem htest⟩
  have hfirst := hfires 0 _ _ rfl rfl rfl (by decide +kernel)
  have hlast := hfires 2 _ _ rfl rfl rfl (by decide +kernel)
  refine ⟨booted, hboot, hfirst, hlast, ?_⟩
  refine (rate_limits_per_life _ _ booted cooledLife cooledRule hboot hlife (hkeeps 3)).2
    (by decide) 0 2 _ _ hfirst hlast (by decide) fun k event hk => ?_
  by_cases hzero : k = 0
  · exact Or.inl hzero.le
  · by_cases hone : k = 1
    · -- the reload handles no event
      subst hone
      obtain ⟨_, _, _, _, ⟨hop, _⟩, hevent, _⟩ := hk
      cases hop
      cases hevent
    · omega

end Kovert
