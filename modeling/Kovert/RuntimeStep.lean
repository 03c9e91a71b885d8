import Kovert.Runtime
import Kovert.Runs

/-!
# Rules for the runtime's programs

Proof rules in the weakest-precondition style for the store calls, the
sensors, a control request and a step of the daemon. An invariant is checked
against the pieces of `runtime.rs` one at a time and lifted from there.
-/

namespace Kovert

open Fallible

/-! ## Store calls -/

/-- The value behind a mapped result. -/
theorem exists_ok_of_map {α β : Type} {x : Except String α} {f : α → β} {b : β}
    (h : x.map f = .ok b) : ∃ a, x = .ok a ∧ f a = b := by
  cases x with
  | error message => cases h
  | ok a => exact ⟨a, rfl, Except.ok.inj h⟩

theorem DaemonStore.append_ledger {blake3 : List UInt8 → String} {store after : DaemonStore}
    {timestamp kind payload : String} {eventId ruleId : Option String}
    (h : store.append blake3 timestamp eventId kind ruleId payload = .ok after) :
    after.ledger = store.ledger := by
  unfold DaemonStore.append at h
  split at h
  · cases h
  · cases h
    rfl

namespace Journal

variable {α : Type} {env : Environment}

theorem wp_storeCall {body : String → DaemonStore → Except String (α × DaemonStore)}
    {marks : List Mark} {Q : α → Journal → Prop} {E : Stop → Journal → Prop} {journal : Journal}
    (hcrash : E .crashed ({ journal with calls := journal.calls + 1 }.mark [.crashed]))
    (hfail : ∀ message,
      E (.failed message) ({ journal with calls := journal.calls + 1 }.mark [.failed]))
    (hok : ∀ clock result store, env.answer journal.calls = .succeeds clock →
      body clock journal.store = .ok (result, store) →
      Q result ({ journal with calls := journal.calls + 1, store := store }.mark marks)) :
    wp (storeCall env body marks) Q E journal := by
  unfold wp storeCall
  cases hanswer : env.answer journal.calls with
  | crashes => exact hcrash
  | fails message => exact hfail message
  | succeeds clock =>
      cases hbody : body clock journal.store with
      | error message => simpa only [hbody] using hfail message
      | ok result =>
          obtain ⟨result, store⟩ := result
          simpa only [hbody] using hok clock result store hanswer hbody

/-- The invariant that a store call is kept by: its own marks on the store it
leaves, and the mark of a failure or a crash on the store as it was. -/
theorem keeps_storeCall {I : Journal → Prop}
    {body : String → DaemonStore → Except String (α × DaemonStore)} {marks : List Mark}
    (hcrash : ∀ journal, I journal →
      I ({ journal with calls := journal.calls + 1 }.mark [.crashed]))
    (hfail : ∀ journal, I journal →
      I ({ journal with calls := journal.calls + 1 }.mark [.failed]))
    (hok : ∀ journal clock result store, I journal → body clock journal.store = .ok (result, store) →
      I ({ journal with calls := journal.calls + 1, store := store }.mark marks)) :
    Keeps I (storeCall env body marks) := by
  intro journal hI
  refine wp_storeCall (hcrash journal hI) (fun _ => hfail journal hI) ?_
  intro clock result store _ hbody
  exact hok journal clock result store hI hbody

/-! ## Sensors -/

theorem keeps_spawnTask {I : Journal → Prop} (context : String) (result : Except String Unit)
    (hspawn : ∀ journal n, I journal → I { journal with spawned := n }) :
    Keeps I (spawnTask context result) := by
  intro journal hI
  cases result with
  | ok _ => exact hspawn journal _ hI
  | error _ => exact hI

theorem keeps_spawnHotkeys {I : Journal → Prop} (situation : Situation)
    (hotkeys : List HotkeyConfig)
    (hspawn : ∀ journal n, I journal → I { journal with spawned := n }) :
    Keeps I (spawnHotkeys situation hotkeys) := by
  induction hotkeys with
  | nil => exact Keeps.pure _
  | cons hotkey hotkeys ih =>
      unfold spawnHotkeys
      cases situation.hotkeySpawn hotkey with
      | error _ => exact ih
      | ok _ =>
          refine (keeps_spawnTask _ _ hspawn).bind fun handle => ?_
          exact ih.bind fun handles => Keeps.pure _

/-- Starting the sensors only spawns tasks. -/
theorem keeps_startSensors {I : Journal → Prop} (situation : Situation) (context : String)
    (config : Config) (hspawn : ∀ journal n, I journal → I { journal with spawned := n }) :
    Keeps I (startSensors situation context config) := by
  unfold startSensors
  refine Keeps.bind ?_ fun watcher => ?_
  · unfold spawnWatcher
    split
    · exact Keeps.pure _
    · exact (keeps_spawnTask _ _ hspawn).bind fun handle => Keeps.pure _
  · refine (keeps_spawnHotkeys situation config.hotkeys hspawn).bind fun hotkeys => ?_
    exact (keeps_spawnTask _ _ hspawn).bind fun poller => Keeps.pure _

end Journal

/-! ## Sessions -/

namespace Session

variable {α : Type} {env : Environment} {I : Session → Prop}

theorem wp_onJournal {x : Fallible Journal Stop α} {Q : α → Session → Prop}
    {E : Stop → Session → Prop} {session : Session} :
    wp (onJournal x) Q E session ↔
      wp x (fun a journal => Q a { session with toJournal := journal })
        (fun e journal => E e { session with toJournal := journal }) session.toJournal :=
  wp_zoom

theorem wp_append {eventId ruleId : Option String} {kind payload : String}
    {Q : Unit → Session → Prop} {E : Stop → Session → Prop} {session : Session} :
    wp (append env eventId kind ruleId payload) Q E session ↔
      wp (Journal.append env eventId kind ruleId payload)
        (fun a journal => Q a { session with toJournal := journal })
        (fun e journal => E e { session with toJournal := journal }) session.toJournal :=
  wp_onJournal

theorem keeps_onJournal {x : Fallible Journal Stop α} {J : Journal → Prop}
    (hI : ∀ session, I session ↔ J session.toJournal) (hx : Keeps J x) :
    Keeps I (onJournal x) := by
  intro session hs
  refine wp_onJournal.mpr (wp_mono (hx session.toJournal ((hI session).mp hs)) ?_ ?_)
  · intro a journal hj
    exact (hI _).mpr hj
  · intro e journal hj
    exact (hI _).mpr hj

/-- The fallible part of a request keeps what its arms keep. -/
theorem keeps_handleControlResult {situation : Situation}
    (hcall : ∀ {β : Type} (body : DaemonStore → Except String β), Keeps I (onJournal
      (Journal.storeCall env (fun _ store => (body store).map (fun b => (b, store))) [])))
    (hcrash : ∀ session, I session → I { session with trace := session.trace ++ [.crashed] })
    {request : Request} (hreload : request = .reload → Keeps I (reload env situation))
    (htrigger : ∀ name, request = .trigger name →
      Keeps I (processEvent env situation.host (manualEvent situation name)))
    (hmode : ∀ mode, request = .setMode mode → Keeps I (setMode env mode))
    (hrecovery : ∀ enabled, request = .recovery enabled → Keeps I (setRecovery env enabled)) :
    Keeps I (handleControlResult env situation request) := by
  cases request with
  | status => exact fun session hs => hs
  | rules => exact fun session hs => hs
  | audit limit =>
      exact (hcall (fun store => .ok (store.recent limit))).bind fun records => Keeps.pure _
  | reload => exact (hreload rfl).bind fun _ => Keeps.pure _
  | trigger name => exact (htrigger name rfl).bind fun count => Keeps.pure _
  | simulate event =>
      refine Keeps.bind ?_ fun plans => Keeps.pure _
      intro session hs
      unfold wp simulate
      cases session.runtime.engine.handle situation.host event with
      | none => exact hcrash session hs
      | some _ => exact hs
  | setMode mode => exact (hmode mode rfl).bind fun _ => Keeps.pure _
  | recovery enabled => exact (hrecovery enabled rfl).bind fun _ => Keeps.pure _
  | verifyAudit =>
      exact (hcall (fun store => store.database.verify env.blake3)).bind fun verified =>
        Keeps.pure _

/-- Turning an error into a response does not touch the state. -/
theorem handleControl_snd (situation : Situation) (request : Request) (session : Session) :
    (handleControl env situation request session).2 =
      (handleControlResult env situation request session).2 := by
  unfold handleControl
  cases handleControlResult env situation request session with
  | mk result after =>
      cases result with
      | ok response => rfl
      | error stop => cases stop <;> rfl

theorem keeps_handleControl {situation : Situation} {request : Request}
    (h : Keeps I (handleControlResult env situation request)) :
    Keeps I (handleControl env situation request) := by
  refine Keeps.of_apply fun session hs => ?_
  rw [handleControl_snd]
  exact h.apply hs

end Session

/-! ## Steps of the daemon -/

namespace Daemon

variable {α : Type} {env : Environment}

/-- An invariant of the journal goes through a step of the event loop. -/
theorem activate_journal {J : Journal → Prop} {x : Activity α} {daemon : Daemon}
    {runtime : Runtime} (hx : Keeps (fun session => J session.toJournal) x)
    (hd : J daemon.toJournal) : J (daemon.activate x runtime).toJournal := by
  have hafter := hx.apply (s := { daemon.toJournal with runtime := runtime }) hd
  unfold activate
  split
  · next heq =>
    rw [heq] at hafter
    exact hafter
  · next heq =>
    rw [heq] at hafter
    exact hafter

/-- An invariant of the session goes through it while the daemon stays up. -/
theorem activate_session {I : Session → Prop} {x : Activity α} {daemon : Daemon}
    {runtime next : Runtime} (hx : Keeps I x)
    (hd : I { daemon.toJournal with runtime := runtime })
    (hnext : (daemon.activate x runtime).runtime = some next) :
    I { (daemon.activate x runtime).toJournal with runtime := next } := by
  have hafter := hx.apply hd
  unfold activate at hnext ⊢
  split at hnext
  · cases hnext
  · next heq =>
    rw [heq] at hafter
    cases hnext
    exact hafter

theorem activate_runtime {x : Activity α} {daemon : Daemon} {runtime next : Runtime}
    (h : (daemon.activate x runtime).runtime = some next) :
    next = (x { daemon.toJournal with runtime := runtime }).2.runtime := by
  unfold activate at h
  split at h
  · cases h
  · next heq =>
    cases h
    rw [heq]

/-- A start either comes up with a runtime or leaves the process down. -/
theorem step_start {daemon after : Daemon} {situation : Situation} {maxRecords : ℕ}
    {verifyOnStart : Bool}
    (h : daemon.step env (.start situation maxRecords verifyOnStart) = some after) :
    (∃ runtime journal, boot env situation maxRecords verifyOnStart daemon.toJournal =
      (.ok runtime, journal) ∧ after = { journal with runtime := some runtime }) ∨
    (∃ stop journal, boot env situation maxRecords verifyOnStart daemon.toJournal =
      (.error stop, journal) ∧ after = { journal with runtime := none }) := by
  simp only [step] at h
  split at h
  · cases h
  · split at h
    · next runtime journal hboot => exact Or.inl ⟨runtime, journal, hboot, (Option.some.inj h).symm⟩
    · next stop journal hboot => exact Or.inr ⟨stop, journal, hboot, (Option.some.inj h).symm⟩

/-- A daemon that is down, over a store left by earlier runs. -/
def down (store : DaemonStore) : Daemon where
  store := store
  calls := 0
  executions := 0
  spawned := 0
  aborted := []
  trace := []
  runtime := none

end Daemon

/-! ## Fixtures -/

/-- A stand-in digest: a polynomial in the bytes of its input. -/
def sumDigest (bytes : List UInt8) : String :=
  toString (bytes.foldl (fun sum byte => (sum * 257 + byte.toNat) % 2 ^ 64) 0)

/-- The texts of the actions that the runs below execute. -/
def sampleSerde : Serde where
  event := fun event => .ok ("\x7b\"source\":\"" ++ event.source ++ "\"\x7d")
  action := fun _ => "\x7b\x7d"
  actionBytes := fun action =>
    match action with
    | .notify title message _ => utf8 ("notify/" ++ title ++ "/" ++ message)
    | .setMode mode => utf8 ("set_mode/" ++ mode)
    | _ => []
  outcome := fun outcome => outcome.message
  object := fun fields => String.join (fields.map Prod.fst)

/-- A host without system utilities. -/
def noTools : Tools where
  isFile := fun _ => false
  spawn := fun _ _ _ _ _ => .error "spawn process"
  readBytes := fun _ _ _ => .error "spawn process"
  terminateNamedProcesses := fun _ _ => .ok 0
  writeMetadata := fun _ _ _ => .error "create evidence"
  verifyExecutableSecurity := fun _ => .error "inspect executable"
  verifySha256 := fun _ _ => .error "executable digest mismatch"
  debug := fun _ => "action"
  elapsedMs := 0

/-- A store that carries out every call but those listed. -/
def sampleEnv (answers : List (ℕ × Answer)) : Environment where
  blake3 := sumDigest
  serde := sampleSerde
  answer := fun n => (answers.lookup n).getD (.succeeds "2026-01-01T00:00:00+00:00")
  tools := fun _ => noTools

def sampleSituation (config : Config) : Situation where
  host := bareHost
  readConfig := .ok config
  filesystemSpawn := .ok ()
  hotkeySpawn := fun _ => .ok ()
  pollingSpawn := .ok ()
  eventId := 7
  now := 0

/-- A configuration that executes its actions. -/
def liveConfig (modes : List ModeConfig) (rules : List Rule) : Config :=
  { testConfig rules with daemon := { testDaemon with dryRun := false }, modes := modes }

def homeModes : List ModeConfig := [⟨"home", true⟩, ⟨"away", false⟩]

def emptyStore : DaemonStore where
  database := .empty
  maxRecords := 0
  ledger := fun _ => none

/-- A daemon that has just started with this configuration. -/
def freshSession (config : Config) : Session where
  toJournal := { (Daemon.down emptyStore).toJournal with spawned := 1 }
  runtime :=
    { config := config
      engine := .new config.rules config.configuredMode 0
      executor := executorFor config
      sensorHandles := [0] }

def panicEvent : Event := eventAt (.manual "panic") 1

end Kovert
