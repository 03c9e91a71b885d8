import Kovert.RuntimeStep

/-!
# Requests that end in an error

`reload`, `set_mode` and `recovery` change the runtime in memory and then write
to the store. The writes may be refused after the change has been made, and
nothing is taken back. Each of the two atomicity properties is proved to hold
exactly when that does not happen, or when there was nothing to change.
-/

namespace Kovert

open Fallible Session

variable {env : Environment} {situation : Situation} {session : Session}

/-- Whether a store call succeeds depends on the store and the number of calls so far. -/
theorem Journal.storeCall_fst_congr {α : Type}
    {body : String → DaemonStore → Except String (α × DaemonStore)} {marks : List Mark}
    {journal other : Journal} (hcalls : other.calls = journal.calls)
    (hstore : other.store = journal.store) :
    (storeCall env body marks other).1 = (storeCall env body marks journal).1 := by
  unfold storeCall
  rw [hcalls, hstore]
  cases env.answer journal.calls with
  | crashes => rfl
  | fails message => rfl
  | succeeds clock => cases hbody : body clock journal.store <;> simp only [hbody]

theorem Journal.storeCall_aborted {α : Type}
    {body : String → DaemonStore → Except String (α × DaemonStore)} {marks : List Mark}
    (journal : Journal) : (storeCall env body marks journal).2.aborted = journal.aborted := by
  have hkeeps : Keeps (fun other => other.aborted = journal.aborted)
      (storeCall env body marks) :=
    keeps_storeCall (fun _ h => h) (fun _ h => h) (fun _ _ _ _ h _ => h)
  exact hkeeps.apply rfl

/-! ## Reload -/

/-- An error leaves the rules, their records, the executor, the configuration and
the sensor handles as they were, and no provider is aborted. -/
def ReloadAtomic (env : Environment) (situation : Situation) (session : Session) : Prop :=
  ∀ message, (reload env situation session).1 = .error (.failed message) →
    (reload env situation session).2.runtime = session.runtime ∧
      (reload env situation session).2.aborted = session.aborted

/-- The new configuration is accepted, its sensors start, and only the audit
record of the reload is refused. -/
def LateFailure (env : Environment) (situation : Situation) (session : Session) : Prop :=
  ∃ config handles journal message, loadConfig situation = .ok config ∧
    Journal.startSensors situation "restart sensors" config session.toJournal =
      (.ok handles, journal) ∧
    (Journal.append env none "configuration_reloaded" none
      (env.serde.object [("rules", .number config.rules.length)]) session.toJournal).1 =
      .error (.failed message)

/-- The poller is always among the providers. -/
theorem startSensors_ne_nil {context : String} {config : Config} {journal after : Journal}
    {handles : List ℕ}
    (h : Journal.startSensors situation context config journal = (.ok handles, after)) :
    handles ≠ [] := by
  have hwp : wp (Journal.startSensors situation context config) (fun handles _ => handles ≠ [])
      (fun _ _ => True) journal := by
    unfold Journal.startSensors
    refine wp_seq (fun _ _ => True) (wp_true _ _) fun watcher t _ => ?_
    refine wp_seq (fun _ _ => True) (wp_true _ _) fun hotkeys t _ => ?_
    refine wp_seq (fun _ _ => True) (wp_true _ _) fun poller t _ => ?_
    exact List.append_ne_nil_of_right_ne_nil _ (List.cons_ne_nil poller [])
  exact wp_of_ok (Q := fun handles _ => handles ≠ []) hwp h

/-- The store, the number of calls and the aborted providers stay. -/
theorem startSensors_frame (situation : Situation) (context : String) (config : Config)
    (journal : Journal) :
    (Journal.startSensors situation context config journal).2.store = journal.store ∧
      (Journal.startSensors situation context config journal).2.calls = journal.calls ∧
      (Journal.startSensors situation context config journal).2.aborted = journal.aborted := by
  have hkeeps := Journal.keeps_startSensors (I := fun other : Journal =>
    other.store = journal.store ∧ other.calls = journal.calls ∧ other.aborted = journal.aborted)
    situation context config fun _ _ h => h
  exact hkeeps.apply ⟨rfl, rfl, rfl⟩

theorem reload_load_error {stop : Stop} (h : loadConfig situation = .error stop) :
    reload env situation session = (.error stop, session) := by
  unfold reload
  rw [h]
  rfl

theorem reload_sensors_error {config : Config} {stop : Stop} {journal : Journal}
    (hload : loadConfig situation = .ok config)
    (hsensors : Journal.startSensors situation "restart sensors" config session.toJournal =
      (.error stop, journal)) :
    reload env situation session = (.error stop, { session with toJournal := journal }) := by
  have hstart : onJournal (Journal.startSensors situation "restart sensors" config) session =
      (.error stop, { session with toJournal := journal }) := by
    simp only [onJournal, zoom, hsensors]
  unfold reload
  rw [hload]
  change (onJournal (Journal.startSensors situation "restart sensors" config) >>= _) session = _
  exact bind_error hstart

theorem reload_switched {config : Config} {handles : List ℕ} {journal : Journal}
    (hload : loadConfig situation = .ok config)
    (hsensors : Journal.startSensors situation "restart sensors" config session.toJournal =
      (.ok handles, journal)) :
    reload env situation session = Session.append env none "configuration_reloaded" none
      (env.serde.object [("rules", .number config.rules.length)])
      (switchConfig config handles { session with toJournal := journal }) := by
  have hstart : onJournal (Journal.startSensors situation "restart sensors" config) session =
      (.ok handles, { session with toJournal := journal }) := by
    simp only [onJournal, zoom, hsensors]
  have hlength : (sortRules config.rules).length = config.rules.length :=
    (sortRules_perm config.rules).length_eq
  unfold reload
  rw [hload, ← hlength]
  exact bind_ok hstart

/-- The three ways through `reload`: the file is rejected, a sensor does not
start, or the switch is made and the append decides. -/
theorem reload_cases (env : Environment) (situation : Situation) (session : Session) :
    (∃ stop, loadConfig situation = .error stop ∧
      reload env situation session = (.error stop, session)) ∨
    (∃ config stop journal, loadConfig situation = .ok config ∧
      Journal.startSensors situation "restart sensors" config session.toJournal =
        (.error stop, journal) ∧
      reload env situation session = (.error stop, { session with toJournal := journal })) ∨
    (∃ config handles journal, loadConfig situation = .ok config ∧
      Journal.startSensors situation "restart sensors" config session.toJournal =
        (.ok handles, journal) ∧
      reload env situation session = Session.append env none "configuration_reloaded" none
        (env.serde.object [("rules", .number config.rules.length)])
        (switchConfig config handles { session with toJournal := journal })) := by
  cases hload : loadConfig situation with
  | error stop => exact Or.inl ⟨stop, rfl, reload_load_error hload⟩
  | ok config =>
      cases hsensors : Journal.startSensors situation "restart sensors" config
          session.toJournal with
      | mk result journal =>
          cases result with
          | error stop =>
              exact Or.inr (Or.inl ⟨config, stop, journal, rfl, hsensors,
                reload_sensors_error hload hsensors⟩)
          | ok handles =>
              exact Or.inr (Or.inr ⟨config, handles, journal, rfl, hsensors,
                reload_switched hload hsensors⟩)

/-- Reload is atomic unless the record of the finished switch is refused. -/
theorem reload_atomic_iff (env : Environment) (situation : Situation) (session : Session) :
    ReloadAtomic env situation session ↔ ¬ LateFailure env situation session := by
  unfold ReloadAtomic LateFailure
  rcases reload_cases env situation session with ⟨stop, hload, hreload⟩ |
    ⟨config, stop, journal, hload, hsensors, hreload⟩ |
    ⟨config, handles, journal, hload, hsensors, hreload⟩
  · rw [hload, hreload]
    refine iff_of_true (fun _ _ => ⟨rfl, rfl⟩) ?_
    rintro ⟨config, handles, journal, message, hother, _⟩
    cases hother
  · have haborted := (startSensors_frame situation "restart sensors" config session.toJournal).2.2
    rw [hsensors] at haborted
    rw [hload, hreload]
    refine iff_of_true (fun _ _ => ⟨rfl, haborted⟩) ?_
    rintro ⟨other, handles, journal', message, hother, hstarted, _⟩
    cases hother
    rw [hsensors] at hstarted
    cases hstarted
  · obtain ⟨hstore, hcalls, haborted⟩ :=
      startSensors_frame situation "restart sensors" config session.toJournal
    rw [hsensors] at hstore hcalls haborted
    have hanswer : (reload env situation session).1 = (Journal.append env none
        "configuration_reloaded" none (env.serde.object
          [("rules", .number config.rules.length)]) session.toJournal).1 := by
      rw [hreload]
      exact Journal.storeCall_fst_congr hcalls hstore
    have hruntime : (reload env situation session).2.runtime.sensorHandles = handles := by
      rw [hreload]
      rfl
    have hstopped : (reload env situation session).2.aborted =
        session.aborted ++ session.runtime.sensorHandles := by
      rw [hreload, ← haborted]
      exact Journal.storeCall_aborted _
    constructor
    · rintro hatomic ⟨other, handles', journal', message, hother, _, hfails⟩
      cases hload.symm.trans hother
      obtain ⟨hkept, hnone⟩ := hatomic message (hanswer.trans hfails)
      -- the old providers have been aborted, so there were none, but now there are
      rw [hstopped] at hnone
      have hbefore : session.runtime.sensorHandles = [] :=
        List.append_right_eq_self.mp hnone
      rw [hkept, hbefore] at hruntime
      exact startSensors_ne_nil hsensors hruntime.symm
    · intro hnot message hfails
      exact absurd ⟨config, handles, journal, message, hload, hsensors, hanswer ▸ hfails⟩ hnot

def afterLateFailure : Except Stop Unit × Session :=
  reload (sampleEnv [(0, .fails "disk I/O error")])
    (sampleSituation (liveConfig [] [{ testRule (.manual "panic") with id := "new" }]))
    (freshSession (liveConfig [] [testRule (.manual "panic")]))

/-- The reload reports an error, and the new configuration is the active one. -/
theorem failed_reload_switches :
    afterLateFailure.1 = .error (.failed "disk I/O error") ∧
      afterLateFailure.2.runtime.engine.rules.map (·.id) = ["new"] ∧
      afterLateFailure.2.runtime.config.rules.map (·.id) = ["new"] ∧
      afterLateFailure.2.runtime.sensorHandles = [1] ∧ afterLateFailure.2.aborted = [0] ∧
      ¬ ReloadAtomic (sampleEnv [(0, .fails "disk I/O error")])
        (sampleSituation (liveConfig [] [{ testRule (.manual "panic") with id := "new" }]))
        (freshSession (liveConfig [] [testRule (.manual "panic")])) := by
  refine ⟨rfl, rfl, rfl, rfl, rfl, ?_⟩
  intro hatomic
  have haborted : afterLateFailure.2.aborted = [] := (hatomic "disk I/O error" rfl).2
  cases haborted

/-! ## Mode and recovery requests -/

/-- The two requests that switch a state of the engine and store it. -/
inductive Switch where
  | mode (name : String)
  | recovery (enabled : Bool)

namespace Switch

def request : Switch → Request
  | .mode name => .setMode name
  | .recovery enabled => .recovery enabled

/-- Only a known mode is accepted. -/
def accepted (config : Config) : Switch → Bool
  | .mode name => config.knowsMode name
  | .recovery _ => true

def apply : Switch → PolicyEngine → PolicyEngine
  | .mode name => fun engine => engine.setMode name
  | .recovery enabled => fun engine => engine.setRecoveryMode enabled

def key : Switch → String
  | .mode _ => "mode"
  | .recovery _ => "recovery_mode"

def value : Switch → String
  | .mode name => name
  | .recovery enabled => if enabled then "true" else "false"

def store (env : Environment) (switch : Switch) : Fallible Journal Stop Unit :=
  Journal.setState env switch.key switch.value

def record (env : Environment) : Switch → Fallible Journal Stop Unit
  | .mode name =>
      Journal.append env none "mode_changed" none (env.serde.object [("mode", .text name)])
  | .recovery enabled =>
      Journal.append env none "recovery_mode_changed" none
        (env.serde.object [("enabled", .flag enabled)])

end Switch

/-- The engine's mode, recovery flag and rule records, and their stored values. -/
structure SwitchStateKept (before after : Session) : Prop where
  mode : after.runtime.engine.snapshot.mode = before.runtime.engine.snapshot.mode
  recovery : after.runtime.engine.recoveryMode = before.runtime.engine.recoveryMode
  records : after.runtime.engine.runtime = before.runtime.engine.runtime
  storedMode : after.store.getState "mode" = before.store.getState "mode"
  storedRecovery : after.store.getState "recovery_mode" = before.store.getState "recovery_mode"

/-- An error response leaves the switched state as it was. -/
def ErrorChangesNothing (env : Environment) (situation : Situation) (session : Session)
    (switch : Switch) : Prop :=
  ∀ response after, handleControl env situation switch.request session = (.ok response, after) →
    response.ok = false → SwitchStateKept session after

/-- The first write is refused. -/
def StoreRefused (env : Environment) (session : Session) (switch : Switch) : Prop :=
  ∃ message, (switch.store env session.toJournal).1 = .error (.failed message)

/-- The first write is carried out and the audit record refused. -/
def RecordRefused (env : Environment) (session : Session) (switch : Switch) : Prop :=
  ∃ journal message, switch.store env session.toJournal = (.ok (), journal) ∧
    (switch.record env journal).1 = .error (.failed message)

namespace Switch

/-- The engine in memory, then the stored value, then the record. -/
def perform (env : Environment) (switch : Switch) : Activity Unit := do
  updateEngine switch.apply
  onJournal (switch.store env)
  onJournal (switch.record env)

/-- The session after the change in memory. -/
def switched (switch : Switch) (session : Session) : Session :=
  { session with
    runtime := { session.runtime with engine := switch.apply session.runtime.engine } }

theorem handleControl_rejected {switch : Switch}
    (h : switch.accepted session.runtime.config = false) :
    ∃ message, handleControl env situation switch.request session =
      (.ok (.error message), session) := by
  cases switch with
  | recovery enabled => cases h
  | mode name =>
      have hresult : handleControlResult env situation (.setMode name) session =
          (.error (.failed ("unknown security mode " ++ name)), session) := by
        have hset : Session.setMode env name session =
            (.error (.failed ("unknown security mode " ++ name)), session) := by
          change (if !session.runtime.config.knowsMode name then _ else _ : Activity Unit)
            session = _
          rw [show session.runtime.config.knowsMode name = false from h]
          rfl
        exact bind_error hset
      refine ⟨"unknown security mode " ++ name, ?_⟩
      simp only [handleControl, request, hresult]

theorem handleControlResult_accepted {switch : Switch}
    (h : switch.accepted session.runtime.config = true) :
    ∃ response, response.ok = true ∧ handleControlResult env situation switch.request session =
      (switch.perform env >>= fun _ => pure response) session := by
  cases switch with
  | recovery enabled => exact ⟨.success _ none, rfl, rfl⟩
  | mode name =>
      refine ⟨.success "security mode changed" none, rfl, ?_⟩
      have hset : Session.setMode env name session = (Switch.mode name).perform env session := by
        change (if !session.runtime.config.knowsMode name then _ else _ : Activity Unit)
          session = _
        rw [show session.runtime.config.knowsMode name = true from h]
        rfl
      change (Session.setMode env name >>= _) session = _
      change Fallible.bind _ _ session = Fallible.bind _ _ session
      unfold Fallible.bind
      rw [hset]

theorem perform_store_error {switch : Switch} {stop : Stop} {journal : Journal}
    (h : switch.store env session.toJournal = (.error stop, journal)) :
    switch.perform env session =
      (.error stop, { switch.switched session with toJournal := journal }) := by
  have hstore : onJournal (switch.store env) (switch.switched session) =
      (.error stop, { switch.switched session with toJournal := journal }) := by
    simp only [onJournal, zoom, switched, h]
  change (onJournal (switch.store env) >>= _) (switch.switched session) = _
  exact bind_error hstore

theorem perform_store_ok {switch : Switch} {journal : Journal}
    (h : switch.store env session.toJournal = (.ok (), journal)) :
    switch.perform env session = ((switch.record env journal).1,
      { switch.switched session with toJournal := (switch.record env journal).2 }) := by
  have hstore : onJournal (switch.store env) (switch.switched session) =
      (.ok (), { switch.switched session with toJournal := journal }) := by
    simp only [onJournal, zoom, switched, h]
  change (onJournal (switch.store env) >>= fun _ => onJournal (switch.record env))
    (switch.switched session) = _
  rw [bind_ok hstore]
  rfl

/-- An accepted request is answered with an error exactly when a write fails. -/
theorem handleControl_error_iff {switch : Switch} {after : Session}
    (h : switch.accepted session.runtime.config = true) :
    (∃ response, handleControl env situation switch.request session = (.ok response, after) ∧
        response.ok = false) ↔
      ∃ message, switch.perform env session = (.error (.failed message), after) := by
  obtain ⟨answer, hanswer, hresult⟩ :
      ∃ response, response.ok = true ∧ handleControlResult env situation switch.request session =
        (switch.perform env >>= fun _ => pure response) session := handleControlResult_accepted h
  cases hperform : switch.perform env session with
  | mk result next =>
      cases result with
      | ok _ =>
          rw [bind_ok hperform] at hresult
          constructor
          · rintro ⟨response, hresponse, hfalse⟩
            simp only [handleControl, hresult] at hresponse
            cases hresponse
            rw [hanswer] at hfalse
            cases hfalse
          · rintro ⟨message, hmessage⟩
            cases hmessage
      | error stop =>
          rw [bind_error hperform] at hresult
          cases stop with
          | crashed =>
              constructor
              · rintro ⟨response, hresponse, _⟩
                simp only [handleControl, hresult] at hresponse
                cases hresponse
              · rintro ⟨message, hmessage⟩
                cases hmessage
          | failed message =>
              constructor
              · rintro ⟨response, hresponse, _⟩
                simp only [handleControl, hresult] at hresponse
                cases hresponse
                exact ⟨message, rfl⟩
              · rintro ⟨message', hmessage⟩
                cases hmessage
                refine ⟨.error message, ?_, rfl⟩
                simp only [handleControl, hresult]

theorem apply_eq_self_iff (switch : Switch) (engine : PolicyEngine) :
    switch.apply engine = engine ↔
      (switch.apply engine).snapshot.mode = engine.snapshot.mode ∧
        (switch.apply engine).recoveryMode = engine.recoveryMode ∧
        (switch.apply engine).runtime = engine.runtime := by
  constructor
  · intro h
    rw [h]
    exact ⟨rfl, rfl, rfl⟩
  · rintro ⟨hmode, hrecovery, hrecords⟩
    cases switch with
    | mode name =>
        change name = engine.snapshot.mode at hmode
        subst hmode
        rfl
    | recovery enabled =>
        have hengine : engine.setRecoveryMode enabled =
            { engine with
              recoveryMode := (engine.setRecoveryMode enabled).recoveryMode
              runtime := (engine.setRecoveryMode enabled).runtime } := rfl
        change engine.setRecoveryMode enabled = engine
        rw [hengine, show (engine.setRecoveryMode enabled).recoveryMode = _ from hrecovery,
          show (engine.setRecoveryMode enabled).runtime = _ from hrecords]

end Switch

/-- A store call that stops leaves the store. -/
theorem Journal.storeCall_error_store {α : Type}
    {body : String → DaemonStore → Except String (α × DaemonStore)} {marks : List Mark}
    {journal after : Journal} {stop : Stop}
    (h : storeCall env body marks journal = (.error stop, after)) :
    after.store = journal.store := by
  have hwp : wp (storeCall env body marks) (fun _ _ => True)
      (fun _ other => other.store = journal.store) journal :=
    wp_storeCall rfl (fun _ => rfl) (fun _ _ _ _ _ => trivial)
  exact wp_of_error (E := fun _ other => other.store = journal.store) hwp h

theorem Journal.setState_store {key value : String} {journal after : Journal}
    (h : Journal.setState env key value journal = (.ok (), after)) :
    after.store = journal.store.setState key value := by
  have hwp : wp (Journal.setState env key value)
      (fun _ other => other.store = journal.store.setState key value) (fun _ _ => True)
      journal := by
    refine wp_storeCall trivial (fun _ => trivial) ?_
    intro clock result store _ hbody
    cases hbody
    rfl
  exact wp_of_ok (Q := fun _ other => other.store = journal.store.setState key value) hwp h

theorem Switch.record_error_store (switch : Switch) {journal : Journal} {stop : Stop}
    (h : (switch.record env journal).1 = .error stop) :
    (switch.record env journal).2.store = journal.store := by
  cases switch with
  | mode name => exact Journal.storeCall_error_store (Prod.ext h rfl)
  | recovery enabled => exact Journal.storeCall_error_store (Prod.ext h rfl)

/-- The switched state is kept when there was nothing to switch and the stored values are. -/
theorem switchStateKept_iff {switch : Switch} {journal : Journal} :
    SwitchStateKept session { switch.switched session with toJournal := journal } ↔
      switch.apply session.runtime.engine = session.runtime.engine ∧
        journal.store.getState "mode" = session.store.getState "mode" ∧
        journal.store.getState "recovery_mode" = session.store.getState "recovery_mode" := by
  rw [switch.apply_eq_self_iff]
  constructor
  · rintro ⟨hmode, hrecovery, hrecords, hstored, hstored'⟩
    exact ⟨⟨hmode, hrecovery, hrecords⟩, hstored, hstored'⟩
  · rintro ⟨⟨hmode, hrecovery, hrecords⟩, hstored, hstored'⟩
    exact ⟨hmode, hrecovery, hrecords, hstored, hstored'⟩

/-- The stored values after the switch's own write. -/
theorem Switch.stored_eq_iff (switch : Switch) (store : DaemonStore) :
    (store.setState switch.key switch.value).getState "mode" = store.getState "mode" ∧
        (store.setState switch.key switch.value).getState "recovery_mode" =
          store.getState "recovery_mode" ↔
      store.getState switch.key = some switch.value := by
  have hother : ∀ key, key ≠ switch.key →
      (store.setState switch.key switch.value).getState key = store.getState key :=
    fun key hne => Function.update_of_ne hne ..
  have hself : (store.setState switch.key switch.value).getState switch.key =
      some switch.value := Function.update_self ..
  cases switch with
  | mode name =>
      rw [hother "recovery_mode" (show "recovery_mode" ≠ "mode" by decide)]
      change (store.setState _ _).getState (Switch.mode name).key = _ ∧ _ ↔ _
      rw [hself]
      exact ⟨fun h => h.1.symm, fun h => ⟨h.symm, rfl⟩⟩
  | recovery enabled =>
      rw [hother "mode" (show "mode" ≠ "recovery_mode" by decide)]
      change _ ∧ (store.setState _ _).getState (Switch.recovery enabled).key = _ ↔ _
      rw [hself]
      exact ⟨fun h => h.2.symm, fun h => ⟨rfl, h.symm⟩⟩

/-- The writes of an accepted request fail only where nothing has been switched. -/
def FailureHarmless (env : Environment) (session : Session) (switch : Switch) : Prop :=
  ∀ message after, switch.perform env session = (.error (.failed message), after) →
    SwitchStateKept session after

theorem failureHarmless_of_store_error {switch : Switch} {stop : Stop} {journal : Journal}
    (hstore : switch.store env session.toJournal = (.error stop, journal)) :
    FailureHarmless env session switch ↔
      (StoreRefused env session switch →
        switch.apply session.runtime.engine = session.runtime.engine) := by
  have hkept : journal.store = session.store := Journal.storeCall_error_store
    (show Journal.setState env switch.key switch.value session.toJournal = _ from hstore)
  have hiff : SwitchStateKept session { switch.switched session with toJournal := journal } ↔ _ :=
    switchStateKept_iff
  rw [hkept] at hiff
  unfold FailureHarmless
  rw [Switch.perform_store_error hstore]
  constructor
  · rintro h ⟨message, hmessage⟩
    rw [hstore] at hmessage
    cases hmessage
    exact (hiff.mp (h message _ rfl)).1
  · intro h message after hafter
    cases hafter
    exact hiff.mpr ⟨h ⟨message, by rw [hstore]⟩, rfl, rfl⟩

theorem failureHarmless_of_store_ok {switch : Switch} {journal : Journal}
    (hstore : switch.store env session.toJournal = (.ok (), journal)) :
    FailureHarmless env session switch ↔
      (RecordRefused env session switch →
        switch.apply session.runtime.engine = session.runtime.engine ∧
          session.store.getState switch.key = some switch.value) := by
  have hwritten : journal.store = session.store.setState switch.key switch.value :=
    Journal.setState_store hstore
  unfold FailureHarmless
  rw [Switch.perform_store_ok hstore]
  constructor
  · rintro h ⟨journal', message, hother, hrefused⟩
    rw [hstore] at hother
    cases hother
    obtain ⟨hsame, hstored⟩ := switchStateKept_iff.mp (h message _ (Prod.ext hrefused rfl))
    rw [switch.record_error_store hrefused, hwritten] at hstored
    exact ⟨hsame, (switch.stored_eq_iff session.store).mp hstored⟩
  · intro h message after hafter
    have hrefused : (switch.record env journal).1 = .error (.failed message) :=
      congrArg Prod.fst hafter
    have hsession : { switch.switched session with
        toJournal := (switch.record env journal).2 } = after := congrArg Prod.snd hafter
    subst hsession
    obtain ⟨hsame, hvalue⟩ := h ⟨journal, message, hstore, hrefused⟩
    refine switchStateKept_iff.mpr ⟨hsame, ?_⟩
    rw [switch.record_error_store hrefused, hwritten]
    exact (switch.stored_eq_iff session.store).mpr hvalue

theorem errorChangesNothing_of_accepted {switch : Switch}
    (h : switch.accepted session.runtime.config = true) :
    ErrorChangesNothing env situation session switch ↔ FailureHarmless env session switch := by
  constructor
  · intro hkept message after hperform
    obtain ⟨response, hresponse, hfalse⟩ :=
      (Switch.handleControl_error_iff h).mpr ⟨message, hperform⟩
    exact hkept response after hresponse hfalse
  · intro hkept response after hresponse hfalse
    obtain ⟨message, hperform⟩ :=
      (Switch.handleControl_error_iff h).mp ⟨response, hresponse, hfalse⟩
    exact hkept message after hperform

/-- An error response to a mode or recovery request changes nothing exactly
when the request was rejected, or each write that is refused finds nothing
changed before it. -/
theorem error_changes_nothing_iff (env : Environment) (situation : Situation) (session : Session)
    (switch : Switch) :
    ErrorChangesNothing env situation session switch ↔
      (switch.accepted session.runtime.config = true →
        (StoreRefused env session switch →
          switch.apply session.runtime.engine = session.runtime.engine) ∧
        (RecordRefused env session switch →
          switch.apply session.runtime.engine = session.runtime.engine ∧
            session.store.getState switch.key = some switch.value)) := by
  cases haccepted : switch.accepted session.runtime.config with
  | false =>
      refine iff_of_true ?_ (fun h => absurd h Bool.false_ne_true)
      intro response after hresponse _
      obtain ⟨message, hanswer⟩ : ∃ message,
          handleControl env situation switch.request session = (.ok (.error message), session) :=
        Switch.handleControl_rejected haccepted
      rw [hanswer] at hresponse
      cases hresponse
      exact ⟨rfl, rfl, rfl, rfl, rfl⟩
  | true =>
      rw [errorChangesNothing_of_accepted haccepted, forall_prop_of_true rfl]
      cases hstore : switch.store env session.toJournal with
      | mk result journal =>
          cases result with
          | error stop =>
              rw [failureHarmless_of_store_error hstore, iff_self_and]
              rintro _ ⟨_, _, hother, _⟩
              rw [hstore] at hother
              cases hother
          | ok _ =>
              rw [failureHarmless_of_store_ok hstore, iff_and_self]
              rintro _ ⟨message, hother⟩
              rw [hstore] at hother
              cases hother

def afterModeRequest : Except Stop Response × Session :=
  handleControl (sampleEnv [(1, .fails "disk I/O error")]) (sampleSituation (liveConfig homeModes []))
    (.setMode "away") (freshSession (liveConfig homeModes []))

/-- The request is answered with an error, and the mode is switched and stored. -/
theorem failed_request_switches_mode :
    afterModeRequest.1.toOption.map (fun response => (response.ok, response.message)) =
        some (false, "disk I/O error") ∧
      (freshSession (liveConfig homeModes [])).runtime.engine.snapshot.mode = "home" ∧
      afterModeRequest.2.runtime.engine.snapshot.mode = "away" ∧
      afterModeRequest.2.store.getState "mode" = some "away" ∧
      ¬ ErrorChangesNothing (sampleEnv [(1, .fails "disk I/O error")])
        (sampleSituation (liveConfig homeModes [])) (freshSession (liveConfig homeModes []))
        (.mode "away") := by
  refine ⟨rfl, rfl, rfl, rfl, ?_⟩
  intro hkept
  have hmode := (hkept _ afterModeRequest.2 rfl rfl).mode
  exact absurd hmode (by decide)

end Kovert
