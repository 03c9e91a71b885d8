import Kovert.RuntimeStep

/-!
# Invariants about the security mode

The mode is written at start-up, by a control request, by the effect of an
action, and implicitly when a reload changes the list of modes it is taken
from. `ModeInvariant` says what an invariant about the mode and its stored copy
owes to each of these places; the rest of the runtime keeps it.
-/

namespace Kovert

open Fallible Session

/-! ## What may name a mode -/

theorem Config.knowsMode_iff {config : Config} {mode : String} :
    config.knowsMode mode = true ↔ ∃ item ∈ config.modes, item.name = mode := by
  simp [Config.knowsMode]

/-- A validated rule switches only to modes of its configuration. -/
theorem knowsMode_of_validated {parseTime : String → Option ℕ} {config : Config}
    (hvalid : validateConfig parseTime config = .ok ()) {rule : Rule} (hrule : rule ∈ config.rules)
    {mode : String} (haction : .setMode mode ∈ rule.actions) : config.knowsMode mode = true := by
  have hmode := (validateConfig_rule hvalid hrule).2 _ haction
  rw [validateAction, report_eq_nil] at hmode
  rw [Config.knowsMode_iff]
  simpa using hmode

/-- A plan is an action of an active rule, or the alert of a failed sensor. -/
theorem handle_plan_cases {engine engine' : PolicyEngine} {host : Host} {event : Event}
    {plans : List ActionPlan} (h : engine.handle host event = some (engine', plans))
    {plan : ActionPlan} (hplan : plan ∈ plans) :
    (∃ rule ∈ engine.rules, plan.action ∈ rule.actions) ∨
      ∃ title message urgency, plan.action = .notify title message urgency := by
  cases hrec : engine.recoveryMode with
  | true =>
      rw [PolicyEngine.handle_recovery hrec] at h
      cases h
      cases hplan
  | false =>
      obtain ⟨outcomes, houtcomes, rfl⟩ := PolicyEngine.handle_active hrec h
      have hcandidate : plan ∈ candidates event outcomes := by
        have hsorted := (FirstWins.firstWins_sublist _ _).mem hplan
        exact (List.mem_insertionSort _).mp hsorted
      obtain ⟨⟨rule, outcome⟩, hmem, hfrom⟩ := List.mem_flatMap.mp hcandidate
      have hrule : rule ∈ engine.rules := by
        rw [← evalRules_map_fst houtcomes]
        exact List.mem_map.mpr ⟨_, hmem, rfl⟩
      cases outcome with
      | skipped => cases hfrom
      | alerted sensor message =>
          rw [List.mem_singleton.mp hfrom]
          exact Or.inr ⟨_, _, _, rfl⟩
      | failedClosed =>
          obtain ⟨action, haction, rfl⟩ := List.mem_map.mp hfrom
          exact Or.inl ⟨rule, hrule, List.mem_of_mem_filter haction⟩
      | fired =>
          obtain ⟨action, haction, rfl⟩ := List.mem_map.mp hfrom
          exact Or.inl ⟨rule, hrule, haction⟩

theorem handle_setMode_plan {engine engine' : PolicyEngine} {host : Host} {event : Event}
    {plans : List ActionPlan} (h : engine.handle host event = some (engine', plans))
    {plan : ActionPlan} (hplan : plan ∈ plans) {mode : String}
    (haction : plan.action = .setMode mode) :
    ∃ rule ∈ engine.rules, .setMode mode ∈ rule.actions := by
  rcases handle_plan_cases h hplan with hrule | ⟨title, message, urgency, halert⟩
  · rwa [haction] at hrule
  · rw [haction] at halert
    cases halert

/-- The two parts of a computation that returns. -/
theorem exists_ok_of_bind {α β : Type} {x : Except String α} {f : α → Except String β} {b : β}
    (h : (x >>= f) = .ok b) : ∃ a, x = .ok a ∧ f a = .ok b := by
  cases x with
  | error message => cases h
  | ok a => exact ⟨a, rfl, h⟩

theorem utility_effect {context : ExecutionContext} {tools : Tools} {name message : String}
    {args : List String} {outcome : ActionOutcome}
    (h : context.utility tools name args message = .ok outcome) : outcome.effect = .none := by
  obtain ⟨executable, _, h⟩ := exists_ok_of_bind h
  obtain ⟨result, _, h⟩ := exists_ok_of_bind h
  cases h
  rfl

theorem guarded_utility_effect {context : ExecutionContext} {tools : Tools}
    {check : Except String Unit} {name message : String} {args : List String}
    {outcome : ActionOutcome}
    (h : (check >>= fun _ => context.utility tools name args message) = .ok outcome) :
    outcome.effect = .none := by
  obtain ⟨_, _, h⟩ := exists_ok_of_bind h
  exact utility_effect h

theorem reportIsolation_effect {enabled : Bool} {outcome : ActionOutcome}
    (h : outcome.effect = .none) :
    (ExecutionContext.reportIsolation enabled outcome).effect =
      if outcome.success then .networkIsolation enabled else .none := by
  unfold ExecutionContext.reportIsolation
  split
  · rfl
  · exact h

/-- Only a mode action has the effect of switching the mode. -/
theorem execute_setMode_effect {context : ExecutionContext} {tools : Tools} {action : ActionSpec}
    {event : Event} {outcome : ActionOutcome} {mode : String}
    (h : context.execute tools action event = .ok outcome)
    (heffect : outcome.effect = .setMode mode) :
    action = .setMode mode := by
  unfold ExecutionContext.execute at h
  split at h
  · cases h
    cases heffect
  · cases action with
    | setMode other =>
        cases h
        cases heffect
        rfl
    | lockVault name =>
        obtain ⟨vault, _, h⟩ := exists_ok_of_bind h
        obtain ⟨result, _, h⟩ := exists_ok_of_bind h
        cases h
        cases heffect
    | unlockVault name =>
        obtain ⟨vault, _, h⟩ := exists_ok_of_bind h
        obtain ⟨result, _, h⟩ := exists_ok_of_bind h
        cases h
        cases heffect
    | unmount path =>
        rw [guarded_utility_effect h] at heffect
        cases heffect
    | networkIsolation enabled =>
        obtain ⟨report, hreport, h⟩ := exists_ok_of_bind h
        cases h
        rw [reportIsolation_effect (utility_effect hreport)] at heffect
        split at heffect <;> cases heffect
    | interfaceState interface up =>
        rw [guarded_utility_effect h] at heffect
        cases heffect
    | service name state =>
        rw [guarded_utility_effect h] at heffect
        cases heffect
    | terminateProcess process signal =>
        obtain ⟨_, _, h⟩ := exists_ok_of_bind h
        obtain ⟨count, _, h⟩ := exists_ok_of_bind h
        cases h
        cases heffect
    | notify title message urgency =>
        simp only at h
        split at h
        · cases h
          cases heffect
        · rw [utility_effect h] at heffect
          cases heffect
    | captureEvidence paths destination =>
        obtain ⟨output, _, h⟩ := exists_ok_of_bind h
        cases h
        cases heffect
    | exec executable args expectedSha256 environment =>
        obtain ⟨_, _, h⟩ := exists_ok_of_bind h
        obtain ⟨_, _, h⟩ := exists_ok_of_bind h
        cases expectedSha256 with
        | none =>
            obtain ⟨result, _, h⟩ := exists_ok_of_bind h
            cases h
            cases heffect
        | some digest =>
            obtain ⟨_, _, h⟩ := exists_ok_of_bind h
            obtain ⟨result, _, h⟩ := exists_ok_of_bind h
            cases h
            cases heffect

/-! ## The stored mode -/

/-- The stored mode and recovery flag are the same, and the trace has grown. -/
structure SameStored (before after : Journal) : Prop where
  mode : after.store.getState "mode" = before.store.getState "mode"
  recovery : after.store.getState "recovery_mode" = before.store.getState "recovery_mode"
  trace : before.trace <+: after.trace

theorem SameStored.refl (journal : Journal) : SameStored journal journal :=
  ⟨rfl, rfl, List.prefix_refl _⟩

theorem SameStored.trans {first second third : Journal} (h : SameStored first second)
    (h' : SameStored second third) : SameStored first third :=
  ⟨h'.mode.trans h.mode, h'.recovery.trans h.recovery, h.trace.trans h'.trace⟩

/-- A program on the journal that touches neither of the two. -/
def LeavesStored {α : Type} (x : Fallible Journal Stop α) : Prop :=
  ∀ start, Keeps (SameStored start) x

theorem DaemonStore.append_getState {blake3 : List UInt8 → String} {store after : DaemonStore}
    {timestamp kind payload : String} {eventId ruleId : Option String}
    (h : store.append blake3 timestamp eventId kind ruleId payload = .ok after) {key : String}
    (hkey : key ≠ "audit_anchor") : after.getState key = store.getState key := by
  unfold DaemonStore.append at h
  split at h
  · cases h
  · next audit row happend =>
    cases h
    exact AuditStore.append_state happend hkey

section Leaves

variable {α : Type} {env : Environment}

theorem leavesStored_storeCall
    {body : String → DaemonStore → Except String (α × DaemonStore)} {marks : List Mark}
    (hbody : ∀ clock store result after, body clock store = .ok (result, after) →
      after.getState "mode" = store.getState "mode" ∧
        after.getState "recovery_mode" = store.getState "recovery_mode") :
    LeavesStored (Journal.storeCall env body marks) := by
  intro start
  refine Journal.keeps_storeCall ?_ ?_ ?_
  · intro journal h
    exact h.trans ⟨rfl, rfl, List.prefix_append _ _⟩
  · intro journal h
    exact h.trans ⟨rfl, rfl, List.prefix_append _ _⟩
  · intro journal clock result store h hstore
    obtain ⟨hmode, hrecovery⟩ := hbody clock journal.store result store hstore
    exact h.trans ⟨hmode, hrecovery, List.prefix_append _ _⟩

theorem leavesStored_query (body : DaemonStore → Except String α) :
    LeavesStored (Journal.storeCall env
      (fun _ store => (body store).map (fun value => (value, store))) []) := by
  apply leavesStored_storeCall
  intro clock store result after hafter
  obtain ⟨value, _, heq⟩ := exists_ok_of_map hafter
  cases heq
  exact ⟨rfl, rfl⟩

theorem leavesStored_append (eventId ruleId : Option String) (kind payload : String) :
    LeavesStored (Journal.append env eventId kind ruleId payload) := by
  apply leavesStored_storeCall
  intro clock store result after hafter
  obtain ⟨next, happend, heq⟩ := exists_ok_of_map hafter
  cases heq
  exact ⟨DaemonStore.append_getState happend (by decide),
    DaemonStore.append_getState happend (by decide)⟩

theorem leavesStored_recordAction (key : LedgerKey) (status : ActionStatus)
    (outcome : Option String) : LeavesStored (Journal.recordAction env key status outcome) := by
  apply leavesStored_storeCall
  intro clock store result after hafter
  cases hafter
  exact ⟨rfl, rfl⟩

theorem leavesStored_setState {key value : String} (hmode : key ≠ "mode")
    (hrecovery : key ≠ "recovery_mode") : LeavesStored (Journal.setState env key value) := by
  apply leavesStored_storeCall
  intro clock store result after hafter
  cases hafter
  exact ⟨Function.update_of_ne hmode.symm .., Function.update_of_ne hrecovery.symm ..⟩

end Leaves

/-! ## The rules -/

/-- Put an engine into the session. -/
def Session.withEngine (session : Session) (engine : PolicyEngine) : Session :=
  { session with runtime := { session.runtime with engine := engine } }

/-- An invariant of the sessions that run with this configuration, as the
writers of the mode and the recovery flag meet it. -/
structure ModeInvariant (env : Environment) (config : Config) (I : Session → Prop) : Prop where
  framed : ∀ before after, I before → SameStored before.toJournal after.toJournal →
    after.runtime = before.runtime → I after
  config_eq : ∀ session, I session → session.runtime.config = config
  rules_eq : ∀ session, I session → session.runtime.engine.rules = sortRules config.rules
  handled : ∀ session engine, I session → engine.rules = session.runtime.engine.rules →
    engine.recoveryMode = session.runtime.engine.recoveryMode →
    engine.snapshot.mode = session.runtime.engine.snapshot.mode → I (session.withEngine engine)
  mode : ∀ mode, config.knowsMode mode = true →
    Keeps I (updateEngine (fun engine => engine.setMode mode) >>= fun _ =>
      Session.setState env "mode" mode)
  recovery : ∀ enabled,
    Keeps I (updateEngine (fun engine => engine.setRecoveryMode enabled) >>= fun _ =>
      Session.setState env "recovery_mode" (if enabled then "true" else "false"))

namespace ModeInvariant

variable {env : Environment} {config : Config} {I : Session → Prop}
  {parseTime : String → Option ℕ}

theorem keeps_journal {α : Type} (h : ModeInvariant env config I) {x : Fallible Journal Stop α}
    (hx : LeavesStored x) : Keeps I (onJournal x) := by
  intro session hs
  have hsame := hx session.toJournal session.toJournal (SameStored.refl _)
  refine wp_onJournal.mpr (wp_mono hsame ?_ ?_)
  · intro a journal hj
    exact h.framed session _ hs hj rfl
  · intro e journal hj
    exact h.framed session _ hs hj rfl

theorem keeps_append (h : ModeInvariant env config I) (eventId ruleId : Option String)
    (kind payload : String) : Keeps I (Session.append env eventId kind ruleId payload) :=
  h.keeps_journal (leavesStored_append eventId ruleId kind payload)

theorem keeps_applyEffect (h : ModeInvariant env config I) {effect : ActionEffect}
    (heffect : ∀ mode, effect = .setMode mode → config.knowsMode mode = true) :
    Keeps I (applyEffect env effect) := by
  cases effect with
  | none => exact Keeps.pure ()
  | setMode mode => exact h.mode mode (heffect mode rfl)
  | networkIsolation enabled =>
      exact h.keeps_journal (leavesStored_setState (by decide) (by decide))

theorem keeps_recordOutcome (h : ModeInvariant env config I) (key : LedgerKey) (success : Bool)
    (payload : String) : Keeps I (recordOutcome env key success payload) :=
  (h.keeps_journal (leavesStored_recordAction _ _ _)).bind fun _ => h.keeps_append _ _ _ _

theorem keeps_concludePlan (h : ModeInvariant env config I) {key : LedgerKey}
    {result : Except String ActionOutcome}
    (hresult : ∀ outcome mode, result = .ok outcome → outcome.effect = .setMode mode →
      config.knowsMode mode = true) : Keeps I (concludePlan env key result) := by
  cases result with
  | error message => exact h.keeps_recordOutcome key false _
  | ok outcome =>
      unfold concludePlan
      refine (h.keeps_recordOutcome key _ _).bind fun _ => ?_
      split
      · exact h.keeps_applyEffect fun mode heffect => hresult outcome mode rfl heffect
      · exact Keeps.pure ()

/-- A plan that may only switch to a known mode. -/
theorem keeps_executePlan (h : ModeInvariant env config I) (event : Event) {plan : ActionPlan}
    (hplan : ∀ mode, plan.action = .setMode mode → config.knowsMode mode = true) :
    Keeps I (executePlan env event plan) := by
  refine Keeps.bind ?_ fun _ => ?_
  · exact fun session hs => h.framed session _ hs ⟨rfl, rfl, List.prefix_append _ _⟩ rfl
  refine Keeps.bind (h.keeps_journal (leavesStored_query fun store =>
    .ok (store.actionCompleted (ledgerKey env event plan)))) fun completed => ?_
  split
  · exact Keeps.pure ()
  · refine (h.keeps_journal (leavesStored_recordAction _ _ _)).bind fun _ => ?_
    refine (h.keeps_append _ _ _ _).bind fun _ => ?_
    intro session hs
    refine wp_seq (fun result t => I t ∧ ∀ outcome mode, result = .ok outcome →
      outcome.effect = .setMode mode → config.knowsMode mode = true) ?_ ?_
    · refine ⟨h.framed session _ hs ⟨rfl, rfl, List.prefix_append _ _⟩ rfl, ?_⟩
      intro outcome mode houtcome heffect
      exact hplan mode (execute_setMode_effect houtcome heffect)
    · rintro result t ⟨ht, hresult⟩
      exact h.keeps_concludePlan hresult t ht

theorem keeps_processEvent (h : ModeInvariant env config I)
    (hvalid : validateConfig parseTime config = .ok ()) (host : Host) (event : Event) :
    Keeps I (processEvent env host event) := by
  refine Keeps.bind (fun session hs => wp_ofExcept (fun _ _ => hs) fun _ _ => hs) fun payload => ?_
  refine (h.keeps_append _ _ _ _).bind fun _ => ?_
  intro session hs
  refine wp_seq (fun plans t => I t ∧ ∀ plan ∈ plans, ∀ mode, plan.action = .setMode mode →
    config.knowsMode mode = true) ?_ ?_
  · unfold wp handle
    cases hhandle : session.runtime.engine.handle host event with
    | none => exact h.framed session _ hs ⟨rfl, rfl, List.prefix_append _ _⟩ rfl
    | some result =>
        obtain ⟨engine, plans⟩ := result
        obtain ⟨hrules, hrecovery, hsnapshot⟩ := PolicyEngine.handle_frame hhandle
        refine ⟨h.handled session engine hs hrules hrecovery ?_, ?_⟩
        · rw [hsnapshot, SystemSnapshot.apply_mode]
        · intro plan hplan mode haction
          obtain ⟨rule, hrule, hmem⟩ := handle_setMode_plan hhandle hplan haction
          rw [h.rules_eq session hs] at hrule
          exact knowsMode_of_validated hvalid (mem_sortRules.mp hrule) hmem
  · rintro plans t ⟨ht, hplans⟩
    refine Keeps.bind (Keeps.forEach fun plan hplan => ?_) (fun _ => Keeps.pure _) t ht
    exact h.keeps_executePlan event (hplans plan hplan)

theorem keeps_setMode (h : ModeInvariant env config I) (mode : String) :
    Keeps I (Session.setMode env mode) := by
  intro session hs
  change wp (if !session.runtime.config.knowsMode mode then _ else _) _ _ session
  rw [h.config_eq session hs]
  split
  · exact hs
  · next hknown =>
    have hmode := h.mode mode (by simpa using hknown)
    have hrecord := h.keeps_append none none "mode_changed"
      (env.serde.object [("mode", .text mode)])
    have hwhole := hmode.bind fun _ => hrecord
    rw [bind_assoc] at hwhole
    exact hwhole session hs

theorem keeps_setRecovery (h : ModeInvariant env config I) (enabled : Bool) :
    Keeps I (setRecovery env enabled) := by
  have hrecord := h.keeps_append none none "recovery_mode_changed"
    (env.serde.object [("enabled", .flag enabled)])
  have hwhole := (h.recovery enabled).bind fun _ => hrecord
  rwa [bind_assoc] at hwhole

/-- Every request but a reload. -/
theorem keeps_control (h : ModeInvariant env config I)
    (hvalid : validateConfig parseTime config = .ok ()) (situation : Situation) {request : Request}
    (hrequest : request ≠ .reload) : Keeps I (handleControl env situation request) := by
  refine keeps_handleControl (keeps_handleControlResult ?_ ?_ (fun heq => absurd heq hrequest)
    (fun _ _ => h.keeps_processEvent hvalid _ _) (fun mode _ => h.keeps_setMode mode)
    (fun enabled _ => h.keeps_setRecovery enabled))
  · exact fun body => h.keeps_journal (leavesStored_query body)
  · exact fun session hs => h.framed session _ hs ⟨rfl, rfl, List.prefix_append _ _⟩ rfl

end ModeInvariant

end Kovert
