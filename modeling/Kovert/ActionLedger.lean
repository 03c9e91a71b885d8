import Kovert.RuntimeStep
import Kovert.Foundations.History

/-!
# The action ledger protocol

At most one success for each ledger key, over every run of the daemon: store
calls fail, the process dies between any two of them, starts again and meets
the same event again. The trace of a run carries the argument. An entry for an
executor call is admissible only directly behind the entries that opened it,
and neither an executor call nor a ledger write is admissible for a key whose
status already is `succeeded`.
-/

namespace Kovert

open Fallible History

/-! ## The ledger a trace leaves -/

def DaemonStore.statuses (store : DaemonStore) (key : LedgerKey) : Option ActionStatus :=
  (store.ledger key).map (·.status)

/-- What an entry of the trace does to the statuses. -/
def Mark.affect (statuses : LedgerKey → Option ActionStatus) :
    Mark → LedgerKey → Option ActionStatus
  | .recorded key status => Function.update statuses key (some status)
  | _ => statuses

/-- The statuses that the committed ledger writes of a trace leave. -/
def statusAfter (initial : LedgerKey → Option ActionStatus) (trace : List Mark) :
    LedgerKey → Option ActionStatus :=
  trace.foldl Mark.affect initial

@[simp] theorem statusAfter_nil (initial : LedgerKey → Option ActionStatus) :
    statusAfter initial [] = initial := rfl

@[simp] theorem statusAfter_snoc (initial : LedgerKey → Option ActionStatus) (trace : List Mark)
    (mark : Mark) :
    statusAfter initial (trace ++ [mark]) = mark.affect (statusAfter initial trace) := by
  rw [statusAfter, List.foldl_append]
  rfl

/-- The entries `execute_plan` leaves before it calls the executor. -/
def openingMarks (key : LedgerKey) : List Mark :=
  [.planned key, .recorded key .started,
    .audited (some key.eventId) "action_started" (some key.ruleId)]

/-- When an entry may follow a history. -/
def Admissible (initial : LedgerKey → Option ActionStatus) (before : List Mark) : Mark → Prop
  | .invoked key =>
      statusAfter initial before key ≠ some .succeeded ∧ openingMarks key <:+ before
  | .recorded key _ => statusAfter initial before key ≠ some .succeeded
  | _ => True

/-- Entries that are neither an executor call nor a ledger write. -/
def Mark.Plain : Mark → Prop
  | .invoked _ => False
  | .recorded _ _ => False
  | _ => True

theorem Mark.Plain.affect {mark : Mark} (h : mark.Plain)
    (statuses : LedgerKey → Option ActionStatus) : mark.affect statuses = statuses := by
  cases mark with
  | invoked key => exact h.elim
  | recorded key status => exact h.elim
  | planned | audited | stored | failed | crashed => rfl

theorem Mark.Plain.admissible {mark : Mark} (h : mark.Plain)
    (initial : LedgerKey → Option ActionStatus) (before : List Mark) :
    Admissible initial before mark := by
  cases mark with
  | invoked key => exact h.elim
  | recorded key status => exact h.elim
  | planned | audited | stored | failed | crashed => exact trivial

/-- In an admissible history a success stays, and the executor is not called again. -/
theorem statusAfter_succeeded {initial : LedgerKey → Option ActionStatus} {earlier later : List Mark}
    {key : LedgerKey} (hlawful : Lawful (Admissible initial) (earlier ++ later))
    (hdone : statusAfter initial earlier key = some .succeeded) :
    statusAfter initial (earlier ++ later) key = some .succeeded ∧ .invoked key ∉ later := by
  induction later using List.reverseRecOn with
  | nil =>
      rw [List.append_nil]
      exact ⟨hdone, List.not_mem_nil⟩
  | append_singleton later mark ih =>
      rw [← List.append_assoc] at hlawful ⊢
      obtain ⟨hlawful, hmark⟩ := lawful_snoc.mp hlawful
      obtain ⟨hkept, hnone⟩ := ih hlawful
      rw [statusAfter_snoc, List.mem_append, List.mem_singleton]
      cases mark with
      | recorded other status =>
          -- a write for this key would not have been admissible
          have hne : key ≠ other := by
            rintro rfl
            exact hmark hkept
          refine ⟨?_, by simpa using hnone⟩
          rw [Mark.affect, Function.update_of_ne hne]
          exact hkept
      | invoked other =>
          have hne : key ≠ other := by
            rintro rfl
            exact hmark.1 hkept
          exact ⟨hkept, by simpa [hne] using hnone⟩
      | planned | audited | stored | failed | crashed =>
          exact ⟨hkept, by simpa using hnone⟩

/-! ## The invariant of the journal -/

/-- The store's statuses are those of the trace, and every entry was admissible. -/
structure LedgerHeld (initial : LedgerKey → Option ActionStatus) (journal : Journal) : Prop where
  tracked : journal.store.statuses = statusAfter initial journal.trace
  lawful : Lawful (Admissible initial) journal.trace

variable {initial : LedgerKey → Option ActionStatus} {env : Environment} {journal next : Journal}

theorem LedgerHeld.frame (h : LedgerHeld initial journal)
    (hledger : next.store.ledger = journal.store.ledger) (htrace : next.trace = journal.trace) :
    LedgerHeld initial next := by
  refine ⟨?_, htrace ▸ h.lawful⟩
  rw [htrace, ← h.tracked]
  funext key
  rw [DaemonStore.statuses, DaemonStore.statuses, hledger]

theorem LedgerHeld.extend (mark : Mark) (h : LedgerHeld initial journal)
    (hmark : Admissible initial journal.trace mark)
    (hstatuses : next.store.statuses = mark.affect journal.store.statuses)
    (htrace : next.trace = journal.trace ++ [mark]) : LedgerHeld initial next := by
  constructor
  · rw [hstatuses, htrace, statusAfter_snoc, h.tracked]
  · rw [htrace]
    exact lawful_snoc.mpr ⟨h.lawful, hmark⟩

theorem LedgerHeld.plain (mark : Mark) (h : LedgerHeld initial journal) (hmark : mark.Plain)
    (hledger : next.store.ledger = journal.store.ledger)
    (htrace : next.trace = journal.trace ++ [mark]) : LedgerHeld initial next := by
  refine h.extend mark (hmark.admissible initial _) ?_ htrace
  rw [hmark.affect]
  funext key
  rw [DaemonStore.statuses, DaemonStore.statuses, hledger]

/-! ## Store calls -/

theorem LedgerHeld.failed (h : LedgerHeld initial journal) :
    LedgerHeld initial ({ journal with calls := journal.calls + 1 }.mark [.failed]) :=
  h.plain .failed trivial rfl rfl

theorem LedgerHeld.crashed (h : LedgerHeld initial journal) :
    LedgerHeld initial ({ journal with calls := journal.calls + 1 }.mark [.crashed]) :=
  h.plain .crashed trivial rfl rfl

/-- Calls that only read. -/
theorem LedgerHeld.keeps_query {β : Type} (body : DaemonStore → Except String β) :
    Keeps (LedgerHeld initial) (Journal.storeCall env
      (fun _ store => (body store).map (fun b => (b, store))) []) := by
  refine Journal.keeps_storeCall (fun _ h => h.crashed) (fun _ h => h.failed) ?_
  intro journal clock result store h hbody
  obtain ⟨value, _, heq⟩ := exists_ok_of_map hbody
  cases heq
  exact h.frame rfl (List.append_nil _)

theorem LedgerHeld.keeps_setState (key value : String) :
    Keeps (LedgerHeld initial) (Journal.setState env key value) := by
  refine Journal.keeps_storeCall (fun _ h => h.crashed) (fun _ h => h.failed) ?_
  intro journal clock result store h hbody
  cases hbody
  exact h.plain (.stored key value) trivial rfl rfl

theorem LedgerHeld.wp_append {eventId ruleId : Option String} {kind payload : String}
    {Q : Unit → Journal → Prop} (h : LedgerHeld initial journal)
    (hQ : ∀ next, LedgerHeld initial next → next.store.statuses = journal.store.statuses →
      next.trace = journal.trace ++ [.audited eventId kind ruleId] → Q () next) :
    wp (Journal.append env eventId kind ruleId payload) Q (fun _ => LedgerHeld initial)
      journal := by
  refine Journal.wp_storeCall h.crashed (fun _ => h.failed) ?_
  intro clock result store _ hbody
  obtain ⟨after, happend, heq⟩ := exists_ok_of_map hbody
  cases heq
  have hledger := DaemonStore.append_ledger happend
  refine hQ _ (h.plain (.audited eventId kind ruleId) trivial hledger rfl) ?_ rfl
  funext key
  exact congrArg (fun ledger => (ledger key).map LedgerRow.status) hledger

theorem LedgerHeld.keeps_append (eventId ruleId : Option String) (kind payload : String) :
    Keeps (LedgerHeld initial) (Journal.append env eventId kind ruleId payload) :=
  fun _ h => h.wp_append fun _ hnext _ _ => hnext

theorem LedgerHeld.wp_actionCompleted {key : LedgerKey} {Q : Bool → Journal → Prop}
    (h : LedgerHeld initial journal)
    (hQ : ∀ next, LedgerHeld initial next → next.store = journal.store →
      next.trace = journal.trace → Q (journal.store.actionCompleted key) next) :
    wp (Journal.actionCompleted env key) Q (fun _ => LedgerHeld initial) journal := by
  refine Journal.wp_storeCall h.crashed (fun _ => h.failed) ?_
  intro clock result store _ hbody
  cases hbody
  exact hQ _ (h.frame rfl (List.append_nil _)) rfl (List.append_nil _)

/-- A ledger write for a key that has not succeeded. -/
theorem LedgerHeld.wp_recordAction {key : LedgerKey} {status : ActionStatus}
    {outcome : Option String} {Q : Unit → Journal → Prop} (h : LedgerHeld initial journal)
    (hopen : journal.store.statuses key ≠ some .succeeded)
    (hQ : ∀ next, LedgerHeld initial next → next.store.statuses key = some status →
      next.trace = journal.trace ++ [.recorded key status] → Q () next) :
    wp (Journal.recordAction env key status outcome) Q (fun _ => LedgerHeld initial) journal := by
  refine Journal.wp_storeCall h.crashed (fun _ => h.failed) ?_
  intro clock result store _ hbody
  cases hbody
  have hstatuses : (journal.store.recordAction key status outcome clock).statuses =
      Function.update journal.store.statuses key (some status) := by
    funext other
    by_cases heq : other = key
    · subst heq
      simp [DaemonStore.statuses, DaemonStore.recordAction]
    · simp [DaemonStore.statuses, DaemonStore.recordAction, heq]
  refine hQ _ (h.extend (.recorded key status) ?_ hstatuses rfl) ?_ rfl
  · change statusAfter initial journal.trace key ≠ some .succeeded
    rw [← h.tracked]
    exact hopen
  · exact (congrFun hstatuses key).trans (Function.update_self ..)

/-! ## One plan -/

section Plans

open Session

/-- The invariant seen from a session. -/
def Session.LedgerHeld (initial : LedgerKey → Option ActionStatus) (session : Session) : Prop :=
  Kovert.LedgerHeld initial session.toJournal

theorem keeps_applyEffect (effect : ActionEffect) :
    Keeps (Session.LedgerHeld initial) (applyEffect env effect) := by
  have hset : ∀ key value,
      Keeps (Session.LedgerHeld initial) (Session.setState env key value) :=
    fun key value => keeps_onJournal (fun _ => Iff.rfl) (LedgerHeld.keeps_setState key value)
  cases effect with
  | none => exact Keeps.pure ()
  | setMode mode => exact Keeps.bind (fun _ h => h) fun _ => hset "mode" mode
  | networkIsolation enabled => exact hset _ _

/-- The outcome is written for a key that is still open. -/
theorem wp_recordOutcome {session : Session} {key : LedgerKey} {success : Bool} {payload : String}
    (h : LedgerHeld initial session.toJournal)
    (hopen : session.store.statuses key ≠ some .succeeded) :
    wp (recordOutcome env key success payload) (fun _ => Session.LedgerHeld initial)
      (fun _ => Session.LedgerHeld initial) session := by
  refine wp_seq (fun _ => Session.LedgerHeld initial) ?_ ?_
  · exact wp_onJournal.mpr (h.wp_recordAction hopen fun next hnext _ _ => hnext)
  · intro _ t ht
    exact keeps_onJournal (fun _ => Iff.rfl) (LedgerHeld.keeps_append _ _ _ _) t ht

theorem wp_concludePlan {session : Session} {key : LedgerKey}
    {result : Except String ActionOutcome} (h : LedgerHeld initial session.toJournal)
    (hopen : session.store.statuses key ≠ some .succeeded) :
    wp (concludePlan env key result) (fun _ => Session.LedgerHeld initial)
      (fun _ => Session.LedgerHeld initial) session := by
  cases result with
  | error message => exact wp_recordOutcome h hopen
  | ok outcome =>
      unfold concludePlan
      refine wp_seq _ (wp_recordOutcome h hopen) ?_
      intro _ t ht
      split
      · exact keeps_applyEffect outcome.effect t ht
      · exact ht

/-- Behind the opening entries: the executor call and what follows it. -/
theorem wp_execute_opened {session : Session} {key : LedgerKey} {action : ActionSpec}
    {event : Event} (h : LedgerHeld initial session.toJournal)
    (hstatus : session.store.statuses key = some .started)
    (hopened : openingMarks key <:+ session.trace) :
    wp (execute env key action event)
      (fun _ t => LedgerHeld initial t.toJournal ∧ t.store.statuses key = some .started)
      (fun _ => Session.LedgerHeld initial) session := by
  have hopen : session.store.statuses key ≠ some .succeeded := by
    rw [hstatus]
    decide
  refine ⟨h.extend (.invoked key) ⟨?_, hopened⟩ rfl rfl, hstatus⟩
  rw [← h.tracked]
  exact hopen

theorem keeps_executePlan (event : Event) (plan : ActionPlan) :
    Keeps (Session.LedgerHeld initial) (executePlan env event plan) := by
  intro session h
  let key := ledgerKey env event plan
  have hplanned : LedgerHeld initial (session.toJournal.mark [.planned key]) :=
    LedgerHeld.plain (.planned key) h trivial rfl rfl
  refine wp_seq (fun _ t => LedgerHeld initial t.toJournal ∧ [.planned key] <:+ t.trace) ?_ ?_
  · exact ⟨hplanned, List.suffix_append _ _⟩
  rintro _ s1 ⟨h1, hmarks1⟩
  refine wp_seq (fun completed t => LedgerHeld initial t.toJournal ∧ [.planned key] <:+ t.trace ∧
    (completed = false → t.store.statuses key ≠ some .succeeded)) ?_ ?_
  · refine wp_onJournal.mpr (h1.wp_actionCompleted fun next hnext hstore htrace => ⟨hnext, ?_, ?_⟩)
    · exact htrace ▸ hmarks1
    · intro hcompleted hstatus
      rw [← hstore] at hcompleted
      have hdone : next.store.actionCompleted key = true := beq_iff_eq.mpr hstatus
      exact Bool.false_ne_true (hcompleted.symm.trans hdone)
  rintro completed s2 ⟨h2, hmarks2, hopen⟩
  cases completed with
  | true => exact h2
  | false =>
      refine wp_seq (fun _ t => LedgerHeld initial t.toJournal ∧
        t.store.statuses key = some .started ∧
        [.planned key, .recorded key .started] <:+ t.trace) ?_ ?_
      · refine wp_onJournal.mpr (h2.wp_recordAction (hopen rfl) fun next hnext hstatus htrace =>
          ⟨hnext, hstatus, ?_⟩)
        exact htrace ▸ List.suffix_append_self_iff.mpr hmarks2
      rintro _ s3 ⟨h3, hstatus3, hmarks3⟩
      refine wp_seq (fun _ t => LedgerHeld initial t.toJournal ∧
        t.store.statuses key = some .started ∧ openingMarks key <:+ t.trace) ?_ ?_
      · refine Session.wp_append.mpr (h3.wp_append fun next hnext hstatuses htrace => ⟨hnext, ?_, ?_⟩)
        · exact (congrFun hstatuses key).trans hstatus3
        · exact htrace ▸ List.suffix_append_self_iff.mpr hmarks3
      rintro _ s4 ⟨h4, hstatus4, hmarks4⟩
      refine wp_seq _ (wp_execute_opened h4 hstatus4 hmarks4) ?_
      rintro result s5 ⟨h5, hstatus5⟩
      have hopen5 : s5.store.statuses key ≠ some .succeeded := by
        rw [hstatus5]
        decide
      exact wp_concludePlan h5 hopen5

/-! ## Requests and events -/

theorem keeps_sessionAppend (eventId ruleId : Option String) (kind payload : String) :
    Keeps (Session.LedgerHeld initial) (Session.append env eventId kind ruleId payload) :=
  keeps_onJournal (fun _ => Iff.rfl) (LedgerHeld.keeps_append eventId ruleId kind payload)

theorem keeps_handle (host : Host) (event : Event) :
    Keeps (Session.LedgerHeld initial) (handle host event) := by
  intro session h
  unfold wp handle
  cases session.runtime.engine.handle host event with
  | none => exact LedgerHeld.plain .crashed h trivial rfl rfl
  | some _ => exact h

theorem keeps_processEvent (host : Host) (event : Event) :
    Keeps (Session.LedgerHeld initial) (processEvent env host event) := by
  refine Keeps.bind (fun session h => wp_ofExcept (fun _ _ => h) fun _ _ => h) fun payload => ?_
  refine (keeps_sessionAppend _ _ _ _).bind fun _ => ?_
  refine (keeps_handle host event).bind fun plans => ?_
  exact (Keeps.forEach fun plan _ => keeps_executePlan event plan).bind fun _ => Keeps.pure _

theorem keeps_reload (situation : Situation) :
    Keeps (Session.LedgerHeld initial) (reload env situation) := by
  refine Keeps.bind (fun session h => wp_ofExcept (fun _ _ => h) fun _ _ => h) fun config => ?_
  have hsensors := Journal.keeps_startSensors (I := LedgerHeld initial) situation
    "restart sensors" config fun journal n h => h.frame rfl rfl
  refine (keeps_onJournal (fun _ => Iff.rfl) hsensors).bind fun handles => ?_
  refine Keeps.bind (fun session h => LedgerHeld.frame h rfl rfl) fun _ => ?_
  exact Keeps.bind (fun session h => h) fun session => keeps_sessionAppend _ _ _ _

theorem keeps_setMode (mode : String) :
    Keeps (Session.LedgerHeld initial) (Session.setMode env mode) := by
  refine Keeps.bind (fun session h => h) fun session => ?_
  split
  · exact fun session h => h
  · refine Keeps.bind (fun session h => h) fun _ => ?_
    refine (keeps_onJournal (fun _ => Iff.rfl) (LedgerHeld.keeps_setState _ _)).bind fun _ => ?_
    exact keeps_sessionAppend _ _ _ _

theorem keeps_setRecovery (enabled : Bool) :
    Keeps (Session.LedgerHeld initial) (setRecovery env enabled) := by
  refine Keeps.bind (fun session h => h) fun _ => ?_
  refine (keeps_onJournal (fun _ => Iff.rfl) (LedgerHeld.keeps_setState _ _)).bind fun _ => ?_
  exact keeps_sessionAppend _ _ _ _

theorem keeps_control (situation : Situation) (request : Request) :
    Keeps (Session.LedgerHeld initial) (handleControl env situation request) := by
  refine keeps_handleControl (keeps_handleControlResult ?_ ?_ (fun _ => keeps_reload situation)
    (fun _ _ => keeps_processEvent _ _) (fun mode _ => keeps_setMode mode)
    (fun enabled _ => keeps_setRecovery enabled))
  · exact fun body => keeps_onJournal (fun _ => Iff.rfl) (LedgerHeld.keeps_query body)
  · exact fun session h => LedgerHeld.plain .crashed h trivial rfl rfl

theorem keeps_boot (situation : Situation) (maxRecords : ℕ) (verifyOnStart : Bool) :
    Keeps (LedgerHeld initial) (Daemon.boot env situation maxRecords verifyOnStart) := by
  refine Keeps.bind (fun journal h => wp_ofExcept (fun _ _ => h) fun _ _ => h) fun config => ?_
  refine Keeps.bind (fun journal h => h.frame rfl rfl) fun _ => ?_
  refine Keeps.bind ?_ fun _ => ?_
  · split
    · exact LedgerHeld.keeps_query fun store => store.database.verify env.blake3
    · exact Keeps.pure 0
  have hget : ∀ key, Keeps (LedgerHeld initial) (Journal.getState env key) :=
    fun key => LedgerHeld.keeps_query fun store => .ok (store.getState key)
  refine (Journal.keeps_startSensors situation "start sensors" config
    fun journal n h => h.frame rfl rfl).bind fun handles => ?_
  refine Keeps.bind ?_ fun runtime => ?_
  · exact (hget "mode").bind fun _ => (hget "recovery_mode").bind fun _ => Keeps.pure _
  · exact (LedgerHeld.keeps_append _ _ _ _).bind fun _ => Keeps.pure _

end Plans

/-! ## Runs of the daemon -/

theorem Daemon.step_ledgerHeld {daemon after : Daemon} {op : DaemonOp}
    (h : LedgerHeld initial daemon.toJournal) (hs : daemon.step env op = some after) :
    LedgerHeld initial after.toJournal := by
  cases op with
  | start situation maxRecords verifyOnStart =>
      have hboot : LedgerHeld initial
          (Daemon.boot env situation maxRecords verifyOnStart daemon.toJournal).2 :=
        (keeps_boot situation maxRecords verifyOnStart).apply h
      rcases Daemon.step_start hs with ⟨runtime, journal, heq, rfl⟩ | ⟨stop, journal, heq, rfl⟩
      · rw [heq] at hboot
        exact hboot
      · rw [heq] at hboot
        exact hboot
  | event host event =>
      obtain ⟨runtime, _, rfl⟩ := Option.map_eq_some_iff.mp hs
      exact Daemon.activate_journal (keeps_processEvent host event) h
  | control situation request =>
      obtain ⟨runtime, _, rfl⟩ := Option.map_eq_some_iff.mp hs
      exact Daemon.activate_journal (keeps_control situation request) h
  | shutdown =>
      obtain ⟨runtime, _, rfl⟩ := Option.map_eq_some_iff.mp hs
      refine (LedgerHeld.keeps_append none none "daemon_stopped" _).apply ?_
      exact h.frame rfl rfl
  | kill =>
      cases hs
      exact h

theorem Daemon.run_ledgerHeld {store : DaemonStore} {ops : List DaemonOp} {daemon : Daemon}
    (hrun : Execution.run (Daemon.step env) (Daemon.down store) ops = some daemon) :
    LedgerHeld store.statuses daemon.toJournal := by
  refine Execution.run_invariant (C := fun _ _ => True)
    (P := fun daemon => LedgerHeld store.statuses daemon.toJournal) ?_ ?_ hrun
    (fun _ _ _ _ => trivial)
  · exact ⟨rfl, lawful_nil _⟩
  · intro daemon op after _ h hs
    exact Daemon.step_ledgerHeld h hs

/-- The ledger protocol. An executor call directly follows the entries that
opened it in the same `execute_plan` call; a success is final and ends the
executor calls for its key; and the statuses spoken of are the store's. -/
theorem action_ledger_protocol (env : Environment) (store : DaemonStore) (ops : List DaemonOp)
    (daemon : Daemon)
    (hrun : Execution.run (Daemon.step env) (Daemon.down store) ops = some daemon) :
    (∀ before key after, daemon.trace = before ++ .invoked key :: after →
      openingMarks key <:+ before) ∧
    (∀ earlier later rest key, daemon.trace = earlier ++ later ++ rest →
      statusAfter store.statuses earlier key = some .succeeded →
      statusAfter store.statuses (earlier ++ later) key = some .succeeded ∧
        .invoked key ∉ later) ∧
    daemon.store.statuses = statusAfter store.statuses daemon.trace := by
  have hheld := Daemon.run_ledgerHeld hrun
  refine ⟨?_, ?_, hheld.tracked⟩
  · intro before key after hsplit
    exact (hheld.lawful before (.invoked key) after hsplit).2
  · intro earlier later rest key hsplit hdone
    have hlawful : Lawful (Admissible store.statuses) (earlier ++ later) :=
      (hsplit ▸ hheld.lawful).of_append
    exact statusAfter_succeeded hlawful hdone

def panicKey : LedgerKey where
  eventId := "00000000-0000-0000-0000-000000000000"
  ruleId := "test"
  actionHash := sumDigest (utf8 "notify/test/matched")

/-- The daemon dies while the executor runs, and meets the event two more times. -/
def restartOps : List DaemonOp :=
  let start : DaemonOp :=
    .start (sampleSituation (liveConfig [] [testRule (.manual "panic")])) 0 true
  [start, .event bareHost panicEvent, start, .event bareHost panicEvent, .kill, start,
    .event bareHost panicEvent]

def restartTrace : List Mark :=
  let received : List Mark :=
    [.audited none "daemon_started" none, .audited (some panicKey.eventId) "event" none]
  let opening := openingMarks panicKey ++ [.invoked panicKey]
  received ++ opening ++ [.crashed] ++ received ++ opening ++
    [.recorded panicKey .succeeded,
      .audited (some panicKey.eventId) "action_succeeded" (some panicKey.ruleId)] ++
    received ++ [.planned panicKey]

theorem action_ledger_protocol_restart : ∃ daemon,
    Execution.run (Daemon.step (sampleEnv [(8, .crashes)])) (Daemon.down emptyStore) restartOps =
      some daemon ∧ daemon.trace = restartTrace ∧
    openingMarks panicKey <:+ restartTrace.take 12 ∧
    .invoked panicKey ∉ restartTrace.drop 14 ∧
    daemon.store.statuses panicKey = some .succeeded := by
  have hsome : (Execution.run (Daemon.step (sampleEnv [(8, .crashes)])) (Daemon.down emptyStore)
      restartOps).map (fun daemon => daemon.trace) = some restartTrace := by decide +kernel
  obtain ⟨daemon, hrun, htrace⟩ := Option.map_eq_some_iff.mp hsome
  obtain ⟨hopened, hfinal, hstatuses⟩ := action_ledger_protocol _ _ _ _ hrun
  rw [htrace] at hopened hfinal hstatuses
  refine ⟨daemon, hrun, htrace, ?_, ?_, ?_⟩
  · exact hopened _ panicKey (restartTrace.drop 13) (by decide +kernel)
  · exact (hfinal (restartTrace.take 14) (restartTrace.drop 14) [] panicKey
      (by decide +kernel) (by decide +kernel)).2
  · rw [hstatuses]
    decide +kernel

end Kovert
