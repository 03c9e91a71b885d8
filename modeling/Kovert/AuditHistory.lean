import Kovert.JournalRules

/-!
# The audit table over the daemon's life

Retention takes the oldest records away, so the table alone does not say what
the daemon has committed. The records are therefore followed as if nothing were
ever pruned: one for every committed append, numbered without gaps, the table
always at their end. The chain of a store that only the daemon has written
verifies whatever calls have failed and wherever the process has died.
-/

namespace Kovert

open Fallible Session HashChain

/-! ## Appends and ids -/

theorem Database.insertAudit_ids {db inserted : Database} {fields : AuditFields} {row : AuditRow}
    (h : db.insertAudit fields = .ok (inserted, row)) :
    row.id = db.lastId + 1 ∧ inserted.lastId = db.lastId + 1 := by
  unfold Database.insertAudit at h
  split at h
  · cases h
  · cases h
    exact ⟨rfl, rfl⟩

theorem Database.prune_lastId {db after : Database} {maxRecords : ℕ}
    (h : db.prune maxRecords = .ok after) : after.lastId = db.lastId := by
  unfold Database.prune at h
  split at h
  · cases h
    rfl
  · simp only at h
    split at h
    · cases h
      rfl
    · split at h
      · cases h
      · cases h
        rfl

/-- An append takes the next id, and ids are not given back. -/
theorem AuditStore.append_ids {blake3 : List UInt8 → String} {store after : AuditStore}
    {timestamp kind payload : String} {eventId ruleId : Option String} {row : AuditRow}
    (h : store.append blake3 timestamp eventId kind ruleId payload = .ok (after, row)) :
    row.id = store.database.lastId + 1 ∧ after.database.lastId = store.database.lastId + 1 := by
  unfold AuditStore.append at h
  simp only at h
  split at h
  · cases h
  · next inserted other hinsert =>
    obtain ⟨hid, hlast⟩ := Database.insertAudit_ids hinsert
    split at h
    · cases h
    · next pruned hprune =>
      cases h
      exact ⟨hid, (Database.prune_lastId hprune).trans hlast⟩

/-- A store with a limit holds at most that many records after an append. -/
theorem AuditStore.append_within {blake3 : List UInt8 → String} {store after : AuditStore}
    {timestamp kind payload : String} {eventId ruleId : Option String} {row : AuditRow}
    (hmax : store.maxRecords < 2 ^ 63) (hpos : 0 < store.maxRecords)
    (h : store.append blake3 timestamp eventId kind ruleId payload = .ok (after, row)) :
    after.database.audit.length ≤ store.maxRecords := by
  obtain ⟨_, _, inserted, _, _, hprune⟩ := AuditStore.append_eq_ok h
  obtain ⟨pruned, hpruned, haudit, _⟩ := inserted.prune_eq hpos hmax
  cases hprune.symm.trans hpruned
  rw [haudit, List.length_drop]
  omega

/-! ## The records of a journal -/

/-- What a record of the audit says of its origin. -/
structure Heading where
  eventId : Option String
  kind : String
  ruleId : Option String
  deriving DecidableEq, Repr

def AuditRow.heading (row : AuditRow) : Heading := ⟨row.eventId, row.kind, row.ruleId⟩

def Mark.heading? : Mark → Option Heading
  | .audited eventId kind ruleId => some ⟨eventId, kind, ruleId⟩
  | _ => none

theorem Mark.Idle.heading {mark : Mark} (h : mark.Idle) : mark.heading? = none := by
  cases mark with
  | audited eventId kind ruleId => exact h.elim
  | planned | recorded | stored | invoked | failed | crashed => rfl

/-- The records committed so far, the pruned ones among them. -/
structure Chronicled (blake3 : List UInt8 → String) (journal : Journal) (rows : List AuditRow) :
    Prop where
  retains : AuditRun.Retains blake3 ⟨journal.store.toAuditStore, rows⟩
  headings : rows.map AuditRow.heading = journal.trace.filterMap Mark.heading?
  ids : rows.map (·.id) = List.range' 1 rows.length
  last : journal.store.database.lastId = rows.length

variable {blake3 : List UInt8 → String} {env : Environment}

theorem Chronicled.frame {before after : Journal} {rows : List AuditRow}
    (h : Chronicled blake3 before rows) (hstore : after.store.toAuditStore = before.store.toAuditStore)
    (htrace : after.trace.filterMap Mark.heading? = before.trace.filterMap Mark.heading?) :
    Chronicled blake3 after rows := by
  refine ⟨?_, h.headings.trans htrace.symm, h.ids, ?_⟩
  · rw [hstore]
    exact h.retains
  · rw [hstore]
    exact h.last

theorem Chronicled.append {before after : Journal} {rows : List AuditRow} {clock kind payload : String}
    {eventId ruleId : Option String} (h : Chronicled blake3 before rows)
    (hcommit : before.store.append blake3 clock eventId kind ruleId payload = .ok after.store)
    (htrace : after.trace = before.trace ++ [.audited eventId kind ruleId]) :
    ∃ row, Chronicled blake3 after (rows ++ [row]) := by
  unfold DaemonStore.append at hcommit
  split at hcommit
  · cases hcommit
  · next audit row happend =>
    obtain ⟨hid, hlast⟩ := AuditStore.append_ids happend
    obtain ⟨hfields, _, _⟩ := AuditStore.append_eq_ok happend
    have hstore : after.store.toAuditStore = audit := by
      rw [← Except.ok.inj hcommit]
    refine ⟨row, ?_, ?_, ?_, ?_⟩
    · rw [hstore]
      exact h.retains.append happend
    · have hheading : row.heading = ⟨eventId, kind, ruleId⟩ := by
        have hparts := congrArg (fun fields : AuditFields =>
          Heading.mk fields.eventId fields.kind fields.ruleId) hfields
        exact hparts
      rw [htrace, List.map_append, List.filterMap_append, h.headings, List.map_singleton, hheading]
      rfl
    · rw [List.map_append, h.ids, List.map_singleton, hid, h.last, List.length_append,
        List.length_singleton, List.range'_concat]
      simp [Nat.add_comm]
    · rw [hstore, hlast, h.last, List.length_append, List.length_singleton]

theorem chronicled_taskBlind :
    TaskBlind (fun journal => ∃ rows, Chronicled blake3 journal rows) := by
  rintro before after ⟨rows, h⟩ hstore htrace
  exact ⟨rows, h.frame (by rw [hstore]) (by rw [htrace])⟩

theorem chronicled_invariant (env : Environment) :
    JournalInvariant env (fun journal => ∃ rows, Chronicled env.blake3 journal rows) := by
  constructor
  case idle =>
    rintro before after marks ⟨rows, h⟩ _ hstore htrace hidle
    refine ⟨rows, h.frame (by rw [hstore]) ?_⟩
    have hnone : marks.filterMap Mark.heading? = [] :=
      List.filterMap_eq_nil_iff.mpr fun mark hmem => (hidle mark hmem).heading
    rw [htrace, List.filterMap_append, hnone, List.append_nil]
  case committed =>
    rintro call clock before after ⟨rows, h⟩ _ hcall hcommit htrace
    cases call with
    | append eventId kind ruleId payload =>
        obtain ⟨row, hrow⟩ := h.append hcommit htrace
        exact ⟨rows ++ [row], hrow⟩
    | setState key value =>
        have hop : (AuditOp.setState key value).Allowed := hcall
        have hstore : after.store = before.store.setState key value := (Except.ok.inj hcommit).symm
        refine ⟨rows, ?_, ?_, h.ids, ?_⟩
        · rw [hstore]
          exact h.retains.step hop
        · rw [h.headings, htrace, List.filterMap_append]
          exact (List.append_nil _).symm
        · rw [hstore]
          exact h.last
    | actionCompleted key =>
        have hstore : after.store = before.store := (Except.ok.inj hcommit).symm
        refine ⟨rows, h.frame (by rw [hstore]) ?_⟩
        rw [htrace, StoreCall.marks, List.append_nil]
    | recordAction key status outcome =>
        refine ⟨rows, h.frame ?_ ?_⟩
        · rw [← Except.ok.inj hcommit]
          rfl
        · rw [htrace, List.filterMap_append]
          exact List.append_nil _

/-- The integers of a configuration file are 64-bit and signed. -/
def FitsI64 (maxRecords : ℕ) : Prop := maxRecords < 2 ^ 63

def LimitFits (journal : Journal) : Prop := FitsI64 journal.store.maxRecords

/-- The table holds no more records than the limit, if there is one. -/
def WithinLimit (journal : Journal) : Prop :=
  LimitFits journal ∧
    (0 < journal.store.maxRecords → journal.store.database.audit.length ≤ journal.store.maxRecords)

theorem DaemonStore.append_withinLimit {store after : DaemonStore} {clock kind payload : String}
    {eventId ruleId : Option String} (hmax : store.maxRecords < 2 ^ 63)
    (h : store.append blake3 clock eventId kind ruleId payload = .ok after) :
    after.maxRecords = store.maxRecords ∧
      (0 < store.maxRecords → after.database.audit.length ≤ store.maxRecords) := by
  unfold DaemonStore.append at h
  split at h
  · cases h
  · next audit row happend =>
    cases h
    obtain ⟨_, hlimit, _⟩ := AuditStore.append_eq_ok happend
    exact ⟨hlimit, fun hpos => AuditStore.append_within hmax hpos happend⟩

theorem limitFits_taskBlind : TaskBlind LimitFits := by
  intro before after h hstore _
  rwa [LimitFits, hstore]

theorem limitFits_invariant (env : Environment) : JournalInvariant env LimitFits := by
  constructor
  case idle =>
    intro before after marks h _ hstore _ _
    rwa [LimitFits, hstore]
  case committed =>
    intro call clock before after h _ _ hcommit _
    cases call with
    | append eventId kind ruleId payload =>
        rw [LimitFits, (DaemonStore.append_withinLimit h hcommit).1]
        exact h
    | setState | actionCompleted | recordAction =>
        rw [LimitFits, ← Except.ok.inj hcommit]
        exact h

theorem withinLimit_taskBlind : TaskBlind WithinLimit := by
  intro before after h hstore _
  rwa [WithinLimit, LimitFits, hstore]

theorem withinLimit_invariant (env : Environment) : JournalInvariant env WithinLimit := by
  constructor
  case idle =>
    intro before after marks h _ hstore _ _
    rwa [WithinLimit, LimitFits, hstore]
  case committed =>
    intro call clock before after h htasks hcall hcommit htrace
    refine ⟨(limitFits_invariant env).committed call clock before after h.1 htasks hcall hcommit
      htrace, ?_⟩
    cases call with
    | append eventId kind ruleId payload =>
        obtain ⟨hlimit, hwithin⟩ := DaemonStore.append_withinLimit h.1 hcommit
        rw [hlimit]
        exact hwithin
    | setState | actionCompleted | recordAction =>
        rw [← Except.ok.inj hcommit]
        exact h.2

/-- A start ends with an append, which brings the table within a lowered limit. -/
theorem boot_withinLimit {situation : Situation} {maxRecords : ℕ} {verifyOnStart : Bool}
    {journal after : Journal} {runtime : Runtime} (hmax : FitsI64 maxRecords)
    (hjournal : LimitFits journal)
    (h : Daemon.boot env situation maxRecords verifyOnStart journal = (.ok runtime, after)) :
    WithinLimit after := by
  have hfits := limitFits_invariant env
  have hwp : wp (Daemon.boot env situation maxRecords verifyOnStart)
      (fun _ => WithinLimit) (fun _ => LimitFits) journal := by
    refine wp_seq (fun _ => LimitFits) ?_ fun config loaded hloaded => ?_
    · exact wp_ofExcept (fun _ _ => hjournal) fun _ _ => hjournal
    refine wp_seq (fun _ => LimitFits) hmax fun _ opened hopened => ?_
    refine wp_seq (fun _ => LimitFits) ?_ fun _ verified hverified => ?_
    · split
      · exact hfits.keeps_query (fun store => store.database.verify env.blake3) opened hopened
      · exact hopened
    refine wp_seq (fun _ => LimitFits)
      (limitFits_taskBlind.keeps_startSensors situation _ config verified hverified)
      fun handles started hstarted => ?_
    refine wp_seq (fun _ => LimitFits)
      (hfits.keeps_new config handles situation.now started hstarted) fun runtime built hbuilt => ?_
    refine wp_seq (fun _ => WithinLimit) ?_ fun _ _ hwithin => hwithin
    refine Journal.wp_storeCall hbuilt (fun _ => hbuilt) ?_
    intro clock result store _ hbody
    obtain ⟨after, happend, heq⟩ := exists_ok_of_map hbody
    cases heq
    obtain ⟨hlimit, hwithin⟩ := DaemonStore.append_withinLimit hbuilt happend
    refine ⟨?_, ?_⟩
    · change store.maxRecords < 2 ^ 63
      rw [hlimit]
      exact hbuilt
    · change 0 < store.maxRecords → store.database.audit.length ≤ store.maxRecords
      rw [hlimit]
      exact hwithin
  exact wp_of_ok (Q := fun _ => WithinLimit) hwp h

/-! ## Runs of the daemon -/

open JournalInvariant

variable {ops : List DaemonOp} {daemon : Daemon}

theorem run_chronicled (hops : ∀ op ∈ ops, Limits FitsI64 op)
    (hrun : Execution.run (Daemon.step env) (Daemon.down emptyStore) ops = some daemon) :
    ∃ rows, Chronicled env.blake3 daemon.toJournal rows := by
  refine (chronicled_invariant env).run chronicled_taskBlind ?_ hops ?_ hrun
  · rintro journal maxRecords hmax ⟨rows, h⟩
    have hop : (AuditOp.reopen maxRecords).Allowed := hmax
    exact ⟨rows, h.retains.step hop, h.headings, h.ids, h.last⟩
  · have hmax : 0 < 2 ^ 63 := Nat.two_pow_pos 63
    exact ⟨[], AuditRun.retains_start env.blake3 hmax, rfl, rfl, rfl⟩

theorem run_withinLimit (hops : ∀ op ∈ ops, Limits FitsI64 op)
    (hrun : Execution.run (Daemon.step env) (Daemon.down emptyStore) ops = some daemon)
    (hup : daemon.runtime.isSome = true) : WithinLimit daemon.toJournal := by
  have hboth : LimitFits daemon.toJournal ∧
      (daemon.runtime.isSome = true → WithinLimit daemon.toJournal) := by
    refine Execution.run_invariant (C := fun _ op => Limits FitsI64 op)
      (P := fun daemon => LimitFits daemon.toJournal ∧
        (daemon.runtime.isSome = true → WithinLimit daemon.toJournal)) ?_ ?_ hrun
      (Execution.allSteps_of_forall_mem hops)
    · exact ⟨Nat.two_pow_pos 63, fun hnone => by cases hnone⟩
    · rintro before op after hop ⟨hfits, hwithin⟩ hs
      refine ⟨(limitFits_invariant env).step limitFits_taskBlind (fun _ _ hmax _ => hmax) hop
        hfits hs, fun hup => ?_⟩
      cases op with
      | start situation maxRecords verifyOnStart =>
          rcases Daemon.step_start hs with ⟨runtime, journal, hboot, rfl⟩ | ⟨stop, journal, _, rfl⟩
          · exact boot_withinLimit hop hfits hboot
          · cases hup
      | event | control =>
          have hbefore : before.runtime.isSome = true := by
            obtain ⟨runtime, hruntime, _⟩ := Option.map_eq_some_iff.mp hs
            rw [hruntime]
            rfl
          exact (withinLimit_invariant env).step_running withinLimit_taskBlind (by simp)
            (hwithin hbefore) hs
      | shutdown =>
          obtain ⟨runtime, _, rfl⟩ := Option.map_eq_some_iff.mp hs
          cases hup
      | kill =>
          cases hs
          cases hup
  exact hboth.2 hup

/-- Over its whole life, restarts, failing calls and deaths included, the daemon
commits records that are numbered without gaps, one for every append that the
trace shows; the table is the end of them, within its limit while the daemon is
up, and an audit request lists that end backwards. -/
theorem audit_follows_commits (env : Environment) (ops : List DaemonOp) (daemon : Daemon)
    (hops : ∀ op ∈ ops, Limits FitsI64 op)
    (hrun : Execution.run (Daemon.step env) (Daemon.down emptyStore) ops = some daemon) :
    ∃ rows : List AuditRow,
      rows.map AuditRow.heading = daemon.trace.filterMap Mark.heading? ∧
      rows.map (·.id) = List.range' 1 rows.length ∧
      daemon.store.database.audit <:+ rows ∧
      (∀ limit, daemon.store.recent limit =
        rows.reverse.take (min (min limit 1000) daemon.store.database.audit.length)) ∧
      (daemon.runtime.isSome = true → 0 < daemon.store.maxRecords →
        daemon.store.database.audit.length ≤ daemon.store.maxRecords) := by
  obtain ⟨rows, h⟩ := run_chronicled hops hrun
  obtain ⟨pruned, hrows, _⟩ := h.retains.retained
  have hrows : rows = pruned ++ daemon.store.database.audit := hrows
  refine ⟨rows, h.headings, h.ids, ⟨pruned, hrows.symm⟩, ?_, ?_⟩
  · intro limit
    rw [DaemonStore.recent, hrows, List.reverse_append, List.take_append_of_le_length]
    · rw [← List.length_reverse, ← List.take_eq_take_min]
    · rw [List.length_reverse]
      exact Nat.min_le_right _ _
  · exact fun hup hpos => (run_withinLimit hops hrun hup).2 hpos

/-- A store that only the daemon has written verifies, whatever has failed in
between: a start that verifies it and a verification request are refused by
nothing but the store call itself. -/
theorem own_audit_verifies (env : Environment) (ops : List DaemonOp) (daemon : Daemon)
    (hops : ∀ op ∈ ops, Limits FitsI64 op)
    (hrun : Execution.run (Daemon.step env) (Daemon.down emptyStore) ops = some daemon) :
    daemon.store.database.verify env.blake3 = .ok daemon.store.database.audit.length ∧
      (∀ message, (Journal.verify env daemon.toJournal).1 = .error (.failed message) →
        env.answer daemon.calls = .fails message) ∧
      ∀ clock runtime situation, env.answer daemon.calls = .succeeds clock →
        (handleControl env situation .verifyAudit { daemon.toJournal with runtime := runtime }).1 =
          .ok (.success ("verified " ++ toString daemon.store.database.audit.length ++
            " audit record(s)") (some (.verified daemon.store.database.audit.length))) := by
  obtain ⟨rows, h⟩ := run_chronicled hops hrun
  have hverify : daemon.store.database.verify env.blake3 =
      .ok daemon.store.database.audit.length := h.retains.verify
  refine ⟨hverify, ?_, ?_⟩
  · intro message herror
    unfold Journal.verify Journal.storeCall at herror
    cases hanswer : env.answer daemon.calls with
    | crashes =>
        simp only [hanswer] at herror
        cases herror
    | fails other =>
        simp only [hanswer] at herror
        cases herror
        rfl
    | succeeds clock => simp [hanswer, hverify, Except.map] at herror
  · intro clock runtime situation hanswer
    have hcall : Journal.verify env daemon.toJournal =
        (.ok daemon.store.database.audit.length,
          { daemon.toJournal with calls := daemon.calls + 1 }.mark []) := by
      unfold Journal.verify Journal.storeCall
      simp only [hanswer, hverify, Except.map]
    have hsession : onJournal (Journal.verify env)
        ({ daemon.toJournal with runtime := runtime } : Session) =
        (.ok daemon.store.database.audit.length,
          { { daemon.toJournal with calls := daemon.calls + 1 }.mark [] with runtime := runtime }) := by
      unfold onJournal zoom
      rw [hcall]
    have hresult := bind_ok (f := fun verified => pure (Response.success
      ("verified " ++ toString verified ++ " audit record(s)") (some (.verified verified)))) hsession
    change handleControlResult env situation .verifyAudit _ = _ at hresult
    unfold handleControl
    rw [hresult]
    rfl

/-! ## A life of the daemon -/

/-- Two records are kept; the second start meets a lower limit after a death, and
one of its store calls is refused. -/
def prunedLife : List DaemonOp :=
  [.start (sampleSituation (liveConfig [] [])) 0 true, .event bareHost panicEvent, .kill,
    .start (sampleSituation (liveConfig [] [])) 2 true, .event bareHost (eventAt .tick 3),
    .event bareHost (eventAt .tick 4)]

theorem prunedLife_limits : ∀ op ∈ prunedLife, Limits FitsI64 op := by
  simp [prunedLife, Limits, FitsI64]

theorem exists_prunedLife : ∃ daemon,
    Execution.run (Daemon.step (sampleEnv [(9, .fails "disk is full")])) (Daemon.down emptyStore)
      prunedLife = some daemon ∧
    daemon.runtime.isSome = true ∧ daemon.store.maxRecords = 2 ∧ daemon.calls = 11 ∧
    daemon.store.database.audit.map (·.id) = [3, 4] := by
  have hrun : (Execution.run (Daemon.step (sampleEnv [(9, .fails "disk is full")]))
      (Daemon.down emptyStore) prunedLife).map (fun daemon =>
        (daemon.runtime.isSome, daemon.store.maxRecords, daemon.calls,
          daemon.store.database.audit.map (·.id))) = some (true, 2, 11, [3, 4]) := by
    decide +kernel
  obtain ⟨daemon, hdaemon, hvalues⟩ := Option.map_eq_some_iff.mp hrun
  simp only [Prod.mk.injEq] at hvalues
  exact ⟨daemon, hdaemon, hvalues⟩

theorem audit_follows_commits_pruned : ∃ daemon rows,
    Execution.run (Daemon.step (sampleEnv [(9, .fails "disk is full")])) (Daemon.down emptyStore)
      prunedLife = some daemon ∧
    rows.map AuditRow.heading = daemon.trace.filterMap Mark.heading? ∧
    rows.map (·.id) = List.range' 1 rows.length ∧
    daemon.store.database.audit <:+ rows ∧
    daemon.store.recent 1 = rows.reverse.take 1 ∧ daemon.store.database.audit.length ≤ 2 := by
  obtain ⟨daemon, hrun, hup, hlimit, _, hids⟩ := exists_prunedLife
  have hlength : daemon.store.database.audit.length = 2 := by
    rw [← List.length_map (fun row : AuditRow => row.id), hids]
    rfl
  obtain ⟨rows, hheadings, hnumbers, hsuffix, hrecent, hwithin⟩ := audit_follows_commits
    (sampleEnv [(9, .fails "disk is full")]) prunedLife daemon prunedLife_limits hrun
  rw [hlimit] at hwithin
  have hone := hrecent 1
  rw [hlength] at hone
  exact ⟨daemon, rows, hrun, hheadings, hnumbers, hsuffix, hone, hwithin hup (by decide)⟩

theorem own_audit_verifies_pruned : ∃ daemon,
    Execution.run (Daemon.step (sampleEnv [(9, .fails "disk is full")])) (Daemon.down emptyStore)
      prunedLife = some daemon ∧
    daemon.store.database.verify sumDigest = .ok 2 ∧
    (Journal.verify (sampleEnv [(9, .fails "disk is full")]) daemon.toJournal).1 ≠
      .error (.failed "disk is full") := by
  obtain ⟨daemon, hrun, _, _, hcalls, hids⟩ := exists_prunedLife
  have hlength : daemon.store.database.audit.length = 2 := by
    rw [← List.length_map (fun row : AuditRow => row.id), hids]
    rfl
  obtain ⟨hverify, hrefused, _⟩ := own_audit_verifies
    (sampleEnv [(9, .fails "disk is full")]) prunedLife daemon prunedLife_limits hrun
  rw [hlength] at hverify
  refine ⟨daemon, hrun, hverify, fun herror => ?_⟩
  have hanswer := hrefused _ herror
  rw [hcalls] at hanswer
  cases hanswer

end Kovert
