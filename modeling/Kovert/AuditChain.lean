import Kovert.AuditStore

/-!
# The audit chain along runs of the store

A run starts from an empty database and appends records, sets the runtime's
state keys and reopens the database under other limits. `appended` collects the
records of the committed appends. The retained rows are always a suffix of it,
and the stored anchor is the digest of the record just before that suffix: this
is where `append`, `prune` and `verify` have to agree.
-/

namespace Kovert

open HashChain

inductive AuditOp where
  | append (timestamp : String) (eventId : Option String) (kind : String)
      (ruleId : Option String) (payload : String)
  | setState (key value : String)
  | reopen (maxRecords : ℕ)

/-- The store and the records committed so far, in order. -/
structure AuditRun where
  store : AuditStore
  appended : List AuditRow

/-- The keys the runtime sets. -/
def runtimeKeys : List String := ["mode", "recovery_mode", "network_isolated"]

/-- Limits at most `i64::MAX` and only the runtime's own state keys. -/
def AuditOp.Allowed : AuditOp → Prop
  | .append .. => True
  | .setState key _ => key ∈ runtimeKeys
  | .reopen maxRecords => maxRecords < 2 ^ 63

namespace AuditRun

def start (maxRecords : ℕ) : AuditRun where
  store := .openStore .empty maxRecords
  appended := []

/-- An append that fails is rolled back. -/
def step (blake3 : List UInt8 → String) (run : AuditRun) : AuditOp → AuditRun
  | .append timestamp eventId kind ruleId payload =>
    match run.store.append blake3 timestamp eventId kind ruleId payload with
    | .error _ => run
    | .ok (store, row) => { store := store, appended := run.appended ++ [row] }
  | .setState key value => { run with store := run.store.setState key value }
  | .reopen maxRecords => { run with store := .openStore run.store.database maxRecords }

def after (blake3 : List UInt8 → String) (maxRecords : ℕ) (ops : List AuditOp) : AuditRun :=
  ops.foldl (step blake3) (start maxRecords)

theorem after_snoc (blake3 : List UInt8 → String) (maxRecords : ℕ) (ops : List AuditOp)
    (op : AuditOp) :
    after blake3 maxRecords (ops ++ [op]) = step blake3 (after blake3 maxRecords ops) op := by
  rw [after, List.foldl_append]
  rfl

/-- The committed records form one chain from the genesis hash; `pruned` of them
are gone and the anchor stands at their end. -/
structure Retains (blake3 : List UInt8 → String) (run : AuditRun) : Prop where
  limit : run.store.maxRecords < 2 ^ 63
  linked : Chained genesisHash (rowFields run.appended)
  authentic : ∀ fields ∈ rowFields run.appended, fields.Authentic blake3
  retained : ∃ pruned, run.appended = pruned ++ run.store.database.audit ∧
    run.store.database.anchor = tip AuditFields.hash genesisHash (rowFields pruned)

theorem retains_start (blake3 : List UInt8 → String) {maxRecords : ℕ}
    (hmax : maxRecords < 2 ^ 63) : Retains blake3 (start maxRecords) :=
  ⟨hmax, trivial, fun _ h => (by cases h), [], rfl, rfl⟩

variable {blake3 : List UInt8 → String} {run : AuditRun}

theorem Retains.verify (h : Retains blake3 run) :
    run.store.database.verify blake3 = .ok run.store.database.audit.length := by
  obtain ⟨pruned, happended, hanchor⟩ := h.retained
  have hlinked := h.linked
  have hauthentic := h.authentic
  rw [happended, rowFields_append] at hlinked hauthentic
  rw [Database.verify_eq_ok]
  refine ⟨?_, ?_, rfl⟩
  · rw [hanchor]
    exact (linked_append.mp hlinked).2
  · intro fields hfields
    exact hauthentic fields (List.mem_append_right _ hfields)

/-- The next record is linked to the last one committed. -/
theorem Retains.previousHash (h : Retains blake3 run) :
    run.store.database.previousHash =
      tip AuditFields.hash genesisHash (rowFields run.appended) := by
  obtain ⟨pruned, happended, hanchor⟩ := h.retained
  rw [Database.previousHash_eq_tip, hanchor, happended, rowFields_append, tip_append]
  rfl

theorem retained_after_prune {inserted pruned : Database} {maxRecords : ℕ}
    {front : List AuditRow} {history : List AuditRow} (hmax : maxRecords < 2 ^ 63)
    (hhistory : history = front ++ inserted.audit)
    (hanchor : inserted.anchor = tip AuditFields.hash genesisHash (rowFields front))
    (hprune : inserted.prune maxRecords = .ok pruned) :
    ∃ front', history = front' ++ pruned.audit ∧
      pruned.anchor = tip AuditFields.hash genesisHash (rowFields front') := by
  by_cases hzero : maxRecords = 0
  · simp only [Database.prune, hzero, if_true, Except.ok.injEq] at hprune
    subst hprune
    exact ⟨front, hhistory, hanchor⟩
  · obtain ⟨pruned', hpruned', haudit, hnewAnchor⟩ :=
      inserted.prune_eq (Nat.pos_of_ne_zero hzero) hmax
    cases hprune.symm.trans hpruned'
    refine ⟨front ++ inserted.audit.take (inserted.audit.length - maxRecords), ?_, ?_⟩
    · rw [haudit, List.append_assoc, List.take_append_drop, hhistory]
    · rw [hnewAnchor, hanchor, rowFields_append, tip_append]

theorem Retains.append {timestamp : String} {eventId : Option String} {kind : String}
    {ruleId : Option String} {payload : String} {store : AuditStore} {row : AuditRow}
    (h : Retains blake3 run)
    (hok : run.store.append blake3 timestamp eventId kind ruleId payload = .ok (store, row)) :
    Retains blake3 { store := store, appended := run.appended ++ [row] } := by
  obtain ⟨hfields, hlimit, inserted, haudit, hanchor, hprune⟩ := AuditStore.append_eq_ok hok
  obtain ⟨front, happended, hfront⟩ := h.retained
  have hrow : rowFields [row] = [row.toAuditFields] := rfl
  refine ⟨hlimit ▸ h.limit, ?_, ?_, ?_⟩
  · rw [rowFields_append, hrow]
    refine linked_snoc.mpr ⟨h.linked, ?_⟩
    rw [hfields, ← h.previousHash]
    rfl
  · intro fields hmem
    rw [rowFields_append, hrow] at hmem
    rcases List.mem_append.mp hmem with hmem | hmem
    · exact h.authentic fields hmem
    · rw [List.mem_singleton.mp hmem, hfields]
      rfl
  · refine retained_after_prune h.limit ?_ (hanchor.trans hfront) hprune
    rw [haudit, ← List.append_assoc, ← happended]

theorem Retains.step (h : Retains blake3 run) {op : AuditOp} (hop : op.Allowed) :
    Retains blake3 (run.step blake3 op) := by
  cases op with
  | append timestamp eventId kind ruleId payload =>
      simp only [AuditRun.step]
      split
      · exact h
      · next store row hok => exact h.append hok
  | setState key value =>
      have hkey : "audit_anchor" ≠ key := by
        rintro rfl
        revert hop
        simp [AuditOp.Allowed, runtimeKeys]
      have hanchor : (run.store.setState key value).database.anchor =
          run.store.database.anchor := by
        simp [AuditStore.setState, Database.upsertState, Database.anchor, hkey]
      obtain ⟨front, happended, hfront⟩ := h.retained
      exact ⟨h.limit, h.linked, h.authentic, front, happended, hanchor.trans hfront⟩
  | reopen maxRecords => exact ⟨hop, h.linked, h.authentic, h.retained⟩

theorem retains_after (blake3 : List UInt8 → String) {maxRecords : ℕ} {ops : List AuditOp}
    (hmax : maxRecords < 2 ^ 63) (hops : ∀ op ∈ ops, op.Allowed) :
    Retains blake3 (after blake3 maxRecords ops) := by
  induction ops using List.reverseRecOn with
  | nil => exact retains_start blake3 hmax
  | append_singleton ops op ih =>
      rw [after_snoc]
      exact (ih fun op hop => hops op (List.mem_append_left _ hop)).step (hops op (by simp))

/-- What a committed append retains. -/
theorem Retains.audit_eq {timestamp : String} {eventId : Option String} {kind : String}
    {ruleId : Option String} {payload : String} {store : AuditStore} {row : AuditRow}
    (h : Retains blake3 run)
    (hok : run.store.append blake3 timestamp eventId kind ruleId payload = .ok (store, row))
    (hpos : 0 < run.store.maxRecords) :
    store.database.audit = (run.appended ++ [row]).rtake
      (min run.store.maxRecords (run.store.database.audit.length + 1)) := by
  obtain ⟨_, _, inserted, haudit, _, hprune⟩ := AuditStore.append_eq_ok hok
  obtain ⟨pruned, hpruned, hdrop, _⟩ := inserted.prune_eq hpos h.limit
  obtain ⟨front, happended, _⟩ := h.retained
  cases hprune.symm.trans hpruned
  have hhistory : run.appended ++ [row] = front ++ inserted.audit := by
    rw [haudit, ← List.append_assoc, ← happended]
  have hlength : inserted.audit.length = run.store.database.audit.length + 1 := by
    rw [haudit, List.length_append, List.length_singleton]
  have hsplit : (front ++ inserted.audit).length -
      min run.store.maxRecords (run.store.database.audit.length + 1) =
      front.length + (inserted.audit.length - run.store.maxRecords) := by
    rw [List.length_append]
    omega
  rw [hdrop, hhistory, List.rtake, hsplit, List.drop_length_add_append]

end AuditRun

/-! ## Collisions -/

/-- The digest behaves on these records as a collision-free hash: 64 hexadecimal
digits, different for different inputs and never the genesis hash. -/
structure CollisionFree (blake3 : List UInt8 → String) (records : List AuditFields) : Prop where
  hex : ∀ input, (utf8 (blake3 input)).length = 64
  injective : ∀ left ∈ records, ∀ right ∈ records,
    blake3 left.stream = blake3 right.stream → left.stream = right.stream
  genesis : ∀ fields ∈ records, blake3 fields.stream ≠ genesisHash

theorem utf8_injective : Function.Injective utf8 := by
  intro left right h
  have hdata : left.toByteArray.data = right.toByteArray.data := Array.toList_inj.mp h
  exact String.toByteArray_inj.mp (ByteArray.ext hdata)

/-- The first value framed in the stream is the previous hash. -/
theorem previousHash_eq_of_stream_eq {left right : AuditFields}
    (hleft : (utf8 left.previousHash).length < 2 ^ 64)
    (hright : (utf8 right.previousHash).length < 2 ^ 64) (h : left.stream = right.stream) :
    left.previousHash = right.previousHash := by
  have hpow : (2 : ℕ) ^ 64 = 256 ^ 8 := by norm_num
  rw [hpow] at hleft hright
  exact utf8_injective (LengthDelimited.frame_append_inj hleft hright h).1

namespace AuditRun

/-- With a collision-free hash the digests along the history are distinct, so
the UNIQUE column accepts the next record. -/
theorem Retains.fresh {run : AuditRun} {blake3 : List UInt8 → String} {timestamp : String}
    {eventId : Option String} {kind : String} {ruleId : Option String} {payload : String}
    (h : Retains blake3 run)
    (hfree : CollisionFree blake3 (rowFields run.appended ++
      [run.store.nextRecord blake3 timestamp eventId kind ruleId payload])) :
    (run.store.nextRecord blake3 timestamp eventId kind ruleId payload).hash ∉
      run.store.database.audit.map (·.hash) := by
  set next := run.store.nextRecord blake3 timestamp eventId kind ruleId payload with hnext
  have hlinked : Chained genesisHash (rowFields run.appended ++ [next]) :=
    linked_snoc.mpr ⟨h.linked, h.previousHash⟩
  have hauthentic : ∀ fields ∈ rowFields run.appended ++ [next], fields.Authentic blake3 := by
    intro fields hmem
    rcases List.mem_append.mp hmem with hmem | hmem
    · exact h.authentic fields hmem
    · rw [List.mem_singleton.mp hmem]
      rfl
  have hshort : ∀ fields ∈ rowFields run.appended ++ [next],
      (utf8 fields.previousHash).length < 2 ^ 64 := by
    intro fields hmem
    rcases hlinked.previous_cases hmem with hgenesis | ⟨feeder, hfeeder, heq⟩
    · rw [hgenesis]
      decide
    · rw [heq, ← hauthentic feeder hfeeder, hfree.hex]
      norm_num
  have hnodup : ((rowFields run.appended ++ [next]).map AuditFields.hash).Nodup := by
    apply hlinked.nodup
    · intro left hleft right hright heq
      rw [← hauthentic left hleft, ← hauthentic right hright] at heq
      exact previousHash_eq_of_stream_eq (hshort left hleft) (hshort right hright)
        (hfree.injective left hleft right hright heq)
    · intro fields hmem
      rw [← hauthentic fields hmem]
      exact hfree.genesis fields hmem
  obtain ⟨front, happended, _⟩ := h.retained
  rw [happended, rowFields_append, List.append_assoc, List.map_append, List.nodup_append] at hnodup
  have hretained := hnodup.2.1
  rw [List.map_append, List.nodup_append] at hretained
  intro hmem
  refine hretained.2.2 next.hash ?_ next.hash (by simp) rfl
  rw [rowFields, List.map_map]
  exact hmem

end AuditRun

/-- After any run of the store the chain verifies, and the next append commits
when the hash is collision-free and retains exactly the records the limit asks
for. -/
theorem audit_chain_verifies (blake3 : List UInt8 → String) (maxRecords : ℕ)
    (ops : List AuditOp) (run : AuditRun) (hmax : maxRecords < 2 ^ 63)
    (hops : ∀ op ∈ ops, op.Allowed) (hrun : AuditRun.after blake3 maxRecords ops = run) :
    run.store.database.verify blake3 = .ok run.store.database.audit.length ∧
    ∀ timestamp eventId kind ruleId payload,
      (CollisionFree blake3 (rowFields run.appended ++
          [run.store.nextRecord blake3 timestamp eventId kind ruleId payload]) →
        ∃ store row,
          run.store.append blake3 timestamp eventId kind ruleId payload = .ok (store, row)) ∧
      ∀ store row,
        run.store.append blake3 timestamp eventId kind ruleId payload = .ok (store, row) →
        store.database.verify blake3 = .ok store.database.audit.length ∧
        (0 < run.store.maxRecords → store.database.audit = (run.appended ++ [row]).rtake
          (min run.store.maxRecords (run.store.database.audit.length + 1))) := by
  have hinv : AuditRun.Retains blake3 run := hrun ▸ AuditRun.retains_after blake3 hmax hops
  refine ⟨hinv.verify, ?_⟩
  intro timestamp eventId kind ruleId payload
  refine ⟨fun hfree => AuditStore.append_ok hinv.limit (hinv.fresh hfree), ?_⟩
  intro store row hok
  exact ⟨(hinv.append hok).verify, hinv.audit_eq hok⟩

/-! ## Sample records with their BLAKE3 digests -/

def startedRecord : AuditFields where
  timestamp := "2026-01-01T00:00:00+00:00"
  eventId := none
  kind := "daemon_started"
  ruleId := none
  payload := "[]"
  previousHash := genesisHash
  hash := "7cf13c4f24be30dcc18092aa28950fa697fb4297e88d47ef650f703cbb35ff2a"

def eventRecord : AuditFields where
  timestamp := "2026-01-01T00:00:01+00:00"
  eventId := some "e1"
  kind := "event"
  ruleId := none
  payload := "[]"
  previousHash := startedRecord.hash
  hash := "6a4bc3edb0d802bcd39eb4872f54b2419f0f613f263a5a94761a698652b8aef4"

def actionRecord : AuditFields where
  timestamp := "2026-01-01T00:00:02+00:00"
  eventId := some "e1"
  kind := "action_started"
  ruleId := some "r1"
  payload := "[]"
  previousHash := eventRecord.hash
  hash := "35fb1b35f9ef0e8f03edaa24a7b193283d693c3b18184b511af90f4c44e013be"

def sampleRecords : List AuditFields := [startedRecord, eventRecord, actionRecord]

/-- BLAKE3 on the inputs of the sample records. -/
def sampleDigest (input : List UInt8) : String :=
  ((sampleRecords.find? (fun fields => fields.stream = input)).map (·.hash)).getD
    "ffffffffffffffffffffffffffffffffffffffffffffffffffffffffffffffff"

theorem sampleDigest_collisionFree : CollisionFree sampleDigest sampleRecords := by
  refine ⟨?_, by decide +kernel, by decide +kernel⟩
  intro input
  have hhashes : ∀ fields ∈ sampleRecords, (utf8 fields.hash).length = 64 := by decide +kernel
  unfold sampleDigest
  cases hfind : sampleRecords.find? (fun fields => fields.stream = input) with
  | none => decide
  | some fields => exact hhashes fields (List.mem_of_find?_eq_some hfind)

def sampleOps : List AuditOp :=
  [.append "2026-01-01T00:00:00+00:00" none "daemon_started" none "[]", .setState "mode" "away",
    .append "2026-01-01T00:00:01+00:00" (some "e1") "event" none "[]", .reopen 2]

/-- The third record pushes the first out of a store reopened with room for two. -/
theorem audit_chain_verifies_sample :
    (AuditRun.after sampleDigest 0 sampleOps).store.database.verify sampleDigest = .ok 2 ∧
      ∃ store row, (AuditRun.after sampleDigest 0 sampleOps).store.append sampleDigest
          "2026-01-01T00:00:02+00:00" (some "e1") "action_started" (some "r1") "[]" =
          .ok (store, row) ∧
        store.database.verify sampleDigest = .ok store.database.audit.length ∧
        store.database.audit =
          ((AuditRun.after sampleDigest 0 sampleOps).appended ++ [row]).rtake 2 := by
  obtain ⟨hverify, happend⟩ := audit_chain_verifies sampleDigest 0 sampleOps _ (by norm_num)
    (by simp [sampleOps, AuditOp.Allowed, runtimeKeys]) rfl
  obtain ⟨hcommits, hretains⟩ := happend "2026-01-01T00:00:02+00:00" (some "e1") "action_started"
    (some "r1") "[]"
  have hrecords : rowFields (AuditRun.after sampleDigest 0 sampleOps).appended ++
      [(AuditRun.after sampleDigest 0 sampleOps).store.nextRecord sampleDigest
        "2026-01-01T00:00:02+00:00" (some "e1") "action_started" (some "r1") "[]"] =
      sampleRecords := by decide +kernel
  have hlength : (AuditRun.after sampleDigest 0 sampleOps).store.database.audit.length = 2 := by
    decide +kernel
  have hlimit : (AuditRun.after sampleDigest 0 sampleOps).store.maxRecords = 2 := rfl
  rw [hlength] at hverify
  rw [hrecords] at hcommits
  rw [hlength, hlimit] at hretains
  obtain ⟨store, row, hok⟩ := hcommits sampleDigest_collisionFree
  obtain ⟨hafter, haudit⟩ := hretains store row hok
  exact ⟨hverify, store, row, hok, hafter, haudit (by decide)⟩

end Kovert
