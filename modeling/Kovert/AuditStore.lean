import Kovert.Foundations.HashChain
import Kovert.Foundations.LengthDelimited
import Mathlib.Data.List.DropRight
import Mathlib.Data.List.Nodup
import Mathlib.Tactic.NormNum

/-!
# The audit store

`AuditStore` of `kovert-daemon/src/audit.rs` over the two SQLite tables it
uses. A `Database` carries what the schema guarantees: ids increase, none is
above the AUTOINCREMENT counter, and the `hash` column is unique. A transaction
that returns an error is rolled back. `blake3` stands for the hexadecimal
BLAKE3 digest of a byte stream; the clock's text and the serialized payload of
an appended record are inputs.
-/

namespace Kovert

open HashChain LengthDelimited

def genesisHash : String :=
  "0000000000000000000000000000000000000000000000000000000000000000"

/-- The columns of an audit row that the digest is about, and the digest. -/
structure AuditFields where
  timestamp : String
  eventId : Option String
  kind : String
  ruleId : Option String
  payload : String
  previousHash : String
  hash : String
  deriving DecidableEq, Repr

structure AuditRow extends AuditFields where
  id : ℕ
  deriving DecidableEq, Repr

/-- `str::as_bytes`. -/
def utf8 (text : String) : List UInt8 := text.toByteArray.data.toList

/-- The bytes `record_hash` feeds to the hasher. -/
def recordStream (previousHash timestamp : String) (eventId : Option String) (kind : String)
    (ruleId : Option String) (payload : String) : List UInt8 :=
  stream 8 ([previousHash, timestamp, eventId.getD "", kind, ruleId.getD "", payload].map utf8)

def recordHash (blake3 : List UInt8 → String) (previousHash timestamp : String)
    (eventId : Option String) (kind : String) (ruleId : Option String) (payload : String) :
    String :=
  blake3 (recordStream previousHash timestamp eventId kind ruleId payload)

/-- The `audit` table in id order and the `state` table. -/
structure Database where
  audit : List AuditRow
  lastId : ℕ
  state : String → Option String
  ordered : audit.Pairwise (fun left right => left.id < right.id)
  allocated : ∀ row ∈ audit, row.id ≤ lastId
  unique : (audit.map (·.hash)).Nodup

structure AuditStore where
  database : Database
  maxRecords : ℕ

namespace Database

def empty : Database where
  audit := []
  lastId := 0
  state := fun _ => none
  ordered := List.Pairwise.nil
  allocated := by simp
  unique := List.nodup_nil

/-- The stored `audit_anchor`, or the genesis hash. -/
def anchor (db : Database) : String := (db.state "audit_anchor").getD genesisHash

/-- `SELECT hash FROM audit ORDER BY id DESC LIMIT 1`, or the anchor. -/
def previousHash (db : Database) : String := (db.audit.getLast?.map (·.hash)).getD db.anchor

def upsertState (db : Database) (key value : String) : Database :=
  { db with state := Function.update db.state key (some value) }

def insertAudit (db : Database) (fields : AuditFields) : Except String (Database × AuditRow) :=
  if h : fields.hash ∈ db.audit.map (·.hash) then .error "UNIQUE constraint failed: audit.hash"
  else
    let row : AuditRow := { fields with id := db.lastId + 1 }
    .ok
      ({ db with
          audit := db.audit ++ [row]
          lastId := db.lastId + 1
          ordered := by
            rw [List.pairwise_append]
            refine ⟨db.ordered, List.pairwise_singleton _ _, ?_⟩
            intro left hleft right hright
            rw [List.mem_singleton.mp hright]
            exact Nat.lt_succ_of_le (db.allocated left hleft)
          allocated := by
            intro left hleft
            rcases List.mem_append.mp hleft with hleft | hleft
            · exact Nat.le_succ_of_le (db.allocated left hleft)
            · rw [List.mem_singleton.mp hleft]
          unique := by
            rw [List.map_append, List.nodup_append]
            refine ⟨db.unique, List.nodup_singleton _, ?_⟩
            intro left hleft right hright heq
            rw [List.map_singleton, List.mem_singleton] at hright
            exact h (hright ▸ heq ▸ hleft) },
        row)

/-- `DELETE FROM audit WHERE id <= cutoff`. -/
def deleteThrough (db : Database) (cutoff : ℕ) : Database :=
  { db with
    audit := db.audit.filter (fun row => cutoff < row.id)
    ordered := db.ordered.filter _
    allocated := fun row hrow => db.allocated row (List.mem_of_mem_filter hrow)
    unique := db.unique.sublist (List.filter_sublist.map _) }

/-- `as i64` on a 64-bit target. -/
def asI64 (n : ℕ) : ℤ := (n : ℤ).bmod (2 ^ 64)

def prune (db : Database) (maxRecords : ℕ) : Except String Database :=
  if maxRecords = 0 then .ok db else
  let count : ℤ := db.audit.length
  let excess := max (count - asI64 maxRecords) 0
  if excess = 0 then .ok db else
  match db.audit[(excess - 1).toNat]? with
  | none => .error "select audit retention anchor: Query returned no rows"
  | some row => .ok ((db.deleteThrough row.id).upsertState "audit_anchor" row.hash)

/-- The loop of `verify`. -/
def verifyRows (blake3 : List UInt8 → String) : String → ℕ → List AuditRow → Except String ℕ
  | _, verified, [] => .ok verified
  | previous, verified, row :: rows =>
    if row.previousHash ≠ previous then
      .error ("audit chain break before record " ++ toString row.id)
    else if recordHash blake3 previous row.timestamp row.eventId row.kind row.ruleId row.payload ≠
        row.hash then
      .error ("audit record " ++ toString row.id ++ " digest mismatch")
    else verifyRows blake3 row.hash (verified + 1) rows

def verify (blake3 : List UInt8 → String) (db : Database) : Except String ℕ :=
  verifyRows blake3 db.anchor 0 db.audit

end Database

namespace AuditStore

/-- `AuditStore::open` on an existing database. -/
def openStore (database : Database) (maxRecords : ℕ) : AuditStore where
  database := database
  maxRecords := maxRecords

def setState (store : AuditStore) (key value : String) : AuditStore :=
  { store with database := store.database.upsertState key value }

def append (blake3 : List UInt8 → String) (store : AuditStore) (timestamp : String)
    (eventId : Option String) (kind : String) (ruleId : Option String) (payload : String) :
    Except String (AuditStore × AuditRow) :=
  let previousHash := store.database.previousHash
  let hash := recordHash blake3 previousHash timestamp eventId kind ruleId payload
  match store.database.insertAudit
      ⟨timestamp, eventId, kind, ruleId, payload, previousHash, hash⟩ with
  | .error message => .error message
  | .ok (inserted, row) =>
    match inserted.prune store.maxRecords with
    | .error message => .error message
    | .ok pruned => .ok ({ store with database := pruned }, row)

end AuditStore

/-! ## What the operations do to the chain -/

namespace AuditFields

def stream (fields : AuditFields) : List UInt8 :=
  recordStream fields.previousHash fields.timestamp fields.eventId fields.kind fields.ruleId
    fields.payload

/-- The stored hash is the digest of the record. -/
def Authentic (blake3 : List UInt8 → String) (fields : AuditFields) : Prop :=
  blake3 fields.stream = fields.hash

instance (blake3 : List UInt8 → String) (fields : AuditFields) :
    Decidable (fields.Authentic blake3) :=
  inferInstanceAs (Decidable (_ = _))

end AuditFields

/-- The records form one chain from the anchor. -/
abbrev Chained (anchor : String) (records : List AuditFields) : Prop :=
  Linked AuditFields.previousHash AuditFields.hash anchor records

def rowFields (rows : List AuditRow) : List AuditFields := rows.map AuditRow.toAuditFields

@[simp] theorem rowFields_append (rows rest : List AuditRow) :
    rowFields (rows ++ rest) = rowFields rows ++ rowFields rest := List.map_append

@[simp] theorem rowFields_length (rows : List AuditRow) : (rowFields rows).length = rows.length :=
  List.length_map _

namespace Database

def records (db : Database) : List AuditFields := rowFields db.audit

theorem verifyRows_eq_ok {blake3 : List UInt8 → String} {previous : String} {verified n : ℕ}
    {rows : List AuditRow} :
    verifyRows blake3 previous verified rows = .ok n ↔
      Chained previous (rowFields rows) ∧ (∀ fields ∈ rowFields rows, fields.Authentic blake3) ∧
        n = verified + rows.length := by
  induction rows generalizing previous verified with
  | nil =>
      simp only [verifyRows, Except.ok.injEq]
      constructor
      · rintro rfl
        exact ⟨trivial, by simp [rowFields], rfl⟩
      · rintro ⟨_, _, rfl⟩
        rfl
  | cons row rows ih =>
      have hcons : rowFields (row :: rows) = row.toAuditFields :: rowFields rows := rfl
      have hlinked : Chained previous (row.toAuditFields :: rowFields rows) ↔
          row.previousHash = previous ∧ Chained row.hash (rowFields rows) := Iff.rfl
      rw [verifyRows, hcons, hlinked, List.forall_mem_cons, List.length_cons]
      by_cases hlink : row.previousHash = previous
      · subst hlink
        have hauthentic : recordHash blake3 row.previousHash row.timestamp row.eventId row.kind
            row.ruleId row.payload = row.hash ↔ row.toAuditFields.Authentic blake3 := Iff.rfl
        by_cases hdigest : row.toAuditFields.Authentic blake3
        · rw [if_neg (not_not.mpr rfl), if_neg (not_not.mpr (hauthentic.mpr hdigest)), ih]
          constructor
          · rintro ⟨hrest, hall, rfl⟩
            exact ⟨⟨rfl, hrest⟩, ⟨hdigest, hall⟩, by omega⟩
          · rintro ⟨⟨_, hrest⟩, ⟨_, hall⟩, rfl⟩
            exact ⟨hrest, hall, by omega⟩
        · rw [if_neg (not_not.mpr rfl), if_pos (mt hauthentic.mp hdigest)]
          simp [hdigest]
      · rw [if_pos hlink]
        simp [hlink]

/-- `verify` accepts exactly the chains of authentic records that start at the
stored anchor, and counts them. -/
theorem verify_eq_ok {blake3 : List UInt8 → String} {db : Database} {n : ℕ} :
    db.verify blake3 = .ok n ↔ Chained db.anchor db.records ∧
      (∀ fields ∈ db.records, fields.Authentic blake3) ∧ n = db.audit.length := by
  rw [verify, verifyRows_eq_ok, Nat.zero_add]
  rfl

theorem previousHash_eq_tip (db : Database) :
    db.previousHash = tip AuditFields.hash db.anchor db.records := by
  rcases List.eq_nil_or_concat db.audit with h | ⟨rows, row, h⟩
  · rw [previousHash, records, h]
    rfl
  · have htip := @tip_snoc _ _ AuditFields.hash db.anchor (rowFields rows) row.toAuditFields
    rw [previousHash, records, h, List.concat_eq_append, rowFields_append, List.getLast?_concat]
    exact htip.symm

theorem filter_lt_eq_drop {rows : List AuditRow}
    (h : rows.Pairwise (fun left right => left.id < right.id)) {k : ℕ} {row : AuditRow}
    (hk : rows[k]? = some row) :
    rows.filter (fun other => row.id < other.id) = rows.drop (k + 1) := by
  have hsplit : rows = rows.take k ++ row :: rows.drop (k + 1) := by
    obtain ⟨hlt, rfl⟩ := List.getElem?_eq_some_iff.mp hk
    rw [← List.drop_eq_getElem_cons hlt, List.take_append_drop]
  rw [hsplit] at h
  obtain ⟨_, hrest, hbefore⟩ := List.pairwise_append.mp h
  have hafter := (List.pairwise_cons.mp hrest).1
  conv_lhs => rw [hsplit]
  rw [List.filter_append, List.filter_cons_of_neg (by simp), List.filter_eq_nil_iff.mpr,
    List.nil_append, List.filter_eq_self.mpr]
  · intro other hother
    exact decide_eq_true (hafter other hother)
  · intro other hother
    have hlt := hbefore other hother row List.mem_cons_self
    simp only [decide_eq_true_eq]
    omega

theorem asI64_eq {n : ℕ} (h : n < 2 ^ 63) : asI64 n = n := by
  have hlt : (n : ℤ) < 9223372036854775808 := by exact_mod_cast h
  unfold asI64
  apply Int.bmod_eq_of_le
  · norm_num
  · norm_num
    omega

/-- Retention drops the excess from the front and moves the anchor to the last
record dropped. -/
theorem prune_eq (db : Database) {maxRecords : ℕ} (hpos : 0 < maxRecords)
    (hmax : maxRecords < 2 ^ 63) :
    ∃ pruned, db.prune maxRecords = .ok pruned ∧
      pruned.audit = db.audit.drop (db.audit.length - maxRecords) ∧
      pruned.anchor = tip AuditFields.hash db.anchor
        (rowFields (db.audit.take (db.audit.length - maxRecords))) := by
  simp only [prune, asI64_eq hmax]
  rw [if_neg (by omega)]
  by_cases hle : db.audit.length ≤ maxRecords
  · have hzero : db.audit.length - maxRecords = 0 := by omega
    rw [if_pos (by omega), hzero]
    exact ⟨db, rfl, rfl, rfl⟩
  · have hexcess : (max ((db.audit.length : ℤ) - maxRecords) 0 - 1).toNat =
        db.audit.length - maxRecords - 1 := by omega
    have hlt : db.audit.length - maxRecords - 1 < db.audit.length := by omega
    have hsucc : db.audit.length - maxRecords - 1 + 1 = db.audit.length - maxRecords := by omega
    have hread := List.getElem?_eq_getElem hlt
    rw [if_neg (by omega), hexcess, hread]
    refine ⟨_, rfl, ?_, ?_⟩
    · exact (filter_lt_eq_drop db.ordered hread).trans (by rw [hsucc])
    · conv_rhs => rw [← hsucc, List.take_add_one, hread, rowFields_append]
      have hanchor : ∀ row : AuditRow,
          ((db.deleteThrough row.id).upsertState "audit_anchor" row.hash).anchor = row.hash := by
        intro row
        simp [anchor, upsertState]
      rw [hanchor]
      exact (@tip_snoc _ _ AuditFields.hash db.anchor _ _).symm

theorem prune_state {db after : Database} {maxRecords : ℕ}
    (h : db.prune maxRecords = .ok after) {key : String} (hkey : key ≠ "audit_anchor") :
    after.state key = db.state key := by
  unfold prune at h
  split at h
  · cases h
    rfl
  · simp only at h
    split at h
    · cases h
      rfl
    · split at h
      · cases h
      · cases h
        exact Function.update_of_ne hkey ..

/-- Retention without a limit, or with one below `i64::MAX`, never fails. -/
theorem prune_ok (db : Database) {maxRecords : ℕ} (hmax : maxRecords < 2 ^ 63) :
    ∃ pruned, db.prune maxRecords = .ok pruned := by
  by_cases hzero : maxRecords = 0
  · exact ⟨db, by simp [prune, hzero]⟩
  · obtain ⟨pruned, hpruned, _⟩ := prune_eq db (Nat.pos_of_ne_zero hzero) hmax
    exact ⟨pruned, hpruned⟩

end Database

namespace AuditStore

/-- The record an append writes. -/
def nextRecord (blake3 : List UInt8 → String) (store : AuditStore) (timestamp : String)
    (eventId : Option String) (kind : String) (ruleId : Option String) (payload : String) :
    AuditFields where
  timestamp := timestamp
  eventId := eventId
  kind := kind
  ruleId := ruleId
  payload := payload
  previousHash := store.database.previousHash
  hash := recordHash blake3 store.database.previousHash timestamp eventId kind ruleId payload

section Append

variable {blake3 : List UInt8 → String} {store : AuditStore} {timestamp : String}
  {eventId : Option String} {kind : String} {ruleId : Option String} {payload : String}

/-- A committed append inserts the next record after the retained rows and then prunes. -/
theorem append_eq_ok {after : AuditStore} {row : AuditRow}
    (h : store.append blake3 timestamp eventId kind ruleId payload = .ok (after, row)) :
    row.toAuditFields = store.nextRecord blake3 timestamp eventId kind ruleId payload ∧
      after.maxRecords = store.maxRecords ∧
      ∃ inserted : Database, inserted.audit = store.database.audit ++ [row] ∧
        inserted.anchor = store.database.anchor ∧
        inserted.prune store.maxRecords = .ok after.database := by
  simp only [append, Database.insertAudit] at h
  by_cases hmem : recordHash blake3 store.database.previousHash timestamp eventId kind ruleId
      payload ∈ store.database.audit.map (·.hash)
  · simp [hmem] at h
  · simp only [hmem, dite_false] at h
    split at h
    · cases h
    · next pruned hpruned =>
      cases h
      refine ⟨rfl, rfl, _, ?_, ?_, hpruned⟩
      · rfl
      · rfl

/-- Appending writes no state but the anchor. -/
theorem append_state {after : AuditStore} {row : AuditRow}
    (h : store.append blake3 timestamp eventId kind ruleId payload = .ok (after, row))
    {key : String} (hkey : key ≠ "audit_anchor") :
    after.database.state key = store.database.state key := by
  simp only [append, Database.insertAudit] at h
  by_cases hmem : recordHash blake3 store.database.previousHash timestamp eventId kind ruleId
      payload ∈ store.database.audit.map (·.hash)
  · simp [hmem] at h
  · simp only [hmem, dite_false] at h
    split at h
    · cases h
    · next pruned hpruned =>
      cases h
      exact Database.prune_state hpruned hkey

/-- Below `i64::MAX` only a repeated digest makes an append fail. -/
theorem append_ok (hmax : store.maxRecords < 2 ^ 63)
    (hfresh : (store.nextRecord blake3 timestamp eventId kind ruleId payload).hash ∉
      store.database.audit.map (·.hash)) :
    ∃ after row, store.append blake3 timestamp eventId kind ruleId payload = .ok (after, row) := by
  have hmem : recordHash blake3 store.database.previousHash timestamp eventId kind ruleId
      payload ∉ store.database.audit.map (·.hash) := hfresh
  simp only [append, Database.insertAudit, hmem, dite_false]
  split
  · next message herror =>
    obtain ⟨pruned, hpruned⟩ := Database.prune_ok _ hmax
    cases hpruned.symm.trans herror
  · exact ⟨_, _, rfl⟩

end Append

end AuditStore

end Kovert
