import Kovert.AuditChain
import Mathlib.Data.String.Basic

/-!
# What the audit chain gives away about tampering

Two verified tables with one anchor, one length and one last hash hold the same
texts in every row, but the digest input spells an absent `event_id` or
`rule_id` like an empty one. Deletion is noticed unless it takes the end of the
table, since no head is stored; reordering is always noticed.
-/

namespace Kovert

open HashChain

/-- The values of the digest input, in order. -/
def AuditFields.texts (fields : AuditFields) : List String :=
  [fields.previousHash, fields.timestamp, fields.eventId.getD "", fields.kind,
    fields.ruleId.getD "", fields.payload]

/-- Every value is shorter than `2^64` bytes, as every Rust string is. -/
def AuditFields.Fits (fields : AuditFields) : Prop :=
  ∀ text ∈ fields.texts, (utf8 text).length < 2 ^ 64

instance (fields : AuditFields) : Decidable fields.Fits :=
  inferInstanceAs (Decidable (∀ text ∈ fields.texts, (utf8 text).length < 2 ^ 64))

/-- One of the two columns is NULL and the other holds the empty string. -/
def NullClash (left right : Option String) : Prop :=
  left = none ∧ right = some "" ∨ left = some "" ∧ right = none

/-- The optional columns of the two records differ nowhere as NULL against empty. -/
def SameNulls (left right : AuditFields) : Prop :=
  ¬ NullClash left.eventId right.eventId ∧ ¬ NullClash left.ruleId right.ruleId

/-- Framed texts that fit their headers are read back from the stream. -/
theorem stream_utf8_inj {left right : List String} (hcount : left.length = right.length)
    (hleft : ∀ text ∈ left, (utf8 text).length < 2 ^ 64)
    (hright : ∀ text ∈ right, (utf8 text).length < 2 ^ 64)
    (h : LengthDelimited.stream 8 (left.map utf8) = LengthDelimited.stream 8 (right.map utf8)) :
    left = right := by
  have hpow : (2 : ℕ) ^ 64 = 256 ^ 8 := by norm_num
  have hfits : ∀ texts : List String, (∀ text ∈ texts, (utf8 text).length < 2 ^ 64) →
      ∀ bytes ∈ texts.map utf8, bytes.length < 256 ^ 8 := by
    intro texts htexts bytes hbytes
    obtain ⟨text, htext, rfl⟩ := List.mem_map.mp hbytes
    rw [← hpow]
    exact htexts text htext
  have hmap : left.map utf8 = right.map utf8 :=
    LengthDelimited.stream_inj (by rw [List.length_map, List.length_map, hcount])
      (hfits left hleft) (hfits right hright) h
  exact List.map_injective_iff.mpr utf8_injective hmap

theorem texts_eq_of_stream_eq {left right : AuditFields} (hleft : left.Fits) (hright : right.Fits)
    (h : left.stream = right.stream) : left.texts = right.texts :=
  stream_utf8_inj rfl hleft hright h

/-- The digest input determines its six values. -/
theorem recordStream_injective (previous timestamp kind payload : String)
    (eventId ruleId : Option String) (previous' timestamp' kind' payload' : String)
    (eventId' ruleId' : Option String)
    (hleft : ∀ text ∈ [previous, timestamp, eventId.getD "", kind, ruleId.getD "", payload],
      (utf8 text).length < 2 ^ 64)
    (hright : ∀ text ∈ [previous', timestamp', eventId'.getD "", kind', ruleId'.getD "", payload'],
      (utf8 text).length < 2 ^ 64)
    (h : recordStream previous timestamp eventId kind ruleId payload =
      recordStream previous' timestamp' eventId' kind' ruleId' payload') :
    (previous, timestamp, eventId.getD "", kind, ruleId.getD "", payload) =
      (previous', timestamp', eventId'.getD "", kind', ruleId'.getD "", payload') := by
  have htexts : [previous, timestamp, eventId.getD "", kind, ruleId.getD "", payload] =
      [previous', timestamp', eventId'.getD "", kind', ruleId'.getD "", payload'] :=
    stream_utf8_inj (by rfl) hleft hright h
  simpa only [List.cons.injEq, and_true, Prod.mk.injEq] using htexts

/-- A byte moved from one value to the next changes the input. -/
theorem recordStream_injective_shifted :
    recordStream "ab" "c" none "event" none "1" ≠
      recordStream "a" "bc" none "event" none "1" := by
  intro h
  have htexts := recordStream_injective _ _ _ _ _ _ _ _ _ _ _ _ (by decide +kernel)
    (by decide +kernel) h
  revert htexts
  decide

theorem eq_of_getD_eq {left right : Option String} (h : left.getD "" = right.getD "")
    (hclash : ¬ NullClash left right) : left = right := by
  cases left with
  | none =>
      cases right with
      | none => rfl
      | some text =>
          have hempty : text = "" := h.symm
          exact absurd (Or.inl ⟨rfl, congrArg some hempty⟩) hclash
  | some text =>
      cases right with
      | none =>
          have hempty : text = "" := h
          exact absurd (Or.inr ⟨congrArg some hempty, rfl⟩) hclash
      | some other =>
          have hsame : text = other := h
          rw [hsame]

theorem eq_of_texts_eq {left right : AuditFields} (htexts : left.texts = right.texts)
    (hhash : left.hash = right.hash) (hnulls : SameNulls left right) : left = right := by
  simp only [AuditFields.texts, List.cons.injEq, and_true] at htexts
  obtain ⟨hprevious, htimestamp, hevent, hkind, hrule, hpayload⟩ := htexts
  have hevent := eq_of_getD_eq hevent hnulls.1
  have hrule := eq_of_getD_eq hrule hnulls.2
  cases left
  cases right
  rw [AuditFields.mk.injEq]
  exact ⟨htimestamp, hevent, hkind, hrule, hpayload, hprevious, hhash⟩

theorem sameNulls_refl (fields : AuditFields) : SameNulls fields fields := by
  have hself : ∀ column : Option String, ¬ NullClash column column := by
    rintro column (⟨rfl, h⟩ | ⟨rfl, h⟩) <;> cases h
  exact ⟨hself _, hself _⟩

/-- The last hash commits to the texts of every record. -/
theorem records_agree_on_texts {blake3 : List UInt8 → String} {db db' : Database} {n n' : ℕ}
    (hverify : db.verify blake3 = .ok n) (hverify' : db'.verify blake3 = .ok n')
    (hanchor : db.anchor = db'.anchor) (hlength : db.audit.length = db'.audit.length)
    (hlast : db.audit.getLast?.map (·.hash) = db'.audit.getLast?.map (·.hash))
    (hfits : ∀ fields ∈ db.records ++ db'.records, fields.Fits)
    (hfree : ∀ left ∈ db.records, ∀ right ∈ db'.records,
      blake3 left.stream = blake3 right.stream → left.stream = right.stream) :
    List.Forall₂ (fun left right => left.texts = right.texts ∧ left.hash = right.hash)
      db.records db'.records := by
  obtain ⟨hchain, hauthentic, _⟩ := Database.verify_eq_ok.mp hverify
  obtain ⟨hchain', hauthentic', _⟩ := Database.verify_eq_ok.mp hverify'
  rw [← hanchor] at hchain'
  have htip : db.previousHash = db'.previousHash := by
    rw [Database.previousHash, Database.previousHash, hlast, hanchor]
  rw [Database.previousHash_eq_tip, Database.previousHash_eq_tip, ← hanchor] at htip
  refine hchain.forall₂_of_tip_eq hchain' (by simpa [Database.records] using hlength) htip ?_
  intro left hleft right hright hhash
  have hstream : left.stream = right.stream := by
    apply hfree left hleft right hright
    rw [hauthentic left hleft, hauthentic' right hright, hhash]
  have htexts := texts_eq_of_stream_eq (hfits left (List.mem_append_left _ hleft))
    (hfits right (List.mem_append_right _ hright)) hstream
  exact ⟨(List.cons.inj htexts).1, htexts, hhash⟩

/-- Verified tables with the same anchor, length and last hash hold the same
records if and only if they differ nowhere as NULL against the empty string. -/
theorem last_hash_commits_iff (blake3 : List UInt8 → String) (db db' : Database) (n n' : ℕ)
    (hverify : db.verify blake3 = .ok n) (hverify' : db'.verify blake3 = .ok n')
    (hanchor : db.anchor = db'.anchor) (hlength : db.audit.length = db'.audit.length)
    (hlast : db.audit.getLast?.map (·.hash) = db'.audit.getLast?.map (·.hash))
    (hfits : ∀ fields ∈ db.records ++ db'.records, fields.Fits)
    (hfree : ∀ left ∈ db.records, ∀ right ∈ db'.records,
      blake3 left.stream = blake3 right.stream → left.stream = right.stream) :
    db.records = db'.records ↔ List.Forall₂ SameNulls db.records db'.records := by
  constructor
  · intro heq
    rw [heq]
    exact List.forall₂_same.mpr fun fields _ => sameNulls_refl fields
  · intro hnulls
    have htexts := records_agree_on_texts hverify hverify' hanchor hlength hlast hfits hfree
    have hequal : List.Forall₂ Eq db.records db'.records := by
      refine List.Forall₂.mp ?_ htexts hnulls
      rintro left right ⟨htext, hhash⟩ hnull
      exact eq_of_texts_eq htext hhash hnull
    rwa [List.forall₂_eq_eq_eq] at hequal

/-! ## Deletion and reordering -/

/-- A table made of records of a verified table under its anchor verifies
exactly when it is an initial part of it. -/
theorem verify_rearranged_iff {blake3 : List UInt8 → String} {db db' : Database} {n : ℕ}
    (hverify : db.verify blake3 = .ok n)
    (hacyclic : Acyclic AuditFields.previousHash AuditFields.hash db.records)
    (hanchor : db'.anchor = db.anchor) (hsub : db'.records ⊆ db.records) :
    (∃ n', db'.verify blake3 = .ok n') ↔ db'.records <+: db.records := by
  obtain ⟨hchain, hauthentic, _⟩ := Database.verify_eq_ok.mp hverify
  constructor
  · rintro ⟨n', hverify'⟩
    obtain ⟨hchain', _⟩ := Database.verify_eq_ok.mp hverify'
    rw [hanchor] at hchain'
    exact hchain.initial_of_subset hacyclic hchain' hsub
  · intro hinitial
    refine ⟨db'.audit.length, Database.verify_eq_ok.mpr ⟨?_, ?_, rfl⟩⟩
    · rw [hanchor]
      exact hchain.of_initial hinitial
    · exact fun fields hfields => hauthentic fields (hsub hfields)

/-- Deleting records goes unnoticed only at the end of the table, and no
reordering goes unnoticed. -/
theorem removal_and_reordering_detected (blake3 : List UInt8 → String) (db db' : Database) (n : ℕ)
    (hverify : db.verify blake3 = .ok n)
    (hacyclic : Acyclic AuditFields.previousHash AuditFields.hash db.records)
    (hanchor : db'.anchor = db.anchor) :
    (db'.records.Sublist db.records →
      ((∃ n', db'.verify blake3 = .ok n') ↔ db'.records <+: db.records)) ∧
    (db'.records.Perm db.records → db'.records ≠ db.records →
      ¬ ∃ n', db'.verify blake3 = .ok n') := by
  constructor
  · intro hsublist
    exact verify_rearranged_iff hverify hacyclic hanchor hsublist.subset
  · intro hperm hne haccepted
    have hinitial := (verify_rearranged_iff hverify hacyclic hanchor hperm.subset).mp haccepted
    exact hne (hinitial.eq_of_length hperm.length_eq)

/-! ## Sample tables -/

def startedDatabase (eventId : Option String) : Database where
  audit := [{ startedRecord with eventId := eventId, id := 1 }]
  lastId := 1
  state := fun _ => none
  ordered := List.pairwise_singleton _ _
  allocated := by simp
  unique := List.nodup_singleton _

def eventDatabase : Database where
  audit := [{ startedRecord with id := 1 }, { eventRecord with id := 2 }]
  lastId := 3
  state := fun _ => none
  ordered := by decide
  allocated := by decide
  unique := by decide

def actionDatabase : Database where
  audit := [{ startedRecord with id := 1 }, { eventRecord with id := 2 },
    { actionRecord with id := 3 }]
  lastId := 3
  state := fun _ => none
  ordered := by decide
  allocated := by decide
  unique := by decide

/-- `actionDatabase` under other ids. -/
def renumberedDatabase : Database where
  audit := [{ startedRecord with id := 4 }, { eventRecord with id := 7 },
    { actionRecord with id := 8 }]
  lastId := 9
  state := fun _ => none
  ordered := by decide
  allocated := by decide
  unique := by decide

def gappedDatabase : Database where
  audit := [{ startedRecord with id := 1 }, { actionRecord with id := 3 }]
  lastId := 3
  state := fun _ => none
  ordered := by decide
  allocated := by decide
  unique := by decide

def swappedDatabase : Database where
  audit := [{ startedRecord with id := 1 }, { actionRecord with id := 2 },
    { eventRecord with id := 3 }]
  lastId := 3
  state := fun _ => none
  ordered := by decide
  allocated := by decide
  unique := by decide

theorem startedDatabase_verify {eventId : Option String} (h : eventId.getD "" = "") :
    (startedDatabase eventId).verify sampleDigest = .ok 1 := by
  refine Database.verify_eq_ok.mpr ⟨⟨rfl, trivial⟩, ?_, rfl⟩
  intro fields hfields
  have hstream : fields.stream = startedRecord.stream := by
    rw [List.mem_singleton.mp hfields]
    simp only [AuditFields.stream, recordStream, h]
    rfl
  have hdigest : sampleDigest startedRecord.stream = startedRecord.hash := by decide +kernel
  rw [AuditFields.Authentic, hstream, hdigest, List.mem_singleton.mp hfields]

theorem actionDatabase_verify : actionDatabase.verify sampleDigest = .ok 3 :=
  Database.verify_eq_ok.mpr ⟨⟨rfl, rfl, rfl, trivial⟩, by decide +kernel, rfl⟩

theorem actionDatabase_acyclic :
    Acyclic AuditFields.previousHash AuditFields.hash actionDatabase.records :=
  acyclic_of_rank AuditFields.timestamp (by decide +kernel)

theorem last_hash_commits_iff_renumbered :
    renumberedDatabase.verify sampleDigest = .ok 3 ∧
      actionDatabase.records = renumberedDatabase.records := by
  have hverify : renumberedDatabase.verify sampleDigest = .ok 3 :=
    Database.verify_eq_ok.mpr ⟨⟨rfl, rfl, rfl, trivial⟩, by decide +kernel, rfl⟩
  refine ⟨hverify, (last_hash_commits_iff sampleDigest actionDatabase renumberedDatabase 3 3
    actionDatabase_verify hverify rfl rfl rfl (by decide +kernel)
    sampleDigest_collisionFree.injective).mpr ?_⟩
  exact List.forall₂_same.mpr fun fields _ => sameNulls_refl fields

/-- An event id of NULL and an empty one leave the whole chain as it is. -/
theorem empty_event_id_unnoticed :
    (startedDatabase none).verify sampleDigest = .ok 1 ∧
      (startedDatabase (some "")).verify sampleDigest = .ok 1 ∧
      (startedDatabase none).anchor = (startedDatabase (some "")).anchor ∧
      (startedDatabase none).audit.length = (startedDatabase (some "")).audit.length ∧
      (startedDatabase none).audit.getLast?.map (·.hash) =
        (startedDatabase (some "")).audit.getLast?.map (·.hash) ∧
      CollisionFree sampleDigest
        ((startedDatabase none).records ++ (startedDatabase (some "")).records) ∧
      (startedDatabase none).records ≠ (startedDatabase (some "")).records := by
  refine ⟨startedDatabase_verify rfl, startedDatabase_verify rfl, rfl, rfl, rfl, ?_, by decide⟩
  exact ⟨sampleDigest_collisionFree.hex, by decide +kernel, by decide +kernel⟩

theorem removal_and_reordering_detected_sample :
    (¬ ∃ n', gappedDatabase.verify sampleDigest = .ok n') ∧
      ¬ ∃ n', swappedDatabase.verify sampleDigest = .ok n' := by
  have hgapped := (removal_and_reordering_detected sampleDigest actionDatabase gappedDatabase 3
    actionDatabase_verify actionDatabase_acyclic rfl).1 (by decide +kernel)
  have hswapped := (removal_and_reordering_detected sampleDigest actionDatabase swappedDatabase 3
    actionDatabase_verify actionDatabase_acyclic rfl).2 (by decide +kernel) (by decide +kernel)
  exact ⟨mt hgapped.mp (by decide +kernel), hswapped⟩

/-- Without its last record the sample table still verifies. -/
theorem last_record_removal_unnoticed :
    actionDatabase.verify sampleDigest = .ok 3 ∧
      CollisionFree sampleDigest actionDatabase.records ∧
      Acyclic AuditFields.previousHash AuditFields.hash actionDatabase.records ∧
      eventDatabase.anchor = actionDatabase.anchor ∧
      eventDatabase.records.Sublist actionDatabase.records ∧
      eventDatabase.records ≠ actionDatabase.records ∧
      eventDatabase.verify sampleDigest = .ok 2 := by
  refine ⟨actionDatabase_verify, sampleDigest_collisionFree, actionDatabase_acyclic, rfl, ?_,
    by decide +kernel, Database.verify_eq_ok.mpr ⟨⟨rfl, rfl, trivial⟩, by decide +kernel, rfl⟩⟩
  exact (List.prefix_append eventDatabase.records [actionRecord]).sublist

end Kovert
