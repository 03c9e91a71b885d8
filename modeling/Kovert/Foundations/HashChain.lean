import Mathlib.Data.List.Basic
import Mathlib.Data.List.Forall2
import Mathlib.Data.List.Induction
import Mathlib.Logic.Relation
import Mathlib.Order.Basic

/-!
# Linked records

Each record carries a digest and the digest of the record before it. `Linked a
rows` says that the rows form one chain that starts at the anchor `a`. The last
digest commits to the whole chain as far as digests determine records, and a
chain without cycles determines every chain that can be built from its rows.
-/

namespace HashChain

variable {ρ δ : Type*} (previous digest : ρ → δ)

def Linked : δ → List ρ → Prop
  | _, [] => True
  | a, row :: rows => previous row = a ∧ Linked (digest row) rows

/-- The digest the next record has to carry. -/
def tip : δ → List ρ → δ
  | a, [] => a
  | _, row :: rows => tip (digest row) rows

/-- `next` is linked to `row`, both among `rows`. -/
def Feeds (rows : List ρ) (row next : ρ) : Prop :=
  row ∈ rows ∧ next ∈ rows ∧ previous next = digest row

/-- No record is linked, directly or through others, to itself. -/
def Acyclic (rows : List ρ) : Prop :=
  ∀ row, ¬ Relation.TransGen (Feeds previous digest rows) row row

variable {previous digest}

theorem tip_append (a : δ) (rows rest : List ρ) :
    tip digest a (rows ++ rest) = tip digest (tip digest a rows) rest := by
  induction rows generalizing a with
  | nil => rfl
  | cons row rows ih => exact ih (digest row)

@[simp] theorem tip_snoc (a : δ) (rows : List ρ) (row : ρ) :
    tip digest a (rows ++ [row]) = digest row := tip_append a rows [row]

theorem linked_append {a : δ} {rows rest : List ρ} :
    Linked previous digest a (rows ++ rest) ↔
      Linked previous digest a rows ∧ Linked previous digest (tip digest a rows) rest := by
  induction rows generalizing a with
  | nil => exact (iff_of_eq (true_and _)).symm
  | cons row rows ih =>
      rw [List.cons_append, Linked, Linked, ih, and_assoc]
      rfl

theorem linked_snoc {a : δ} {rows : List ρ} {row : ρ} :
    Linked previous digest a (rows ++ [row]) ↔
      Linked previous digest a rows ∧ previous row = tip digest a rows := by
  rw [linked_append]
  exact and_congr_right fun _ => and_iff_left trivial

theorem Linked.of_initial {a : δ} {rows rest : List ρ} (hpre : rest <+: rows)
    (h : Linked previous digest a rows) : Linked previous digest a rest := by
  obtain ⟨tail, rfl⟩ := hpre
  exact (linked_append.mp h).1

theorem Linked.exists_feeder {row next : ρ} {rows : List ρ}
    (h : Linked previous digest (digest row) rows) (hnext : next ∈ rows) :
    ∃ feeder ∈ row :: rows, previous next = digest feeder := by
  induction rows generalizing row with
  | nil => cases hnext
  | cons head rows ih =>
      rcases List.mem_cons.mp hnext with rfl | hnext
      · exact ⟨row, List.mem_cons_self, h.1⟩
      · obtain ⟨feeder, hmem, heq⟩ := ih h.2 hnext
        exact ⟨feeder, List.mem_cons_of_mem row hmem, heq⟩

theorem Linked.previous_cases {a : δ} {rows : List ρ} (h : Linked previous digest a rows)
    {row : ρ} (hrow : row ∈ rows) :
    previous row = a ∨ ∃ feeder ∈ rows, previous row = digest feeder := by
  cases rows with
  | nil => cases hrow
  | cons head rows =>
      rcases List.mem_cons.mp hrow with rfl | hrow
      · exact Or.inl h.1
      · exact Or.inr (h.2.exists_feeder hrow)

/-! ## The tip commits to the chain -/

/-- Two chains of one length with one tip are related row by row, when equal
digests relate their rows and force equal links. -/
theorem Linked.forall₂_of_tip_eq {R : ρ → ρ → Prop} {a : δ} {rows rows' : List ρ}
    (h : Linked previous digest a rows) (h' : Linked previous digest a rows')
    (hlength : rows.length = rows'.length) (htip : tip digest a rows = tip digest a rows')
    (hdigest : ∀ row ∈ rows, ∀ row' ∈ rows', digest row = digest row' →
      previous row = previous row' ∧ R row row') : List.Forall₂ R rows rows' := by
  induction rows using List.reverseRecOn generalizing rows' with
  | nil =>
      rw [List.eq_nil_of_length_eq_zero hlength.symm]
      exact List.Forall₂.nil
  | append_singleton rows row ih =>
      rcases List.eq_nil_or_concat rows' with rfl | ⟨rows', row', rfl⟩
      · simp at hlength
      · rw [List.concat_eq_append] at h' hlength htip hdigest ⊢
        rw [tip_snoc, tip_snoc] at htip
        obtain ⟨h, hrow⟩ := linked_snoc.mp h
        obtain ⟨h', hrow'⟩ := linked_snoc.mp h'
        obtain ⟨hprevious, hR⟩ := hdigest row (by simp) row' (by simp) htip
        have hfront : List.Forall₂ R rows rows' := by
          apply ih h h'
          · simpa using hlength
          · rw [← hrow, ← hrow', hprevious]
          · intro x hx y hy
            exact hdigest x (List.mem_append_left _ hx) y (List.mem_append_left _ hy)
        exact List.rel_append hfront (List.Forall₂.cons hR List.Forall₂.nil)

/-- When equal digests force equal links and no digest is the anchor, the
digests along a chain are distinct. -/
theorem Linked.nodup {a : δ} {rows : List ρ} (h : Linked previous digest a rows)
    (hdigest : ∀ row ∈ rows, ∀ row' ∈ rows, digest row = digest row' →
      previous row = previous row')
    (hanchor : ∀ row ∈ rows, digest row ≠ a) : (rows.map digest).Nodup := by
  induction rows generalizing a with
  | nil => exact List.nodup_nil
  | cons head rows ih =>
      have hfresh : ∀ row ∈ rows, digest row ≠ digest head := by
        intro row hrow heq
        have hlink := hdigest row (List.mem_cons_of_mem head hrow) head List.mem_cons_self heq
        obtain ⟨feeder, hmem, hfeeder⟩ := h.2.exists_feeder hrow
        rw [hlink, h.1] at hfeeder
        exact hanchor feeder hmem hfeeder.symm
      rw [List.map_cons, List.nodup_cons]
      constructor
      · intro hmem
        obtain ⟨row, hrow, heq⟩ := List.mem_map.mp hmem
        exact hfresh row hrow heq
      · apply ih h.2 _ hfresh
        intro row hrow row' hrow'
        exact hdigest row (List.mem_cons_of_mem head hrow) row' (List.mem_cons_of_mem head hrow')

/-! ## Chains built from the rows of a chain -/

theorem Feeds.mono {rows rows' : List ρ} (hsub : rows ⊆ rows') {row next : ρ}
    (h : Feeds previous digest rows row next) : Feeds previous digest rows' row next :=
  ⟨hsub h.1, hsub h.2.1, h.2.2⟩

theorem transGen_feeds_mono {rows rows' : List ρ} (hsub : rows ⊆ rows') {row next : ρ}
    (h : Relation.TransGen (Feeds previous digest rows) row next) :
    Relation.TransGen (Feeds previous digest rows') row next :=
  Relation.TransGen.mono (fun _ _ hfeeds => hfeeds.mono hsub) _ _ h

theorem Acyclic.mono {rows rows' : List ρ} (h : Acyclic previous digest rows')
    (hsub : rows ⊆ rows') : Acyclic previous digest rows := by
  intro row hcycle
  exact h row (transGen_feeds_mono hsub hcycle)

/-- Links that follow a strict order close no cycle. -/
theorem acyclic_of_rank {β : Type*} [Preorder β] {rows : List ρ} (rank : ρ → β)
    (h : ∀ row ∈ rows, ∀ next ∈ rows, previous next = digest row → rank row < rank next) :
    Acyclic previous digest rows := by
  have hlt : ∀ row next, Relation.TransGen (Feeds previous digest rows) row next →
      rank row < rank next := by
    intro row next hreach
    induction hreach with
    | single hfeeds => exact h _ hfeeds.1 _ hfeeds.2.1 hfeeds.2.2
    | tail _ hfeeds ih => exact ih.trans (h _ hfeeds.1 _ hfeeds.2.1 hfeeds.2.2)
  intro row hcycle
  exact lt_irrefl _ (hlt row row hcycle)

/-- Every row of a chain is reached from the row the chain starts after. -/
theorem Linked.reaches {row next : ρ} {rows : List ρ}
    (h : Linked previous digest (digest row) rows) (hnext : next ∈ rows) :
    Relation.TransGen (Feeds previous digest (row :: rows)) row next := by
  induction rows generalizing row with
  | nil => cases hnext
  | cons head rows ih =>
      have hfirst : Feeds previous digest (row :: head :: rows) row head :=
        ⟨List.mem_cons_self, List.mem_cons_of_mem row List.mem_cons_self, h.1⟩
      rcases List.mem_cons.mp hnext with rfl | hnext
      · exact Relation.TransGen.single hfirst
      · have hrest := ih h.2 hnext
        exact Relation.TransGen.head hfirst
          (transGen_feeds_mono (List.subset_cons_self row _) hrest)

/-- A row reached from `row` that has the same link closes a cycle at `row`. -/
theorem transGen_self_of_previous_eq {rows : List ρ} {row next : ρ} (hrow : row ∈ rows)
    (h : Relation.TransGen (Feeds previous digest rows) row next)
    (heq : previous next = previous row) :
    Relation.TransGen (Feeds previous digest rows) row row := by
  cases h with
  | single hfeeds => exact Relation.TransGen.single ⟨hrow, hrow, heq ▸ hfeeds.2.2⟩
  | tail hreach hfeeds => exact Relation.TransGen.tail hreach ⟨hfeeds.1, hrow, heq ▸ hfeeds.2.2⟩

/-- A chain whose rows all occur in an acyclic chain with the same anchor is a
prefix of it: at every point only one row carries the awaited link. -/
theorem Linked.initial_of_subset {a : δ} {rows rows' : List ρ}
    (h : Linked previous digest a rows) (hacyclic : Acyclic previous digest rows)
    (h' : Linked previous digest a rows') (hsub : rows' ⊆ rows) : rows' <+: rows := by
  induction rows' generalizing a rows with
  | nil => exact List.nil_prefix
  | cons row' rest ih =>
      cases rows with
      | nil => exact absurd (hsub List.mem_cons_self) List.not_mem_nil
      | cons row rows =>
          have hrow : row' = row := by
            rcases List.mem_cons.mp (hsub List.mem_cons_self) with heq | hmem
            · exact heq
            · have hcycle := transGen_self_of_previous_eq List.mem_cons_self (h.2.reaches hmem)
                (h'.1.trans h.1.symm)
              exact absurd hcycle (hacyclic row)
          subst hrow
          have hrest : rest ⊆ rows := by
            intro x hx
            rcases List.mem_cons.mp (hsub (List.mem_cons_of_mem row' hx)) with rfl | hmem
            · have hcycle := h'.2.reaches hx
              exact absurd (transGen_feeds_mono hsub hcycle) (hacyclic x)
            · exact hmem
          rw [List.prefix_cons_inj]
          exact ih h.2 (hacyclic.mono (List.subset_cons_self row' rows)) h'.2 hrest

end HashChain
