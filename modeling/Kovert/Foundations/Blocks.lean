import Kovert.Foundations.Execution
import Mathlib.Order.Monotone.Basic

/-!
# Steps that stand for blocks

A concrete system refines an abstract one whose steps are finer: a concrete step
stands for a block of abstract ones, possibly an empty one. The blocks of a run,
put together, are a run of the abstract system, and a position in it lies in the
block of one concrete step.
-/

namespace Execution

variable {σ τ α β : Type*} {step : σ → α → Option σ} {fine : τ → β → Option τ}

theorem visits_append {s m : τ} {as bs : List β} {n : ℕ} {b : β} :
    Visits fine s (as ++ bs) n m b ↔ Visits fine s as n m b ∨
      ∃ t k, run fine s as = some t ∧ n = as.length + k ∧ Visits fine t bs k m b := by
  induction as generalizing s n with
  | nil =>
      constructor
      · exact fun h => Or.inr ⟨s, n, rfl, by simp, h⟩
      · rintro (h | ⟨t, k, ht, rfl, h⟩)
        · exact absurd h.lt_length (Nat.not_lt_zero n)
        · cases ht
          simpa using h
  | cons a as ih =>
      cases n with
      | zero =>
          rw [List.cons_append, visits_cons_zero, visits_cons_zero]
          refine ⟨Or.inl, ?_⟩
          rintro (h | ⟨t, k, _, hk, _⟩)
          · exact h
          · rw [List.length_cons] at hk
            omega
      | succ n =>
          rw [List.cons_append, visits_cons_succ, visits_cons_succ]
          constructor
          · rintro ⟨t, ht, h⟩
            rcases ih.mp h with h | ⟨u, k, hu, hn, h⟩
            · exact Or.inl ⟨t, ht, h⟩
            · refine Or.inr ⟨u, k, by rw [run_cons, ht]; exact hu, ?_, h⟩
              rw [List.length_cons]
              omega
          · rintro (⟨t, ht, h⟩ | ⟨u, k, hu, hn, h⟩)
            · exact ⟨t, ht, ih.mpr (Or.inl h)⟩
            · obtain ⟨t, ht, hu⟩ := Option.bind_eq_some_iff.mp hu
              refine ⟨t, ht, ih.mpr (Or.inr ⟨u, k, hu, ?_, h⟩)⟩
              rw [List.length_cons] at hn
              omega

/-! ## Positions -/

/-- Where the block of the `n`th step begins. -/
def offset (blocks : List (List β)) (n : ℕ) : ℕ := (blocks.take n).flatten.length

theorem offset_succ {blocks : List (List β)} {n : ℕ} {bs : List β} (h : blocks[n]? = some bs) :
    offset blocks (n + 1) = offset blocks n + bs.length := by
  rw [offset, offset, List.take_add_one, h, List.flatten_append, List.length_append]
  simp

theorem offset_mono (blocks : List (List β)) : Monotone (offset blocks) := by
  refine monotone_nat_of_le_succ fun n => ?_
  cases h : blocks[n]? with
  | none =>
      have hle := List.getElem?_eq_none_iff.mp h
      rw [offset, offset, List.take_of_length_le hle,
        List.take_of_length_le (hle.trans (Nat.le_succ n))]
  | some bs =>
      rw [offset_succ h]
      exact Nat.le_add_right _ _

theorem visits_flatten {blocks : List (List β)} {s m : τ} {k : ℕ} {b : β} :
    Visits fine s blocks.flatten k m b ↔ ∃ n bs t j, blocks[n]? = some bs ∧
      run fine s (blocks.take n).flatten = some t ∧ k = offset blocks n + j ∧
      Visits fine t bs j m b := by
  constructor
  · induction blocks generalizing s k with
    | nil => exact fun h => absurd h.lt_length (Nat.not_lt_zero k)
    | cons first blocks ih =>
        intro h
        rw [List.flatten_cons] at h
        rcases visits_append.mp h with hfirst | ⟨t, j, ht, hk, hlater⟩
        · exact ⟨0, first, s, k, rfl, rfl, by simp [offset], hfirst⟩
        · obtain ⟨n, bs, u, i, hn, hu, rfl, hvisit⟩ := ih hlater
          refine ⟨n + 1, bs, u, i, hn, ?_, ?_, hvisit⟩
          · rw [List.take_succ_cons, List.flatten_cons, run_append, ht]
            exact hu
          · rw [offset] at hk
            rw [offset, List.take_succ_cons, List.flatten_cons, List.length_append]
            omega
  · rintro ⟨n, bs, t, j, hn, ht, rfl, h⟩
    have hsplit : blocks = blocks.take n ++ bs :: blocks.drop (n + 1) := by
      have hlt := (List.getElem?_eq_some_iff.mp hn).1
      rw [← (List.getElem?_eq_some_iff.mp hn).2, ← List.drop_eq_getElem_cons hlt,
        List.take_append_drop]
    rw [hsplit, List.flatten_append, List.flatten_cons]
    refine visits_append.mpr (Or.inr ⟨t, j, ht, ?_, visits_append.mpr (Or.inl h)⟩)
    rw [← hsplit]
    rfl

/-! ## The blocks of a run -/

/-- Each step of the run has a block, which starts in the abstract view of the
state before the step. -/
structure Blocks (step : σ → α → Option σ) (fine : τ → β → Option τ) (view : σ → Option τ)
    (B : σ → α → List β → Prop) (s : σ) (t : τ) (as : List α) (blocks : List (List β)) : Prop where
  length_eq : blocks.length = as.length
  block : ∀ n m a, Visits step s as n m a → ∃ bs u, blocks[n]? = some bs ∧ B m a bs ∧
    view m = some u ∧ run fine t (blocks.take n).flatten = some u

/-- The positions of the abstract run are those in the blocks of the concrete steps. -/
theorem Blocks.visits_iff {view : σ → Option τ} {B : σ → α → List β → Prop} {as : List α}
    {s s' : σ} {t m : τ} {blocks : List (List β)} {k : ℕ} {b : β}
    (h : Blocks step fine view B s t as blocks) (hrun : run step s as = some s') :
    Visits fine t blocks.flatten k m b ↔ ∃ n u a bs v j, Visits step s as n u a ∧
      blocks[n]? = some bs ∧ B u a bs ∧ view u = some v ∧ k = offset blocks n + j ∧
        Visits fine v bs j m b := by
  rw [visits_flatten]
  constructor
  · rintro ⟨n, bs, v, j, hn, hv, hk, hvisit⟩
    have hlt : n < as.length := h.length_eq ▸ (List.getElem?_eq_some_iff.mp hn).1
    obtain ⟨u, hu⟩ := exists_run_take hrun n
    have hvisits : Visits step s as n u as[n] := ⟨List.getElem?_eq_getElem hlt, hu⟩
    obtain ⟨bs', v', hn', hB, hview, hv'⟩ := h.block n u _ hvisits
    cases hn.symm.trans hn'
    cases hv.symm.trans hv'
    exact ⟨n, u, _, bs, v, j, hvisits, hn, hB, hview, hk, hvisit⟩
  · rintro ⟨n, u, a, bs, v, j, hvisits, hn, _, hview, hk, hvisit⟩
    obtain ⟨bs', v', hn', _, hview', hv'⟩ := h.block n u a hvisits
    cases hn.symm.trans hn'
    cases hview.symm.trans hview'
    exact ⟨n, bs, v, j, hn, hv', hk, hvisit⟩

/-- Refinement rule: if every step that leaves a view stands for a block, so does the run. -/
theorem exists_blocks {view : σ → Option τ} {B : σ → α → List β → Prop} {C : σ → α → Prop}
    (hstep : ∀ m a m' u', C m a → step m a = some m' → view m' = some u' →
      ∃ u bs, view m = some u ∧ B m a bs ∧ run fine u bs = some u')
    {as : List α} {s s' : σ} {t' : τ} (hrun : run step s as = some s')
    (hall : AllSteps step C s as) (hview : view s' = some t') :
    ∃ t blocks, view s = some t ∧ Blocks step fine view B s t as blocks ∧
      run fine t blocks.flatten = some t' := by
  induction as generalizing s with
  | nil =>
      cases hrun
      refine ⟨t', [], hview, ⟨rfl, fun n _ _ hv => ?_⟩, rfl⟩
      exact absurd hv.lt_length (Nat.not_lt_zero n)
  | cons a as ih =>
      obtain ⟨m, hm, hrest⟩ := Option.bind_eq_some_iff.mp hrun
      have hfirst : C s a := hall 0 s a (visits_cons_zero.mpr ⟨rfl, rfl⟩)
      have htail : AllSteps step C m as :=
        fun n k b hv => hall (n + 1) k b (visits_cons_succ.mpr ⟨m, hm, hv⟩)
      obtain ⟨u, blocks, hu, hblocks, hflat⟩ := ih hrest htail
      obtain ⟨t, bs, ht, hB, hbs⟩ := hstep s a m u hfirst hm hu
      refine ⟨t, bs :: blocks, ht, ⟨by rw [List.length_cons, List.length_cons,
        hblocks.length_eq], ?_⟩, ?_⟩
      · intro n k b hv
        cases n with
        | zero =>
            obtain ⟨rfl, rfl⟩ := visits_cons_zero.mp hv
            exact ⟨bs, t, rfl, hB, ht, rfl⟩
        | succ n =>
            obtain ⟨m', hm', hv⟩ := visits_cons_succ.mp hv
            cases hm.symm.trans hm'
            obtain ⟨bs', u', hn, hB', hu', hrun'⟩ := hblocks.block n k b hv
            refine ⟨bs', u', hn, hB', hu', ?_⟩
            rw [List.take_succ_cons, List.flatten_cons, run_append, hbs]
            exact hrun'
      · rw [List.flatten_cons, run_append, hbs]
        exact hflat

end Execution
