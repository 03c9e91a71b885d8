import Mathlib.Data.List.Sort

/-!
# Selecting from a stable sort

Sorting and selecting commute for a stable sort: the elements that pass a test
come in the order they would have if they alone had been sorted. And a list
without ties has one sorted arrangement, whatever order it came in.
-/

namespace StableSort

variable {α : Type*} {r : α → α → Prop} [DecidableRel r]

theorem filter_orderedInsert_of_false {p : α → Bool} {a : α} (h : p a = false) (l : List α) :
    (l.orderedInsert r a).filter p = l.filter p := by
  induction l with
  | nil => simp [h]
  | cons b l ih =>
      rw [List.orderedInsert_cons]
      split_ifs with hab
      · rw [List.filter_cons_of_neg (by simp [h])]
      · rw [List.filter_cons, ih, List.filter_cons]

theorem orderedInsert_eq_cons {a : α} {l : List α} (h : ∀ b ∈ l, r a b) :
    l.orderedInsert r a = a :: l := by
  cases l with
  | nil => rfl
  | cons b l => exact List.orderedInsert_cons_of_le r l (h b List.mem_cons_self)

theorem filter_orderedInsert_of_true [IsTrans α r] {p : α → Bool} {a : α} (h : p a = true)
    {l : List α} (hl : l.Pairwise r) :
    (l.orderedInsert r a).filter p = (l.filter p).orderedInsert r a := by
  induction l with
  | nil => simp [h]
  | cons b l ih =>
      obtain ⟨hb, hl⟩ := List.pairwise_cons.mp hl
      by_cases hab : r a b
      · -- everything after `b` is also above `a`, so `a` stays in front of what is kept
        have hall : ∀ c ∈ (b :: l).filter p, r a c := by
          intro c hc
          rcases List.mem_cons.mp (List.mem_filter.mp hc).1 with rfl | hc
          · exact hab
          · exact IsTrans.trans a b c hab (hb c hc)
        rw [List.orderedInsert_cons_of_le r l hab, List.filter_cons_of_pos h,
          orderedInsert_eq_cons hall]
      · rw [List.orderedInsert_of_not_le r l hab, List.filter_cons, ih hl, List.filter_cons]
        cases p b with
        | true =>
            rw [if_pos rfl, if_pos rfl, List.orderedInsert_of_not_le r _ hab]
        | false => rfl

theorem filter_insertionSort [Std.Total r] [IsTrans α r] (p : α → Bool) (l : List α) :
    (l.insertionSort r).filter p = (l.filter p).insertionSort r := by
  induction l with
  | nil => rfl
  | cons a l ih =>
      rw [List.insertionSort_cons, List.filter_cons]
      cases h : p a with
      | true =>
          rw [filter_orderedInsert_of_true h (List.pairwise_insertionSort r l), ih, if_pos rfl,
            List.insertionSort_cons]
      | false => rw [filter_orderedInsert_of_false h, ih, if_neg Bool.false_ne_true]

/-- Without ties the sorted list does not depend on the order of the input. -/
theorem insertionSort_congr [Std.Total r] [IsTrans α r] {l l' : List α} (h : l.Perm l')
    (hties : ∀ a ∈ l, ∀ b ∈ l, r a b → r b a → a = b) :
    l.insertionSort r = l'.insertionSort r := by
  refine List.Perm.eq_of_pairwise ?_ (List.pairwise_insertionSort r l)
    (List.pairwise_insertionSort r l')
    ((List.perm_insertionSort r l).trans (h.trans (List.perm_insertionSort r l').symm))
  intro a b ha hb hab hba
  have ha : a ∈ l := (List.mem_insertionSort r).mp ha
  have hb : b ∈ l := h.mem_iff.mpr ((List.mem_insertionSort r).mp hb)
  exact hties a ha b hb hab hba

omit [DecidableRel r] in
/-- In a sorted list the elements that pass an upward closed test come first. -/
theorem passing_first {p : α → Bool} {l : List α} (hl : l.Pairwise r)
    (hp : ∀ a ∈ l, ∀ b ∈ l, r a b → p b = true → p a = true) :
    l.filter p ++ l.filter (fun a => !p a) = l := by
  induction l with
  | nil => rfl
  | cons a l ih =>
      obtain ⟨ha, hl⟩ := List.pairwise_cons.mp hl
      replace ih := ih hl fun b hb c hc =>
        hp b (List.mem_cons_of_mem a hb) c (List.mem_cons_of_mem a hc)
      cases h : p a with
      | true => simpa [h] using ih
      | false =>
          -- nothing behind a failure passes
          have hnone : l.filter p = [] := by
            rw [List.filter_eq_nil_iff]
            intro b hb hpass
            have habove := hp a List.mem_cons_self b (List.mem_cons_of_mem a hb) (ha b hb) hpass
            rw [h] at habove
            cases habove
          rw [hnone, List.nil_append] at ih
          simp [h, hnone, ih]

end StableSort
