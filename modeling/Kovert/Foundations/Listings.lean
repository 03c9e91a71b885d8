import Mathlib.Data.List.Perm.Basic

/-!
# Reading a listing of unspecified order

A loop over a listing that keeps the first match gives the same answer in every
order exactly when all matches agree; a loop that asks whether there is a match
always does.
-/

namespace Listings

variable {α β : Type*}

theorem any_perm {items other : List α} (h : items.Perm other) (p : α → Bool) :
    other.any p = items.any p := by
  rw [Bool.eq_iff_iff, List.any_eq_true, List.any_eq_true]
  exact exists_congr fun a => and_congr_left fun _ => h.symm.mem_iff

/-- All matches of `f` among the items are the same. -/
def Agree (f : α → Option β) (items : List α) : Prop :=
  ∀ a ∈ items, ∀ b ∈ items, ∀ x y, f a = some x → f b = some y → x = y

theorem Agree.perm {f : α → Option β} {items other : List α} (h : Agree f items)
    (hperm : items.Perm other) : other.findSome? f = items.findSome? f := by
  cases hother : other.findSome? f with
  | none =>
      symm
      rw [List.findSome?_eq_none_iff] at hother ⊢
      exact fun a ha => hother a (hperm.mem_iff.mp ha)
  | some x =>
      obtain ⟨a, ha, hx⟩ := List.exists_of_findSome?_eq_some hother
      cases hitems : items.findSome? f with
      | none =>
          rw [List.findSome?_eq_none_iff.mp hitems a (hperm.mem_iff.mpr ha)] at hx
          cases hx
      | some y =>
          obtain ⟨b, hb, hy⟩ := List.exists_of_findSome?_eq_some hitems
          rw [h a (hperm.mem_iff.mpr ha) b hb x y hx hy]

/-- In some order the listing starts with the given item. -/
theorem exists_perm_cons {items : List α} {a : α} (ha : a ∈ items) :
    ∃ rest, items.Perm (a :: rest) := by
  obtain ⟨before, later, rfl⟩ := List.append_of_mem ha
  exact ⟨before ++ later, List.perm_middle⟩

theorem findSome?_perm_iff {f : α → Option β} {items : List α} :
    (∀ other, items.Perm other → other.findSome? f = items.findSome? f) ↔ Agree f items := by
  constructor
  · intro h a ha b hb x y hx hy
    have hfirst : ∀ c ∈ items, ∀ z, f c = some z → items.findSome? f = some z := by
      intro c hc z hz
      obtain ⟨rest, hperm⟩ := exists_perm_cons hc
      rw [← h _ hperm, List.findSome?_cons, hz]
    exact Option.some.inj ((hfirst a ha x hx).symm.trans (hfirst b hb y hy))
  · intro h other hperm
    exact h.perm hperm

end Listings
