import Mathlib.Data.List.Induction
import Mathlib.Order.Lattice

/-!
# Maps in key order

A map is the list of its entries in the order of their keys. An entry is inserted
at the place of its key; where the key is there already the old key stays and
only the value is replaced.
-/

namespace OrderedMap

variable {α β κ : Type*} [LinearOrder κ] (key : α → κ)

def insert (a : α) (b : β) : List (α × β) → List (α × β)
  | [] => [(a, b)]
  | entry :: rest =>
    if key a < key entry.1 then (a, b) :: entry :: rest
    else if key a = key entry.1 then (entry.1, b) :: rest
    else entry :: insert a b rest

def Ordered (entries : List (α × β)) : Prop :=
  entries.Pairwise (fun left right => key left.1 < key right.1)

variable {key}

theorem key_of_mem_insert {a : α} {b : β} {entries : List (α × β)} {entry : α × β}
    (h : entry ∈ insert key a b entries) :
    key entry.1 = key a ∨ ∃ old ∈ entries, key old.1 = key entry.1 := by
  induction entries with
  | nil =>
      rw [insert, List.mem_singleton] at h
      exact Or.inl (by rw [h])
  | cons head rest ih =>
      unfold insert at h
      split_ifs at h with hlt heq
      · rcases List.mem_cons.mp h with rfl | hmem
        · exact Or.inl rfl
        · exact Or.inr ⟨entry, hmem, rfl⟩
      · rcases List.mem_cons.mp h with rfl | hmem
        · exact Or.inl heq.symm
        · exact Or.inr ⟨entry, List.mem_cons_of_mem head hmem, rfl⟩
      · rcases List.mem_cons.mp h with rfl | hmem
        · exact Or.inr ⟨entry, List.mem_cons_self, rfl⟩
        · rcases ih hmem with hnew | ⟨old, hold, hkey⟩
          · exact Or.inl hnew
          · exact Or.inr ⟨old, List.mem_cons_of_mem head hold, hkey⟩

theorem Ordered.insert {entries : List (α × β)} (h : Ordered key entries) (a : α) (b : β) :
    Ordered key (insert key a b entries) := by
  induction entries with
  | nil => exact List.pairwise_singleton _ _
  | cons head rest ih =>
      obtain ⟨hhead, hrest⟩ := List.pairwise_cons.mp h
      unfold OrderedMap.insert
      split_ifs with hlt heq
      · refine List.pairwise_cons.mpr ⟨?_, h⟩
        intro entry hentry
        rcases List.mem_cons.mp hentry with rfl | hmem
        · exact hlt
        · exact hlt.trans (hhead entry hmem)
      · exact List.pairwise_cons.mpr ⟨hhead, hrest⟩
      · refine List.pairwise_cons.mpr ⟨?_, ih hrest⟩
        intro entry hentry
        rcases key_of_mem_insert hentry with hnew | ⟨old, hold, hkey⟩
        · rw [hnew]
          exact lt_of_le_of_ne (not_lt.mp hlt) (Ne.symm heq)
        · rw [← hkey]
          exact hhead old hold

end OrderedMap
