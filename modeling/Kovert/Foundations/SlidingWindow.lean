import Mathlib.Data.List.DropRight
import Mathlib.Data.List.Basic

/-!
# Sliding windows

A buffer takes stamped items at its back and gives up items at its front, by
length and by age. When the stamps never decrease, the buffer is the longest
end of what was pushed that is short enough and young enough, so it is full
exactly when the last `size` items all fit into the window.
-/

namespace SlidingWindow

variable {α : Type*} (time : α → ℕ)

/-- Give up the front while there are more than `size` items. -/
def trimLength (size : ℕ) : List α → List α
  | [] => []
  | a :: items => if size < (a :: items).length then trimLength size items else a :: items

/-- Give up the front while it is older than `age`. -/
def expire (age now : ℕ) (items : List α) : List α :=
  items.dropWhile (fun a => age < now - time a)

def push (size age : ℕ) (buffer : List α) (a : α) : List α :=
  expire time age (time a) (trimLength size (buffer ++ [a]))

def Nondecreasing (items : List α) : Prop := items.Pairwise (fun a b => time a ≤ time b)

/-- The buffer against what was pushed, `dropped ++ buffer`, at the time `now`. -/
structure Kept (size age now : ℕ) (dropped buffer : List α) : Prop where
  length_le : buffer.length ≤ size
  young : ∀ a ∈ buffer, now - time a ≤ age
  old : buffer.length < size → ∀ a ∈ dropped, age < now - time a

variable {time} {size age now : ℕ}

theorem kept_nil (now : ℕ) : Kept time size age now [] [] := by
  constructor
  · exact Nat.zero_le size
  · exact List.forall_mem_nil _
  · exact fun _ => List.forall_mem_nil _

/-! ## The two ways to give up items -/

theorem exists_trimLength (size : ℕ) (items : List α) :
    ∃ front, items = front ++ trimLength size items ∧ (trimLength size items).length ≤ size ∧
      (front ≠ [] → (trimLength size items).length = size) := by
  induction items with
  | nil => exact ⟨[], rfl, Nat.zero_le size, fun h => absurd rfl h⟩
  | cons a items ih =>
      rw [trimLength]
      by_cases hlong : size < (a :: items).length
      · obtain ⟨front, heq, hle, hfront⟩ := ih
        rw [if_pos hlong]
        refine ⟨a :: front, congrArg (a :: ·) heq, hle, ?_⟩
        intro _
        by_cases hempty : front = []
        · rw [hempty, List.nil_append] at heq
          rw [← heq] at hle ⊢
          rw [List.length_cons] at hlong
          omega
        · exact hfront hempty
      · rw [if_neg hlong]
        exact ⟨[], rfl, not_lt.mp hlong, fun h => absurd rfl h⟩

theorem exists_expire (age now : ℕ) {items : List α} (hsorted : Nondecreasing time items) :
    ∃ front, items = front ++ expire time age now items ∧ (∀ a ∈ front, age < now - time a) ∧
      ∀ a ∈ expire time age now items, now - time a ≤ age := by
  induction items with
  | nil => exact ⟨[], rfl, List.forall_mem_nil _, List.forall_mem_nil _⟩
  | cons a items ih =>
      obtain ⟨hfirst, hrest⟩ := List.pairwise_cons.mp hsorted
      by_cases hold : age < now - time a
      · obtain ⟨front, heq, hfront, hyoung⟩ := ih hrest
        have hexpire : expire time age now (a :: items) = expire time age now items := by
          rw [expire, List.dropWhile_cons, if_pos (decide_eq_true hold)]
          rfl
        rw [hexpire]
        exact ⟨a :: front, congrArg (a :: ·) heq, List.forall_mem_cons.mpr ⟨hold, hfront⟩, hyoung⟩
      · have hexpire : expire time age now (a :: items) = a :: items := by
          rw [expire, List.dropWhile_cons, if_neg (by simpa using hold)]
        rw [hexpire]
        refine ⟨[], rfl, List.forall_mem_nil _, ?_⟩
        intro b hb
        rcases List.mem_cons.mp hb with rfl | hb
        · exact not_lt.mp hold
        · have hlater := hfirst b hb
          omega

/-! ## The buffer along a stream -/

theorem Kept.push {dropped buffer : List α} {a : α} (h : Kept time size age now dropped buffer)
    (hsorted : Nondecreasing time (dropped ++ buffer ++ [a])) (hnow : now ≤ time a) :
    ∃ dropped', dropped ++ buffer ++ [a] = dropped' ++ push time size age buffer a ∧
      Kept time size age (time a) dropped' (push time size age buffer a) := by
  obtain ⟨excess, hexcess, hlength, hfull⟩ := exists_trimLength size (buffer ++ [a])
  generalize htrim : trimLength size (buffer ++ [a]) = trimmed at hexcess hlength hfull
  have hall : dropped ++ buffer ++ [a] = dropped ++ excess ++ trimmed := by
    rw [List.append_assoc, hexcess, List.append_assoc]
  rw [hall] at hsorted
  obtain ⟨_, htrimmed, hbefore⟩ := List.pairwise_append.mp hsorted
  obtain ⟨expired, hexpired, hold, hyoung⟩ := exists_expire age (time a) htrimmed
  have hpush : SlidingWindow.push time size age buffer a = expire time age (time a) trimmed := by
    rw [SlidingWindow.push, htrim]
  rw [hpush]
  generalize expire time age (time a) trimmed = rest at hexpired hyoung
  refine ⟨dropped ++ excess ++ expired, ?_, ?_, hyoung, ?_⟩
  · rw [hall, hexpired, List.append_assoc (dropped ++ excess)]
  · rw [hexpired, List.length_append] at hlength
    omega
  · intro hshort b hb
    cases expired with
    | nil =>
        -- nothing was too old, so the room in the buffer was there before
        rw [List.nil_append] at hexpired
        have hnone : excess = [] := by
          by_contra hsome
          have hlong := hfull hsome
          rw [hexpired] at hlong
          omega
        rw [hnone, List.append_nil, List.append_nil] at hb
        rw [hnone, hexpired, List.nil_append] at hexcess
        have hroom : buffer.length < size := by
          rw [← hexcess, List.length_append] at hshort
          omega
        have haged := h.old hroom b hb
        omega
    | cons first expired =>
        have hfirst := hold first List.mem_cons_self
        rcases List.mem_append.mp hb with hb | hb
        · have hle := hbefore b hb first (hexpired ▸ List.mem_cons_self)
          omega
        · exact hold b hb

theorem rtake_of_full {dropped buffer : List α} (h : buffer.length = size) :
    (dropped ++ buffer).rtake size = buffer := by
  rw [List.rtake, ← h, List.length_append, Nat.add_sub_cancel, List.drop_left]

/-- The buffer is full exactly when enough was pushed and the first of the last
`size` items is still young. -/
theorem Kept.full_iff {dropped buffer : List α} (h : Kept time size age now dropped buffer) :
    buffer.length = size ↔ size ≤ (dropped ++ buffer).length ∧
      ∀ first, ((dropped ++ buffer).rtake size).head? = some first → now - time first ≤ age := by
  constructor
  · intro hfull
    rw [List.length_append, rtake_of_full hfull]
    refine ⟨by omega, ?_⟩
    intro first hfirst
    exact h.young first (List.mem_of_head? hfirst)
  · rintro ⟨hmany, hyoung⟩
    by_contra hne
    have hshort : buffer.length < size := lt_of_le_of_ne h.length_le hne
    rw [List.length_append] at hmany
    have hindex : dropped.length + buffer.length - size < dropped.length := by omega
    have hhead : ((dropped ++ buffer).rtake size).head? =
        some (dropped.get ⟨_, hindex⟩) := by
      rw [List.rtake, List.head?_drop, List.length_append,
        List.getElem?_append_left hindex, List.getElem?_eq_getElem hindex]
      rfl
    have hold := h.old hshort _ (List.get_mem dropped ⟨_, hindex⟩)
    have hle := hyoung _ hhead
    omega

end SlidingWindow
