import Mathlib.Data.List.Basic
import Mathlib.Data.List.Count

/-!
# Keeping the first claimant of every key

`firstWins key claimed xs` scans `xs` once and drops an element whose key is
already claimed; elements without a key are always kept. The result is a
subsequence, and for each key it retains exactly the first element carrying it.
-/

namespace FirstWins

variable {α κ : Type*} [DecidableEq κ] (key : α → Option κ)

def firstWins : List κ → List α → List α
  | _, [] => []
  | claimed, x :: xs =>
    match key x with
    | none => x :: firstWins claimed xs
    | some k => if k ∈ claimed then firstWins claimed xs else x :: firstWins (k :: claimed) xs

variable {key}

theorem firstWins_cons_none {claimed : List κ} {x : α} {xs : List α} (h : key x = none) :
    firstWins key claimed (x :: xs) = x :: firstWins key claimed xs := by
  rw [firstWins, h]

theorem firstWins_cons_mem {claimed : List κ} {x : α} {xs : List α} {k : κ}
    (h : key x = some k) (hk : k ∈ claimed) :
    firstWins key claimed (x :: xs) = firstWins key claimed xs := by
  rw [firstWins, h]
  exact if_pos hk

theorem firstWins_cons_fresh {claimed : List κ} {x : α} {xs : List α} {k : κ}
    (h : key x = some k) (hk : k ∉ claimed) :
    firstWins key claimed (x :: xs) = x :: firstWins key (k :: claimed) xs := by
  rw [firstWins, h]
  exact if_neg hk

theorem firstWins_sublist (claimed : List κ) (xs : List α) :
    (firstWins key claimed xs).Sublist xs := by
  induction xs generalizing claimed with
  | nil => exact List.Sublist.slnil
  | cons x xs ih =>
      cases h : key x with
      | none =>
          rw [firstWins_cons_none h]
          exact (ih claimed).cons_cons x
      | some k =>
          by_cases hk : k ∈ claimed
          · rw [firstWins_cons_mem h hk]
            exact (ih claimed).cons x
          · rw [firstWins_cons_fresh h hk]
            exact (ih (k :: claimed)).cons_cons x

/-- What comes later takes nothing away. -/
theorem firstWins_append (claimed : List κ) (xs ys : List α) :
    ∃ claimed', firstWins key claimed (xs ++ ys) =
      firstWins key claimed xs ++ firstWins key claimed' ys := by
  induction xs generalizing claimed with
  | nil => exact ⟨claimed, rfl⟩
  | cons x xs ih =>
      cases h : key x with
      | none =>
          obtain ⟨claimed', heq⟩ := ih claimed
          exact ⟨claimed', by simp only [List.cons_append, firstWins_cons_none h, heq]⟩
      | some k =>
          by_cases hk : k ∈ claimed
          · obtain ⟨claimed', heq⟩ := ih claimed
            exact ⟨claimed', by simp only [List.cons_append, firstWins_cons_mem h hk, heq]⟩
          · obtain ⟨claimed', heq⟩ := ih (k :: claimed)
            exact ⟨claimed', by simp only [List.cons_append, firstWins_cons_fresh h hk, heq]⟩

theorem filter_firstWins_keyless (claimed : List κ) (xs : List α) :
    (firstWins key claimed xs).filter (fun x => (key x).isNone) =
      xs.filter (fun x => (key x).isNone) := by
  induction xs generalizing claimed with
  | nil => rfl
  | cons x xs ih =>
      cases h : key x with
      | none => simp [firstWins_cons_none h, h, ih]
      | some k =>
          by_cases hk : k ∈ claimed
          · simp [firstWins_cons_mem h hk, h, ih]
          · simp [firstWins_cons_fresh h hk, h, ih]

theorem filter_firstWins_claimed {claimed : List κ} {k : κ} (hk : k ∈ claimed) (xs : List α) :
    (firstWins key claimed xs).filter (fun x => key x = some k) = [] := by
  induction xs generalizing claimed with
  | nil => rfl
  | cons x xs ih =>
      cases h : key x with
      | none => simp [firstWins_cons_none h, h, ih hk]
      | some l =>
          by_cases hl : l ∈ claimed
          · rw [firstWins_cons_mem h hl]
            exact ih hk
          · have hne : l ≠ k := fun he => hl (he ▸ hk)
            simp [firstWins_cons_fresh h hl, h, hne, ih (List.mem_cons_of_mem l hk)]

/-- For an unclaimed key the survivors are exactly its first carrier. -/
theorem filter_firstWins_fresh {claimed : List κ} {k : κ} (hk : k ∉ claimed) (xs : List α) :
    (firstWins key claimed xs).filter (fun x => key x = some k) =
      (xs.find? (fun x => key x = some k)).toList := by
  induction xs generalizing claimed with
  | nil => rfl
  | cons x xs ih =>
      cases h : key x with
      | none => simp [firstWins_cons_none h, h, ih hk]
      | some l =>
          by_cases hl : l ∈ claimed
          · have hne : l ≠ k := fun he => hk (he ▸ hl)
            simp [firstWins_cons_mem h hl, h, hne, ih hk]
          · rw [firstWins_cons_fresh h hl]
            by_cases he : l = k
            · subst he
              simp [h, filter_firstWins_claimed (List.mem_cons_self (a := l) (l := claimed))]
            · have hk' : k ∉ l :: claimed := by simp [hk, Ne.symm he]
              simp [h, he, ih hk']

theorem find?_of_mem_firstWins {xs : List α} {x : α} {k : κ}
    (hx : x ∈ firstWins key [] xs) (h : key x = some k) :
    xs.find? (fun y => key y = some k) = some x := by
  have hmem : x ∈ (firstWins key [] xs).filter (fun y => key y = some k) := by simp [hx, h]
  rw [filter_firstWins_fresh List.not_mem_nil] at hmem
  simpa using hmem

theorem eq_of_mem_firstWins {xs : List α} {x y : α} {k : κ} (hx : x ∈ firstWins key [] xs)
    (hxkey : key x = some k) (hy : y ∈ firstWins key [] xs) (hykey : key y = some k) : x = y := by
  have hfind := find?_of_mem_firstWins hx hxkey
  rw [find?_of_mem_firstWins hy hykey] at hfind
  exact (Option.some.inj hfind).symm

theorem mem_firstWins_keyless {claimed : List κ} {xs : List α} {x : α} (hx : x ∈ xs)
    (h : key x = none) : x ∈ firstWins key claimed xs := by
  have hfilter : x ∈ xs.filter (fun y => (key y).isNone) := by simp [hx, h]
  rw [← filter_firstWins_keyless claimed] at hfilter
  exact List.mem_of_mem_filter hfilter

theorem exists_find? {xs : List α} {x : α} {k : κ} (hx : x ∈ xs) (h : key x = some k) :
    ∃ y, xs.find? (fun y => key y = some k) = some y := by
  rw [← Option.isSome_iff_exists, List.find?_isSome]
  exact ⟨x, hx, by simp [h]⟩

/-- Every key that occurs is carried by a survivor. -/
theorem exists_mem_firstWins {xs : List α} {x : α} {k : κ} (hx : x ∈ xs) (h : key x = some k) :
    ∃ y ∈ firstWins key [] xs, key y = some k := by
  obtain ⟨y, hy⟩ := exists_find? hx h
  have hmem : y ∈ (firstWins key [] xs).filter (fun y => key y = some k) := by
    rw [filter_firstWins_fresh List.not_mem_nil, hy]
    exact List.mem_singleton_self _
  exact ⟨y, List.mem_of_mem_filter hmem, by simpa using List.of_mem_filter hmem⟩

theorem count_filterMap (xs : List α) (k : κ) :
    (xs.filterMap key).count k = (xs.filter (fun x => key x = some k)).length := by
  induction xs with
  | nil => rfl
  | cons x xs ih =>
      cases h : key x with
      | none => simp [h, ih]
      | some l =>
          by_cases hl : l = k
          · simp [h, hl, ih]
          · simp [h, hl, ih]

theorem count_filterMap_firstWins {xs : List α} {k : κ} (hk : k ∈ xs.filterMap key) :
    ((firstWins key [] xs).filterMap key).count k = 1 := by
  obtain ⟨x, hx, hkey⟩ := List.mem_filterMap.mp hk
  obtain ⟨y, hy⟩ := exists_find? hx hkey
  rw [count_filterMap, filter_firstWins_fresh List.not_mem_nil, hy]
  rfl

variable (key) in
/-- The scan looks at keys only, so it commutes with forgetting decorations. -/
theorem map_firstWins {β : Type*} (f : β → α) (claimed : List κ) (xs : List β) :
    (firstWins (fun x => key (f x)) claimed xs).map f = firstWins key claimed (xs.map f) := by
  induction xs generalizing claimed with
  | nil => rfl
  | cons x xs ih =>
      cases h : key (f x) with
      | none => simp [firstWins, h, ih]
      | some k =>
          by_cases hk : k ∈ claimed
          · simp [firstWins, h, hk, ih]
          · simp [firstWins, h, hk, ih]

/-- In a list ordered by `R` the survivor of a key comes before all its other carriers. -/
theorem before_of_mem_firstWins {R : α → α → Prop} {xs : List α} (hxs : xs.Pairwise R) {x y : α}
    {k : κ} (hx : x ∈ firstWins key [] xs) (hkey : key x = some k) (hy : y ∈ xs)
    (hykey : key y = some k) : y = x ∨ R x y := by
  obtain ⟨_, before, after, rfl, hbefore⟩ :=
    List.find?_eq_some_iff_append.mp (find?_of_mem_firstWins hx hkey)
  rcases List.mem_append.mp hy with hy | hy
  · have hno := hbefore y hy
    simp [hykey] at hno
  · rcases List.mem_cons.mp hy with hy | hy
    · exact Or.inl hy
    · have hafter := (List.pairwise_append.mp hxs).2.1
      exact Or.inr ((List.pairwise_cons.mp hafter).1 y hy)

end FirstWins
