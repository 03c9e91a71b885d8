import Mathlib.Data.List.Induction
import Mathlib.Data.List.TakeDrop

/-!
# Finite executions of partial labelled transition systems

A system is a partial step function `step : σ → α → Option σ`; a missing
successor is an abort. `run` executes a list of labels, `Visits` names the
state in which the label at a given position is taken, and `AllSteps` asks a
condition of every step actually taken. The history rule proves a predicate of
the whole label history, not only of the last state.
-/

namespace Execution

variable {σ α : Type*} (step : σ → α → Option σ)

def run : σ → List α → Option σ
  | s, [] => some s
  | s, a :: as => (step s a).bind (fun t => run t as)

@[simp] theorem run_nil (s : σ) : run step s [] = some s := rfl

@[simp] theorem run_cons (s : σ) (a : α) (as : List α) :
    run step s (a :: as) = (step s a).bind (fun t => run step t as) := rfl

theorem run_append (s : σ) (as bs : List α) :
    run step s (as ++ bs) = (run step s as).bind (fun t => run step t bs) := by
  induction as generalizing s with
  | nil => rfl
  | cons a as ih =>
      rw [List.cons_append, run_cons, run_cons, Option.bind_assoc]
      exact congrArg _ (funext ih)

theorem run_snoc (s : σ) (as : List α) (a : α) :
    run step s (as ++ [a]) = (run step s as).bind (fun t => step t a) := by
  rw [run_append]
  refine congrArg _ (funext fun t => ?_)
  cases h : step t a <;> simp [h]

theorem run_snoc_eq_some {s t : σ} {as : List α} {a : α} :
    run step s (as ++ [a]) = some t ↔ ∃ m, run step s as = some m ∧ step m a = some t := by
  rw [run_snoc, Option.bind_eq_some_iff]

/-- The label `a` at position `n` is taken in state `m`. -/
def Visits (s : σ) (as : List α) (n : ℕ) (m : σ) (a : α) : Prop :=
  as[n]? = some a ∧ run step s (as.take n) = some m

/-- Every step taken along the run meets `C`. -/
def AllSteps (C : σ → α → Prop) (s : σ) (as : List α) : Prop :=
  ∀ n m a, Visits step s as n m a → C m a

variable {step}

theorem Visits.lt_length {s m : σ} {as : List α} {n : ℕ} {a : α}
    (h : Visits step s as n m a) : n < as.length :=
  (List.getElem?_eq_some_iff.mp h.1).1

theorem Visits.split {s m : σ} {as : List α} {n : ℕ} {a : α} (h : Visits step s as n m a) :
    as = as.take n ++ [a] ++ as.drop (n + 1) := by
  have htake : as.take (n + 1) = as.take n ++ [a] := by
    rw [List.take_add_one, h.1]
    rfl
  rw [← htake, List.take_append_drop]

theorem visits_cons_zero {s m : σ} {as : List α} {a b : α} :
    Visits step s (a :: as) 0 m b ↔ a = b ∧ s = m := by
  simp [Visits]

theorem visits_cons_succ {s m : σ} {as : List α} {n : ℕ} {a b : α} :
    Visits step s (a :: as) (n + 1) m b ↔ ∃ t, step s a = some t ∧ Visits step t as n m b := by
  rw [Visits, List.getElem?_cons_succ, List.take_succ_cons, run_cons, Option.bind_eq_some_iff]
  constructor
  · rintro ⟨hb, t, ht, hrun⟩
    exact ⟨t, ht, hb, hrun⟩
  · rintro ⟨t, ht, hb, hrun⟩
    exact ⟨hb, t, ht, hrun⟩

theorem visits_append_left {s m : σ} {as : List α} {n : ℕ} {a : α} (bs : List α)
    (hn : n < as.length) : Visits step s (as ++ bs) n m a ↔ Visits step s as n m a := by
  rw [Visits, Visits, List.getElem?_append_left hn,
    List.take_append_of_le_length (Nat.le_of_lt hn)]

theorem visits_snoc_last {s m : σ} {as : List α} {a b : α} :
    Visits step s (as ++ [b]) as.length m a ↔ b = a ∧ run step s as = some m := by
  simp [Visits]

theorem visits_snoc {s m : σ} {as : List α} {n : ℕ} {a b : α} :
    Visits step s (as ++ [b]) n m a ↔
      Visits step s as n m a ∨ n = as.length ∧ b = a ∧ run step s as = some m := by
  constructor
  · intro h
    have hn : n < as.length + 1 := by simpa using h.lt_length
    rcases Nat.lt_or_ge n as.length with hlt | hge
    · exact Or.inl ((visits_append_left [b] hlt).mp h)
    · have he : n = as.length := by omega
      subst he
      exact Or.inr ⟨rfl, visits_snoc_last.mp h⟩
  · rintro (h | ⟨rfl, h⟩)
    · exact (visits_append_left [b] h.lt_length).mpr h
    · exact visits_snoc_last.mpr h

theorem allSteps_snoc {C : σ → α → Prop} {s : σ} {as : List α} {a : α} :
    AllSteps step C s (as ++ [a]) ↔
      AllSteps step C s as ∧ ∀ m, run step s as = some m → C m a := by
  constructor
  · intro h
    refine ⟨fun n m b hv => h n m b (visits_snoc.mpr (Or.inl hv)), fun m hm => ?_⟩
    exact h as.length m a (visits_snoc_last.mpr ⟨rfl, hm⟩)
  · rintro ⟨hall, hlast⟩ n m b hv
    rcases visits_snoc.mp hv with hv | ⟨_, rfl, hm⟩
    · exact hall n m b hv
    · exact hlast m hm

theorem allSteps_of_forall_mem {C : α → Prop} {s : σ} {as : List α} (h : ∀ a ∈ as, C a) :
    AllSteps step (fun _ a => C a) s as :=
  fun _ _ a hv => h a (List.mem_of_getElem? hv.1)

/-- History rule: a predicate of the labels executed so far and of the state
they lead to holds along every run whose steps all meet `C`. -/
theorem run_history {C : σ → α → Prop} {P : List α → σ → Prop} {s : σ} (h0 : P [] s)
    (hstep : ∀ as m a t, run step s as = some m → AllSteps step C s as → C m a → P as m →
      step m a = some t → P (as ++ [a]) t) :
    ∀ {as t}, run step s as = some t → AllSteps step C s as → P as t := by
  intro as
  induction as using List.reverseRecOn with
  | nil =>
      intro t ht _
      cases ht
      exact h0
  | append_singleton as a ih =>
      intro t ht hall
      obtain ⟨m, hm, hs⟩ := (run_snoc_eq_some step).mp ht
      obtain ⟨hall, hlast⟩ := allSteps_snoc.mp hall
      exact hstep as m a t hm hall (hlast m hm) (ih hm hall) hs

/-- Invariant rule, for predicates of the state alone. -/
theorem run_invariant {C : σ → α → Prop} {P : σ → Prop} {s : σ} (h0 : P s)
    (hstep : ∀ m a t, C m a → P m → step m a = some t → P t) {as : List α} {t : σ}
    (ht : run step s as = some t) (hall : AllSteps step C s as) : P t :=
  run_history (P := fun _ m => P m) h0 (fun _ m a t _ _ hc hp hs => hstep m a t hc hp hs) ht hall

/-- Steps that leave the state alone may be dropped from a run. -/
theorem run_filter {C : σ → α → Prop} {P : σ → Prop} {p : α → Bool}
    (hkept : ∀ m a t, C m a → P m → step m a = some t → P t)
    (hidle : ∀ m a t, p a = false → P m → step m a = some t → t = m) {s t : σ} {as : List α}
    (hs : P s) (ht : run step s as = some t) (hall : AllSteps step C s as) :
    run step s (as.filter p) = some t := by
  induction as generalizing s with
  | nil => exact ht
  | cons a as ih =>
      obtain ⟨m, hm, hrest⟩ := Option.bind_eq_some_iff.mp ht
      have hfirst : C s a := hall 0 s a (visits_cons_zero.mpr ⟨rfl, rfl⟩)
      have htail : AllSteps step C m as :=
        fun n k b hv => hall (n + 1) k b (visits_cons_succ.mpr ⟨m, hm, hv⟩)
      have hfiltered := ih (hkept s a m hfirst hs hm) hrest htail
      cases hp : p a with
      | true =>
          rw [List.filter_cons_of_pos hp, run_cons, hm]
          exact hfiltered
      | false =>
          obtain rfl := hidle s a m hp hs hm
          rw [List.filter_cons_of_neg (by simp [hp])]
          exact hfiltered

/-- A prefix of a run that returns returns too. -/
theorem exists_run_take {s t : σ} {as : List α} (h : run step s as = some t) (n : ℕ) :
    ∃ m, run step s (as.take n) = some m := by
  rw [← List.take_append_drop n as, run_append] at h
  obtain ⟨m, hm, _⟩ := Option.bind_eq_some_iff.mp h
  exact ⟨m, hm⟩

theorem run_take_succ {s t : σ} {as : List α} {n : ℕ} {a : α} (ha : as[n]? = some a) :
    run step s (as.take (n + 1)) = some t ↔
      ∃ m, Visits step s as n m a ∧ step m a = some t := by
  rw [List.take_add_one, ha, Option.toList_some, run_snoc_eq_some]
  exact exists_congr fun m => and_congr_left fun _ => (and_iff_right ha).symm

theorem Visits.take {s m : σ} {as : List α} {n k : ℕ} {a : α} (h : Visits step s as n m a)
    (hk : n < k) : Visits step s (as.take k) n m a := by
  constructor
  · rw [List.getElem?_take_of_lt hk]
    exact h.1
  · rw [List.take_take, Nat.min_eq_left (Nat.le_of_lt hk)]
    exact h.2

theorem Visits.of_take {s m : σ} {as : List α} {n k : ℕ} {a : α}
    (h : Visits step s (as.take k) n m a) : Visits step s as n m a := by
  rw [← List.take_append_drop k as]
  exact (visits_append_left _ h.lt_length).mpr h

theorem AllSteps.take {C : σ → α → Prop} {s : σ} {as : List α}
    (hall : AllSteps step C s as) (n : ℕ) : AllSteps step C s (as.take n) := by
  intro k m b hv
  exact hall k m b hv.of_take

end Execution
