import Mathlib.Data.List.Induction

/-!
# Histories with an admissibility condition

A history is a list of entries, oldest first. `Lawful A` asks of every entry
that it was admissible given the entries before it, which is how an ordering or
at-most-once protocol is stated over a trace.
-/

namespace History

variable {α : Type*}

def Lawful (A : List α → α → Prop) (trace : List α) : Prop :=
  ∀ before a after, trace = before ++ a :: after → A before a

theorem lawful_nil (A : List α → α → Prop) : Lawful A [] := by
  intro before a after h
  simp at h

theorem lawful_snoc {A : List α → α → Prop} {trace : List α} {a : α} :
    Lawful A (trace ++ [a]) ↔ Lawful A trace ∧ A trace a := by
  constructor
  · intro h
    refine ⟨?_, h trace a [] rfl⟩
    intro before b after heq
    refine h before b (after ++ [a]) ?_
    rw [heq, List.append_assoc, List.cons_append]
  · rintro ⟨h, ha⟩ before b after heq
    induction after using List.reverseRecOn with
    | nil =>
        obtain ⟨rfl, hlast⟩ := List.append_inj' heq rfl
        cases hlast
        exact ha
    | append_singleton after c _ =>
        rw [← List.cons_append, ← List.append_assoc] at heq
        have hsplit := (List.append_inj' heq rfl).1
        exact h before b after hsplit

/-- Two conditions that agree on the entries of a trace admit it alike. -/
theorem lawful_congr {A B : List α → α → Prop} {trace : List α}
    (h : ∀ before a after, trace = before ++ a :: after → (A before a ↔ B before a)) :
    Lawful A trace ↔ Lawful B trace := by
  constructor
  · intro hlawful before a after heq
    exact (h before a after heq).mp (hlawful before a after heq)
  · intro hlawful before a after heq
    exact (h before a after heq).mpr (hlawful before a after heq)

theorem Lawful.of_append {A : List α → α → Prop} {trace rest : List α}
    (h : Lawful A (trace ++ rest)) : Lawful A trace := by
  intro before a after heq
  refine h before a (after ++ rest) ?_
  rw [heq, List.append_assoc, List.cons_append]

end History
