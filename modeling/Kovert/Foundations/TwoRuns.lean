import Kovert.Foundations.Execution

/-!
# Two runs side by side

Relational reasoning about two partial systems that take corresponding labels.
`run_related` carries a relation along two runs that both return; `run_congr`
makes two runs equal when the steps agree under an invariant, and `run_thinned`
leaves idle steps out of a run. For systems
that also answer, `answers` lists what successive calls return, and
`answers_eq` compares the lists of two systems whose calls answer alike, an
abort included.
-/

namespace Execution

variable {σ τ α α' : Type*} {step : σ → α → Option σ} {step' : τ → α' → Option τ}

/-- A relation that corresponding steps keep holds at the end of two runs. -/
theorem run_related {R : σ → τ → Prop} {A : α → α' → Prop}
    (hstep : ∀ s t a b s' t', R s t → A a b → step s a = some s' → step' t b = some t' → R s' t')
    {as : List α} {bs : List α'} (hlabels : List.Forall₂ A as bs) {s s' : σ} {t t' : τ}
    (hR : R s t) (hs : run step s as = some s') (ht : run step' t bs = some t') : R s' t' := by
  induction hlabels generalizing s t with
  | nil =>
      cases hs
      cases ht
      exact hR
  | cons hlabel _ ih =>
      obtain ⟨s₁, hs₁, hs⟩ := Option.bind_eq_some_iff.mp hs
      obtain ⟨t₁, ht₁, ht⟩ := Option.bind_eq_some_iff.mp ht
      exact ih (hstep _ _ _ _ _ _ hR hlabel hs₁ ht₁) hs ht

/-- Two systems whose steps agree in the states of an invariant have the same runs. -/
theorem run_congr {C : σ → α → Prop} {P : σ → Prop} {other : σ → α → Option σ}
    (hkept : ∀ s a t, C s a → P s → step s a = some t → P t)
    (hstep : ∀ s a, C s a → P s → other s a = step s a) {s : σ} {as : List α}
    (hall : AllSteps step C s as) (hs : P s) : run other s as = run step s as := by
  induction as generalizing s with
  | nil => rfl
  | cons a as ih =>
      have hfirst : C s a := hall 0 s a (visits_cons_zero.mpr ⟨rfl, rfl⟩)
      rw [run_cons, run_cons, hstep s a hfirst hs]
      cases ht : step s a with
      | none => rfl
      | some t =>
          refine ih (fun n m b hv => ?_) (hkept s a t hfirst hs ht)
          exact hall (n + 1) m b (visits_cons_succ.mpr ⟨t, ht, hv⟩)

/-- `bs` is `as` without some of its steps, each of them idle in the state it is taken in. -/
inductive Thinned (step : σ → α → Option σ) (I : σ → α → Prop) : σ → List α → List α → Prop where
  | done (s : σ) : Thinned step I s [] []
  | kept {s t : σ} {a : α} {as bs : List α} (hs : step s a = some t)
      (hrest : Thinned step I t as bs) : Thinned step I s (a :: as) (a :: bs)
  | left {s t : σ} {a : α} {as bs : List α} (hidle : I s a) (hs : step s a = some t)
      (hrest : Thinned step I t as bs) : Thinned step I s (a :: as) bs

/-- Steps that leave a state related to itself may be left out of a run. -/
theorem run_thinned {I : σ → α → Prop} {C : α → Prop} {P : σ → Prop} {R : σ → σ → Prop}
    (hinvariant : ∀ s a s', C a → P s → step s a = some s' → P s')
    (hkept : ∀ s t a s', C a → P s → R s t → step s a = some s' →
      ∃ t', step t a = some t' ∧ R s' t')
    (hidle : ∀ s t a s', I s a → P s → R s t → step s a = some s' → R s' t)
    {as bs : List α} {s s' t : σ} (hthinned : Thinned step I s as bs) (hall : ∀ a ∈ as, C a)
    (hs : P s) (hR : R s t) (hrun : run step s as = some s') :
    ∃ t', run step t bs = some t' ∧ R s' t' := by
  induction hthinned generalizing t with
  | done s =>
      cases hrun
      exact ⟨t, rfl, hR⟩
  | @kept s m a as bs hm _ ih =>
      have hfirst : C a := hall a List.mem_cons_self
      obtain ⟨n, hn, hnext⟩ := hkept s t a m hfirst hs hR hm
      rw [run_cons, hm] at hrun
      obtain ⟨t', ht', hlast⟩ := ih (fun b hb => hall b (List.mem_cons_of_mem a hb))
        (hinvariant s a m hfirst hs hm) hnext hrun
      exact ⟨t', by rw [run_cons, hn]; exact ht', hlast⟩
  | @left s m a as bs hstep hm _ ih =>
      have hfirst : C a := hall a List.mem_cons_self
      rw [run_cons, hm] at hrun
      exact ih (fun b hb => hall b (List.mem_cons_of_mem a hb)) (hinvariant s a m hfirst hs hm)
        (hidle s t a m hstep hs hR hm) hrun

variable {β : Type*}

/-- What successive calls answer; `none` is a call that aborts, and the last one. -/
def answers (call : σ → α → Option (σ × β)) : σ → List α → List (Option β)
  | _, [] => []
  | s, a :: as =>
    match call s a with
    | none => [none]
    | some (t, b) => some b :: answers call t as

/-- Two calls abort together, or answer the same and leave related states. -/
def SameAnswer (R : σ → τ → Prop) : Option (σ × β) → Option (τ × β) → Prop :=
  Option.Rel (fun left right => R left.1 right.1 ∧ left.2 = right.2)

theorem answers_eq {R : σ → τ → Prop} {A : α → α' → Prop} {call : σ → α → Option (σ × β)}
    {call' : τ → α' → Option (τ × β)}
    (hcall : ∀ s t a b, R s t → A a b → SameAnswer R (call s a) (call' t b)) {as : List α}
    {bs : List α'} (hlabels : List.Forall₂ A as bs) {s : σ} {t : τ} (hR : R s t) :
    answers call s as = answers call' t bs := by
  induction hlabels generalizing s t with
  | nil => rfl
  | @cons a b as bs hlabel _ ih =>
      have hsame := hcall s t a b hR hlabel
      rw [answers, answers]
      generalize call s a = left at hsame ⊢
      generalize call' t b = right at hsame ⊢
      cases hsame with
      | none => rfl
      | some h =>
          obtain ⟨hnext, hanswer⟩ := h
          simp only [hanswer, ih hnext]

end Execution
