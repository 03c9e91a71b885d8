import Mathlib.Logic.Basic

/-!
# Programs that may stop early

A program `Fallible σ ε α` runs on a state `σ` and either returns a value or
stops with an error; what it did to the state before stopping stays done. `wp`
is its weakest precondition, with one postcondition for each way to end, and
the rules below follow the program text: sequencing, branching and a loop over
a list with an invariant of the elements already processed.
-/

def Fallible (σ ε α : Type) : Type := σ → Except ε α × σ

namespace Fallible

variable {σ ε α β : Type}

protected def pure (a : α) : Fallible σ ε α := fun s => (.ok a, s)

protected def bind (x : Fallible σ ε α) (f : α → Fallible σ ε β) : Fallible σ ε β := fun s =>
  match x s with
  | (.ok a, t) => f a t
  | (.error e, t) => (.error e, t)

instance : Monad (Fallible σ ε) where
  pure := Fallible.pure
  bind := Fallible.bind

/-- Stop with an error. -/
def stop (e : ε) : Fallible σ ε α := fun s => (.error e, s)

def modify (f : σ → σ) : Fallible σ ε Unit := fun s => (.ok (), f s)

def read : Fallible σ ε σ := fun s => (.ok s, s)

/-- Return the value of a computation that does not touch the state, or stop with its error. -/
def ofExcept : Except ε α → Fallible σ ε α
  | .ok a => Fallible.pure a
  | .error e => stop e

/-- Run a program on a part of the state. -/
def zoom {τ : Type} (get : σ → τ) (set : τ → σ → σ) (x : Fallible τ ε α) : Fallible σ ε α :=
  fun s => ((x (get s)).1, set (x (get s)).2 s)

/-- Run the body for every element in order; an error ends the loop. -/
def forEach (body : α → Fallible σ ε Unit) : List α → Fallible σ ε Unit
  | [] => pure ()
  | a :: as => do
    body a
    forEach body as

theorem bind_ok {x : Fallible σ ε α} {f : α → Fallible σ ε β} {s t : σ} {a : α}
    (h : x s = (.ok a, t)) : (x >>= f) s = f a t := by
  change Fallible.bind x f s = f a t
  rw [Fallible.bind, h]

theorem bind_error {x : Fallible σ ε α} {f : α → Fallible σ ε β} {s t : σ} {e : ε}
    (h : x s = (.error e, t)) : (x >>= f) s = (.error e, t) := by
  change Fallible.bind x f s = (.error e, t)
  rw [Fallible.bind, h]

/-- Replacing the returned value leaves the final state. -/
theorem bind_pure_snd (x : Fallible σ ε α) (f : α → β) (s : σ) :
    ((x >>= fun a => pure (f a)) s).2 = (x s).2 := by
  cases h : x s with
  | mk result t =>
      cases result with
      | ok a =>
          rw [bind_ok h]
          rfl
      | error e => rw [bind_error h]

protected theorem bind_pure (x : Fallible σ ε α) : x.bind Fallible.pure = x := by
  funext s
  unfold Fallible.bind
  cases h : x s with
  | mk result t => cases result <;> rfl

protected theorem bind_assoc {γ : Type} (x : Fallible σ ε α) (f : α → Fallible σ ε β)
    (g : β → Fallible σ ε γ) : (x.bind f).bind g = x.bind (fun a => (f a).bind g) := by
  funext s
  unfold Fallible.bind
  cases h : x s with
  | mk result t => cases result <;> rfl

instance : LawfulMonad (Fallible σ ε) :=
  LawfulMonad.mk' (Fallible σ ε) Fallible.bind_pure (fun _ _ => rfl) Fallible.bind_assoc

/-! ## Weakest preconditions -/

/-- From `s` the program returns into `Q` or stops in `E`. -/
def wp (x : Fallible σ ε α) (Q : α → σ → Prop) (E : ε → σ → Prop) (s : σ) : Prop :=
  match x s with
  | (.ok a, t) => Q a t
  | (.error e, t) => E e t

theorem wp_of_ok {x : Fallible σ ε α} {Q : α → σ → Prop} {E : ε → σ → Prop} {s t : σ} {a : α}
    (h : wp x Q E s) (hx : x s = (.ok a, t)) : Q a t := by
  rwa [wp, hx] at h

theorem wp_of_error {x : Fallible σ ε α} {Q : α → σ → Prop} {E : ε → σ → Prop} {s t : σ} {e : ε}
    (h : wp x Q E s) (hx : x s = (.error e, t)) : E e t := by
  rwa [wp, hx] at h

theorem wp_mono {x : Fallible σ ε α} {Q Q' : α → σ → Prop} {E E' : ε → σ → Prop} {s : σ}
    (h : wp x Q E s) (hQ : ∀ a t, Q a t → Q' a t) (hE : ∀ e t, E e t → E' e t) :
    wp x Q' E' s := by
  unfold wp at h ⊢
  split at h
  · exact hQ _ _ h
  · exact hE _ _ h

/-- What two specifications promise holds together. -/
theorem wp_and {x : Fallible σ ε α} {Q Q' : α → σ → Prop} {E E' : ε → σ → Prop} {s : σ}
    (h : wp x Q E s) (h' : wp x Q' E' s) :
    wp x (fun a t => Q a t ∧ Q' a t) (fun e t => E e t ∧ E' e t) s := by
  unfold wp at h h' ⊢
  cases hx : x s with
  | mk result t =>
      rw [hx] at h h'
      cases result with
      | ok a => exact ⟨h, h'⟩
      | error e => exact ⟨h, h'⟩

theorem wp_true (x : Fallible σ ε α) (s : σ) : wp x (fun _ _ => True) (fun _ _ => True) s := by
  unfold wp
  split <;> exact trivial

@[simp] theorem wp_pure {Q : α → σ → Prop} {E : ε → σ → Prop} {s : σ} {a : α} :
    wp (pure a : Fallible σ ε α) Q E s ↔ Q a s := Iff.rfl

@[simp] theorem wp_stop {Q : α → σ → Prop} {E : ε → σ → Prop} {s : σ} {e : ε} :
    wp (stop e : Fallible σ ε α) Q E s ↔ E e s := Iff.rfl

@[simp] theorem wp_modify {Q : Unit → σ → Prop} {E : ε → σ → Prop} {s : σ} {f : σ → σ} :
    wp (modify f : Fallible σ ε Unit) Q E s ↔ Q () (f s) := Iff.rfl

@[simp] theorem wp_read {Q : σ → σ → Prop} {E : ε → σ → Prop} {s : σ} :
    wp (read : Fallible σ ε σ) Q E s ↔ Q s s := Iff.rfl

theorem wp_zoom {τ : Type} {get : σ → τ} {set : τ → σ → σ} {x : Fallible τ ε α}
    {Q : α → σ → Prop} {E : ε → σ → Prop} {s : σ} :
    wp (zoom get set x) Q E s ↔
      wp x (fun a t => Q a (set t s)) (fun e t => E e (set t s)) (get s) := by
  cases hx : x (get s) with
  | mk result t => cases result <;> simp [wp, zoom, hx]

theorem wp_bind {x : Fallible σ ε α} {f : α → Fallible σ ε β} {Q : β → σ → Prop}
    {E : ε → σ → Prop} {s : σ} :
    wp (x >>= f) Q E s ↔ wp x (fun a t => wp (f a) Q E t) E s := by
  cases hx : x s with
  | mk result t =>
      cases result with
      | ok a =>
          have hbind : (x >>= f) s = f a t := bind_ok hx
          simp only [wp, hbind, hx]
      | error e =>
          have hbind : (x >>= f) s = (.error e, t) := bind_error hx
          simp only [wp, hbind, hx]

/-- Sequencing with a named intermediate assertion. -/
theorem wp_seq {x : Fallible σ ε α} {f : α → Fallible σ ε β} {Q : β → σ → Prop}
    {E : ε → σ → Prop} {s : σ} (M : α → σ → Prop) (hx : wp x M E s)
    (hf : ∀ a t, M a t → wp (f a) Q E t) : wp (x >>= f) Q E s :=
  wp_bind.mpr (wp_mono hx hf fun _ _ he => he)

theorem wp_ofExcept {result : Except ε α} {Q : α → σ → Prop} {E : ε → σ → Prop} {s : σ}
    (hok : ∀ a, result = .ok a → Q a s) (herror : ∀ e, result = .error e → E e s) :
    wp (ofExcept result) Q E s := by
  cases result with
  | ok a => exact hok a rfl
  | error e => exact herror e rfl

/-- Loop rule: `I` holds of the elements processed so far and the state. -/
theorem wp_forEach {body : α → Fallible σ ε Unit} {as : List α} {E : ε → σ → Prop} {s : σ}
    (I : List α → σ → Prop) (h0 : I [] s)
    (hbody : ∀ done a rest t, as = done ++ a :: rest → I done t →
      wp (body a) (fun _ => I (done ++ [a])) E t) :
    wp (forEach body as) (fun _ => I as) E s := by
  suffices hgen : ∀ done rest t, as = done ++ rest → I done t →
      wp (forEach body rest) (fun _ => I as) E t from hgen [] as s rfl h0
  intro done rest
  induction rest generalizing done with
  | nil =>
      intro t hsplit hinv
      rw [List.append_nil] at hsplit
      subst hsplit
      exact hinv
  | cons a rest ih =>
      intro t hsplit hinv
      refine wp_seq (fun _ => I (done ++ [a])) (hbody done a rest t hsplit hinv) ?_
      intro _ u hnext
      refine ih (done ++ [a]) u ?_ hnext
      rw [hsplit, List.append_assoc, List.singleton_append]

/-- A state invariant kept however the program ends. -/
def Keeps (I : σ → Prop) (x : Fallible σ ε α) : Prop :=
  ∀ s, I s → wp x (fun _ => I) (fun _ => I) s

theorem Keeps.apply {I : σ → Prop} {x : Fallible σ ε α} (h : Keeps I x) {s : σ} (hs : I s) :
    I (x s).2 := by
  have hwp := h s hs
  unfold wp at hwp
  split at hwp
  · next heq =>
    rw [heq]
    exact hwp
  · next heq =>
    rw [heq]
    exact hwp

theorem Keeps.of_apply {I : σ → Prop} {x : Fallible σ ε α} (h : ∀ s, I s → I (x s).2) :
    Keeps I x := by
  intro s hs
  have hafter := h s hs
  unfold wp
  split
  · next heq =>
    rw [heq] at hafter
    exact hafter
  · next heq =>
    rw [heq] at hafter
    exact hafter

theorem Keeps.pure {I : σ → Prop} (a : α) : Keeps I (pure a : Fallible σ ε α) :=
  fun _ hs => hs

theorem Keeps.bind {I : σ → Prop} {x : Fallible σ ε α} {f : α → Fallible σ ε β}
    (hx : Keeps I x) (hf : ∀ a, Keeps I (f a)) : Keeps I (x >>= f) :=
  fun s hs => wp_seq (fun _ => I) (hx s hs) fun a t ht => hf a t ht

theorem Keeps.forEach {I : σ → Prop} {body : α → Fallible σ ε Unit} {as : List α}
    (h : ∀ a ∈ as, Keeps I (body a)) : Keeps I (forEach body as) := by
  intro s hs
  refine wp_forEach (fun _ => I) hs ?_
  intro done a rest t hsplit ht
  exact h a (by simp [hsplit]) t ht

/-! ## Programs that agree -/

theorem bind_congr_left {x y : Fallible σ ε α} {s : σ} (f : α → Fallible σ ε β)
    (h : x s = y s) : (x >>= f) s = (y >>= f) s := by
  change Fallible.bind x f s = Fallible.bind y f s
  rw [Fallible.bind, Fallible.bind, h]

/-- Two programs that start alike agree when they agree wherever the start may end. -/
theorem bind_congr_wp {x : Fallible σ ε α} {f g : α → Fallible σ ε β} {E : ε → σ → Prop} {s : σ}
    (M : α → σ → Prop) (hx : wp x M E s) (hfg : ∀ a t, M a t → f a t = g a t) :
    (x >>= f) s = (x >>= g) s := by
  cases h : x s with
  | mk result t =>
      cases result with
      | ok a =>
          rw [bind_ok h, bind_ok h]
          exact hfg a t (wp_of_ok hx h)
      | error e => rw [bind_error h, bind_error h]

theorem Keeps.bind_congr {I : σ → Prop} {x : Fallible σ ε α} {f g : α → Fallible σ ε β} {s : σ}
    (hx : Keeps I x) (hs : I s) (hfg : ∀ a t, I t → f a t = g a t) : (x >>= f) s = (x >>= g) s :=
  bind_congr_wp (fun _ => I) (hx s hs) hfg

/-- Two loops agree when their bodies do, under an invariant of the first. -/
theorem forEach_congr {I : σ → Prop} {body other : α → Fallible σ ε Unit} {as : List α}
    (hkeeps : ∀ a ∈ as, Keeps I (body a))
    (hbody : ∀ a ∈ as, ∀ s, I s → body a s = other a s) {s : σ} (hs : I s) :
    forEach body as s = forEach other as s := by
  induction as generalizing s with
  | nil => rfl
  | cons a as ih =>
      have htail : (body a >>= fun _ => forEach body as) s =
          (body a >>= fun _ => forEach other as) s := by
        refine (hkeeps a List.mem_cons_self).bind_congr hs fun _ t ht => ?_
        exact ih (fun b hb => hkeeps b (List.mem_cons_of_mem a hb))
          (fun b hb => hbody b (List.mem_cons_of_mem a hb)) ht
      change (body a >>= fun _ => forEach body as) s = (other a >>= fun _ => forEach other as) s
      rw [htail]
      exact bind_congr_left _ (hbody a List.mem_cons_self s hs)

end Fallible
