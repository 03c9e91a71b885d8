import Mathlib.Data.Finset.Basic
import Mathlib.Data.List.Nodup

/-!
# Replaying change events

A producer compares what it observes with what it saw before and sends the
changes; a consumer folds them into a state. `Woven` mixes the messages of the
producer with events of other origin, `foldl_woven` reduces a view of the
consumer's state to the messages that touch it, and `Keyed` is a state of
independent cells in which the last write to a key decides.
-/

namespace Replay

variable {σ β ε μ ι : Type*}

/-! ## Views of the consumer's state -/

/-- The events carry the messages in order, with other events in between. -/
inductive Woven (message : ε → μ) (between : ε → Prop) : List μ → List ε → Prop where
  | nil : Woven message between [] []
  | message (event : ε) {messages : List μ} {events : List ε}
      (h : Woven message between messages events) :
      Woven message between (message event :: messages) (event :: events)
  | between (event : ε) (hbetween : between event) {messages : List μ} {events : List ε}
      (h : Woven message between messages events) :
      Woven message between messages (event :: events)

theorem Woven.of_map (message : ε → μ) (between : ε → Prop) (events : List ε) :
    Woven message between (events.map message) events := by
  induction events with
  | nil => exact .nil
  | cons event events ih => exact .message event ih

/-- A view that only the messages move is the fold of the messages. -/
theorem foldl_woven {message : ε → μ} {between : ε → Prop} {messages : List μ} {events : List ε}
    (h : Woven message between messages events) {apply : σ → ε → σ} {f : σ → β}
    {u : β → μ → β} (happly : ∀ s event, f (apply s event) = u (f s) (message event))
    (hbetween : ∀ event, between event → ∀ v, u v (message event) = v) (s : σ) :
    f (events.foldl apply s) = messages.foldl u (f s) := by
  induction h generalizing s with
  | nil => rfl
  | message event _ ih => rw [List.foldl_cons, List.foldl_cons, ih, happly]
  | between event hevent _ ih => rw [List.foldl_cons, ih, happly, hbetween event hevent]

theorem foldl_ignored {update : β → μ → β} {messages : List μ}
    (h : ∀ m ∈ messages, ∀ v, update v m = v) (v : β) : messages.foldl update v = v := by
  induction messages generalizing v with
  | nil => rfl
  | cons m messages ih =>
      rw [List.foldl_cons, h m List.mem_cons_self]
      exact ih (fun m hm => h m (List.mem_cons_of_mem _ hm)) v

/-- Of several sources only one moves the view. -/
theorem foldl_flatMap_of_ignored {update : β → μ → β} {sources : List ι} {send : ι → List μ}
    {i : ι} (hnodup : sources.Nodup) (hi : i ∈ sources)
    (h : ∀ j ∈ sources, j ≠ i → ∀ m ∈ send j, ∀ v, update v m = v) (v : β) :
    (sources.flatMap send).foldl update v = (send i).foldl update v := by
  induction sources generalizing v with
  | nil => cases hi
  | cons j sources ih =>
      obtain ⟨hfresh, hnodup⟩ := List.nodup_cons.mp hnodup
      rw [List.flatMap_cons, List.foldl_append]
      rcases List.mem_cons.mp hi with rfl | hi
      · apply foldl_ignored
        intro m hm
        obtain ⟨k, hk, hm⟩ := List.mem_flatMap.mp hm
        have hne : k ≠ i := fun heq => hfresh (heq ▸ hk)
        exact h k (List.mem_cons_of_mem _ hk) hne m hm
      · have hne : j ≠ i := fun heq => hfresh (heq ▸ hi)
        rw [foldl_ignored (h j List.mem_cons_self hne)]
        exact ih hnodup hi (fun k hk => h k (List.mem_cons_of_mem _ hk)) v

/-- Of several sources only one speaks. -/
theorem flatMap_of_silent {sources : List ι} {send : ι → List μ} {i : ι}
    (hnodup : sources.Nodup) (hi : i ∈ sources) (h : ∀ j ∈ sources, j ≠ i → send j = []) :
    sources.flatMap send = send i := by
  induction sources with
  | nil => cases hi
  | cons j sources ih =>
      obtain ⟨hfresh, hnodup⟩ := List.nodup_cons.mp hnodup
      rw [List.flatMap_cons]
      rcases List.mem_cons.mp hi with rfl | hi
      · have hrest : sources.flatMap send = [] := by
          rw [List.flatMap_eq_nil_iff]
          intro k hk
          exact h k (List.mem_cons_of_mem _ hk) (fun heq => hfresh (heq ▸ hk))
        rw [hrest, List.append_nil]
      · rw [h j List.mem_cons_self (fun heq => hfresh (heq ▸ hi)), List.nil_append]
        exact ih hnodup hi (fun k hk => h k (List.mem_cons_of_mem _ hk))

/-! ## Keyed cells -/

variable {κ α : Type*} [DecidableEq κ]

/-- A state that holds one value for each key. -/
structure Keyed (σ κ α : Type*) [DecidableEq κ] where
  get : σ → κ → α
  put : σ → κ → α → σ
  get_put : ∀ s k a j, get (put s k a) j = if j = k then a else get s j

namespace Keyed

/-- The members of a finite set, with membership as the value. -/
def members : Keyed (Finset κ) κ Bool where
  get s k := decide (k ∈ s)
  put s k member := if member then insert k s else s.erase k
  get_put s k member j := by
    by_cases hj : j = k
    · cases member <;> simp [hj]
    · cases member <;> simp [hj]

/-- A partial function. -/
def cells : Keyed (κ → Option α) κ (Option α) where
  get s k := s k
  put s k a := Function.update s k a
  get_put s k a j := Function.update_apply s k a j

def write (m : Keyed σ κ α) (s : σ) (entry : κ × α) : σ := m.put s entry.1 entry.2

/-- A key holds the value that all writes to it carry, if there is one or it held it before. -/
theorem get_foldl_write (m : Keyed σ κ α) {entries : List (κ × α)} {s : σ} {k : κ} {a : α}
    (hvalue : ∀ entry ∈ entries, entry.1 = k → entry.2 = a)
    (hcover : (∃ entry ∈ entries, entry.1 = k) ∨ m.get s k = a) :
    m.get (entries.foldl m.write s) k = a := by
  induction entries generalizing s with
  | nil =>
      rcases hcover with ⟨entry, hentry, _⟩ | hheld
      · cases hentry
      · exact hheld
  | cons entry entries ih =>
      rw [List.foldl_cons]
      apply ih (fun other hother => hvalue other (List.mem_cons_of_mem _ hother))
      rw [write, m.get_put]
      by_cases hk : k = entry.1
      · rw [if_pos hk]
        exact Or.inr (hvalue entry List.mem_cons_self hk.symm)
      · rw [if_neg hk]
        rcases hcover with ⟨other, hother, hsame⟩ | hheld
        · rcases List.mem_cons.mp hother with rfl | hother
          · exact absurd hsame.symm hk
          · exact Or.inl ⟨other, hother, hsame⟩
        · exact Or.inr hheld

theorem mem_foldl_write {entries : List (κ × Bool)} {set : Finset κ} {k : κ} {p : Prop}
    (hvalue : ∀ entry ∈ entries, entry.1 = k → (entry.2 = true ↔ p))
    (hcover : (∃ entry ∈ entries, entry.1 = k) ∨ (k ∈ set ↔ p)) :
    k ∈ entries.foldl members.write set ↔ p := by
  classical
  have hget : members.get (entries.foldl members.write set) k = decide p := by
    apply get_foldl_write
    · intro entry hentry hk
      rw [Bool.eq_iff_iff, decide_eq_true_iff]
      exact hvalue entry hentry hk
    · rcases hcover with hwritten | hheld
      · exact Or.inl hwritten
      · exact Or.inr (decide_eq_decide.mpr hheld)
  exact decide_eq_decide.mp hget

theorem cell_foldl_write {entries : List (κ × Option α)} {f : κ → Option α} {k : κ} {a : Option α}
    (hvalue : ∀ entry ∈ entries, entry.1 = k → entry.2 = a)
    (hcover : (∃ entry ∈ entries, entry.1 = k) ∨ f k = a) :
    entries.foldl cells.write f k = a :=
  cells.get_foldl_write hvalue hcover

end Keyed
end Replay
