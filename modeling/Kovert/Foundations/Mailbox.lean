import Mathlib.Data.List.Infix

/-!
# Bounded channels

A `Mailbox` is a channel from many senders to one receiver that holds at most
`capacity` messages. All that has been posted and taken so far is kept as
history, and the fields say that the receiver sees the messages in the order in
which they were posted, each of them once.
-/

structure Mailbox (α : Type*) where
  capacity : ℕ
  queue : List α
  posted : List α
  taken : List α
  fits : queue.length ≤ capacity
  order : posted = taken ++ queue

namespace Mailbox

variable {α : Type*} {box next : Mailbox α} {a : α}

def empty (capacity : ℕ) : Mailbox α := ⟨capacity, [], [], [], Nat.zero_le _, rfl⟩

/-- A message goes in when there is room. -/
def post (box : Mailbox α) (a : α) : Option (Mailbox α) :=
  if h : box.queue.length < box.capacity then
    some ⟨box.capacity, box.queue ++ [a], box.posted ++ [a], box.taken,
      by rw [List.length_append]; exact h, by rw [box.order, List.append_assoc]⟩
  else none

/-- The message that has been waiting longest. -/
def take (box : Mailbox α) : Option (α × Mailbox α) :=
  match h : box.queue with
  | [] => none
  | a :: rest =>
    some (a, ⟨box.capacity, rest, box.posted, box.taken ++ [a],
      by have hfits := box.fits; rw [h, List.length_cons] at hfits; omega,
      by rw [box.order, h, List.append_assoc, List.singleton_append]⟩)

theorem post_eq_some (h : box.post a = some next) :
    box.queue.length < box.capacity ∧ next.capacity = box.capacity ∧
      next.queue = box.queue ++ [a] ∧ next.posted = box.posted ++ [a] ∧ next.taken = box.taken := by
  unfold post at h
  split at h
  · next hroom =>
    cases h
    exact ⟨hroom, rfl, rfl, rfl, rfl⟩
  · cases h

theorem take_eq_some (h : box.take = some (a, next)) :
    next.capacity = box.capacity ∧ box.queue = a :: next.queue ∧ next.posted = box.posted ∧
      next.taken = box.taken ++ [a] := by
  unfold take at h
  split at h
  · cases h
  · next head rest hqueue =>
    cases h
    exact ⟨rfl, hqueue, rfl, rfl⟩

/-- `next` is the same channel some posts and receipts later. -/
def Later (box next : Mailbox α) : Prop :=
  box.posted <+: next.posted ∧ box.taken <+: next.taken

theorem Later.refl (box : Mailbox α) : Later box box :=
  ⟨List.prefix_rfl, List.prefix_rfl⟩

theorem Later.trans {last : Mailbox α} (h : Later box next) (h' : Later next last) :
    Later box last :=
  ⟨h.1.trans h'.1, h.2.trans h'.2⟩

theorem later_of_post (h : box.post a = some next) : Later box next := by
  obtain ⟨_, _, _, hposted, htaken⟩ := post_eq_some h
  rw [Later, hposted, htaken]
  exact ⟨List.prefix_append _ _, List.prefix_rfl⟩

theorem later_of_take (h : box.take = some (a, next)) : Later box next := by
  obtain ⟨_, _, hposted, htaken⟩ := take_eq_some h
  rw [Later, hposted, htaken]
  exact ⟨List.prefix_rfl, List.prefix_append _ _⟩

end Mailbox
