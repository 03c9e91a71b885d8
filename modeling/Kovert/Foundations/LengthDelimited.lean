import Mathlib.Data.List.Basic
import Mathlib.Algebra.Order.Ring.Nat

/-!
# Length-delimited byte streams

Each field is written as its length in `width` little-endian bytes followed by
its bytes. As long as no length overflows the header, the stream of a list of
fields determines the fields.
-/

namespace LengthDelimited

/-- The `width` low-order bytes of `n`, least significant first. -/
def leBytes : ℕ → ℕ → List UInt8
  | 0, _ => []
  | width + 1, n => UInt8.ofNat n :: leBytes width (n / 256)

def frame (width : ℕ) (field : List UInt8) : List UInt8 := leBytes width field.length ++ field

def stream (width : ℕ) (fields : List (List UInt8)) : List UInt8 := fields.flatMap (frame width)

theorem leBytes_length (width n : ℕ) : (leBytes width n).length = width := by
  induction width generalizing n with
  | zero => rfl
  | succ width ih => rw [leBytes, List.length_cons, ih]

theorem leBytes_inj {width m n : ℕ} (hm : m < 256 ^ width) (hn : n < 256 ^ width)
    (h : leBytes width m = leBytes width n) : m = n := by
  induction width generalizing m n with
  | zero =>
      rw [pow_zero] at hm hn
      omega
  | succ width ih =>
      rw [pow_succ'] at hm hn
      obtain ⟨hbyte, hrest⟩ := List.cons.inj h
      have hlow : m % 256 = n % 256 := by simpa using congrArg UInt8.toNat hbyte
      have hhigh : m / 256 = n / 256 :=
        ih (Nat.div_lt_of_lt_mul hm) (Nat.div_lt_of_lt_mul hn) hrest
      omega

theorem frame_append_inj {width : ℕ} {x y xs ys : List UInt8} (hx : x.length < 256 ^ width)
    (hy : y.length < 256 ^ width) (h : frame width x ++ xs = frame width y ++ ys) :
    x = y ∧ xs = ys := by
  rw [frame, frame, List.append_assoc, List.append_assoc] at h
  obtain ⟨hheader, hbody⟩ := List.append_inj h (by rw [leBytes_length, leBytes_length])
  have hlength : x.length = y.length := leBytes_inj hx hy hheader
  exact List.append_inj hbody hlength

theorem stream_inj {width : ℕ} {xs ys : List (List UInt8)} (hcount : xs.length = ys.length)
    (hx : ∀ x ∈ xs, x.length < 256 ^ width) (hy : ∀ y ∈ ys, y.length < 256 ^ width)
    (h : stream width xs = stream width ys) : xs = ys := by
  induction xs generalizing ys with
  | nil => exact (List.eq_nil_of_length_eq_zero hcount.symm).symm
  | cons x xs ih =>
      cases ys with
      | nil => cases hcount
      | cons y ys =>
          rw [stream, stream, List.flatMap_cons, List.flatMap_cons] at h
          obtain ⟨hhead, htail⟩ :=
            frame_append_inj (hx x List.mem_cons_self) (hy y List.mem_cons_self) h
          have hrest : xs = ys := by
            apply ih (Nat.succ.inj hcount) _ _ htail
            · exact fun z hz => hx z (List.mem_cons_of_mem x hz)
            · exact fun z hz => hy z (List.mem_cons_of_mem y hz)
          rw [hhead, hrest]

end LengthDelimited
