import Mathlib.Data.List.Basic

/-!
# Words and lines

A text over any alphabet is cut at separators: into its words, which are the
non-empty runs between separators, into its lines, or in two at an occurrence of
a pattern. What was written with such separators is read back.
-/

namespace Words

variable {α : Type*}

/-! ## Words -/

def words (isSep : α → Bool) (text : List α) : List (List α) :=
  (text.splitOnP isSep).filter (fun word => !word.isEmpty)

/-- A word: not empty, and without separators. -/
def IsWord (isSep : α → Bool) (word : List α) : Prop :=
  word ≠ [] ∧ ∀ a ∈ word, isSep a = false

instance [DecidableEq α] (isSep : α → Bool) (word : List α) : Decidable (IsWord isSep word) :=
  inferInstanceAs (Decidable (_ ∧ _))

variable {isSep : α → Bool}

theorem words_skip {a : α} (ha : isSep a = true) (text : List α) :
    words isSep (a :: text) = words isSep text := by
  simp [words, List.splitOnP_cons_eq_if_modifyHead, ha]

/-- Padding in front does not count. -/
theorem words_pad {pad : List α} (h : ∀ a ∈ pad, isSep a = true) (text : List α) :
    words isSep (pad ++ text) = words isSep text := by
  induction pad with
  | nil => rfl
  | cons a pad ih =>
      rw [List.cons_append, words_skip (h a List.mem_cons_self)]
      exact ih fun b hb => h b (List.mem_cons_of_mem a hb)

theorem words_cut {word : List α} (hword : IsWord isSep word) {a : α} (ha : isSep a = true)
    (text : List α) : words isSep (word ++ a :: text) = word :: words isSep text := by
  rw [words, List.splitOnP_append_cons_of_forall_mem hword.2 a ha, List.filter_cons_of_pos]
  · rfl
  · simpa using hword.1

/-- Words with one separator between them. -/
def unwords (sep : α) (ws : List (List α)) : List α := [sep].intercalate ws

/-- A text ends like its last field, or with the separator in front of it. -/
theorem getLast?_ne {sep a : α} (hne : a ≠ sep) (front : List α) {last : List α}
    (h : last.getLast? ≠ some a) : (front ++ sep :: last).getLast? ≠ some a := by
  rw [List.getLast?_append, List.getLast?_cons]
  cases hlast : last.getLast? with
  | none => simpa using hne.symm
  | some b =>
      rw [hlast] at h
      simpa using h

/-- A carriage return in front of the newline belongs to the line end. -/
def stripReturn [DecidableEq α] (ret : α) (line : List α) : List α :=
  if line.getLast? = some ret then line.dropLast else line

/-- What follows the last newline is a line if it is not empty. -/
def lines [DecidableEq α] (newline ret : α) (text : List α) : List (List α) :=
  match (text.splitOn newline).getLast? with
  | some [] => (text.splitOn newline).dropLast.map (stripReturn ret)
  | some last => (text.splitOn newline).dropLast.map (stripReturn ret) ++ [last]
  | none => []

def unlines (newline : α) (ls : List (List α)) : List α := ls.flatMap (· ++ [newline])

section Lines

variable [DecidableEq α] {newline ret : α}

theorem splitOn_unlines {ls : List (List α)} (h : ∀ line ∈ ls, newline ∉ line) :
    (unlines newline ls).splitOn newline = ls ++ [[]] := by
  induction ls with
  | nil => rfl
  | cons line ls ih =>
      have hline : ∀ a ∈ line, (a == newline) = false := by
        intro a ha
        by_contra heq
        have hsame : a = newline := by simpa using heq
        exact h line List.mem_cons_self (hsame ▸ ha)
      have hcons : unlines newline (line :: ls) = line ++ newline :: unlines newline ls := by
        simp [unlines]
      replace ih := ih fun other hother => h other (List.mem_cons_of_mem line hother)
      rw [List.splitOn_eq_splitOnP] at ih ⊢
      rw [hcons, List.splitOnP_append_cons_of_forall_mem hline newline (beq_self_eq_true newline),
        ih, List.cons_append]

/-- Lines that were ended by newlines are read back. -/
theorem lines_unlines {ls : List (List α)} (h : ∀ line ∈ ls, newline ∉ line)
    (hret : ∀ line ∈ ls, line.getLast? ≠ some ret) :
    lines newline ret (unlines newline ls) = ls := by
  unfold lines
  rw [splitOn_unlines h, List.getLast?_concat]
  simp only [List.dropLast_concat]
  have hstrip : ∀ line ∈ ls, stripReturn ret line = id line :=
    fun line hline => if_neg (hret line hline)
  rw [List.map_congr_left hstrip, List.map_id]

end Lines

/-! ## Cutting in two -/

/-- Cut at the first occurrence of the pattern. -/
def splitOnce [DecidableEq α] (pattern : List α) : List α → Option (List α × List α)
  | [] => none
  | a :: text =>
    if pattern <+: a :: text then some ([], (a :: text).drop pattern.length)
    else (splitOnce pattern text).map (fun cut => (a :: cut.1, cut.2))

/-- Cut at the last occurrence of the symbol. -/
def rsplitOnce [DecidableEq α] (sep : α) (text : List α) : Option (List α × List α) :=
  (splitOnce [sep] text.reverse).map (fun cut => (cut.2.reverse, cut.1.reverse))

section Cuts

variable [DecidableEq α]

end Cuts

end Words
