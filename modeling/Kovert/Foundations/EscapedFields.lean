import Mathlib.Data.List.Basic

/-!
# Fields with escapes

Fields over any alphabet are joined with a separator; inside a field the
separator and the escape symbol are written after an escape symbol. The decoder
reads one symbol at a time and remembers whether the last one was an escape.
-/

namespace EscapedFields

variable {α : Type*} [DecidableEq α] (sep esc : α)

/-- The completed fields, the field being read, and the escape flag. -/
structure Parse (α : Type*) where
  done : List (List α)
  current : List α
  escaped : Bool

namespace Parse

def start : Parse α := ⟨[], [], false⟩

def step (parse : Parse α) (a : α) : Parse α :=
  if parse.escaped then ⟨parse.done, parse.current ++ [a], false⟩
  else if a = esc then { parse with escaped := true }
  else if a = sep then ⟨parse.done ++ [parse.current], [], false⟩
  else { parse with current := parse.current ++ [a] }

/-- An escape symbol at the end stands for itself. -/
def fields (parse : Parse α) : List (List α) :=
  parse.done ++ [if parse.escaped then parse.current ++ [esc] else parse.current]

end Parse

def decode (text : List α) : List (List α) := (text.foldl (Parse.step sep esc) .start).fields esc

def escapeSymbol (a : α) : List α := if a = sep ∨ a = esc then [esc, a] else [a]

def escape (field : List α) : List α := field.flatMap (escapeSymbol sep esc)

def encode (fields : List (List α)) : List α := [sep].intercalate (fields.map (escape sep esc))

theorem decode_ne_nil (text : List α) : decode sep esc text ≠ [] :=
  List.append_ne_nil_of_right_ne_nil _ (List.cons_ne_nil _ _)

variable {sep esc}

theorem foldl_escapeSymbol (done : List (List α)) (current : List α) (a : α) :
    (escapeSymbol sep esc a).foldl (Parse.step sep esc) ⟨done, current, false⟩ =
      ⟨done, current ++ [a], false⟩ := by
  by_cases hspecial : a = sep ∨ a = esc
  · rw [escapeSymbol, if_pos hspecial]
    simp [Parse.step]
  · obtain ⟨hsep, hesc⟩ := not_or.mp hspecial
    rw [escapeSymbol, if_neg hspecial]
    simp [Parse.step, hsep, hesc]

/-- An escaped field is read into the current field, and leaves no escape open. -/
theorem foldl_escape (done : List (List α)) (current field : List α) :
    (escape sep esc field).foldl (Parse.step sep esc) ⟨done, current, false⟩ =
      ⟨done, current ++ field, false⟩ := by
  induction field generalizing current with
  | nil => rw [List.append_nil]; rfl
  | cons a field ih =>
      rw [escape, List.flatMap_cons, List.foldl_append, foldl_escapeSymbol]
      rw [← escape, ih, List.append_assoc]
      rfl

theorem step_sep (hne : sep ≠ esc) (done : List (List α)) (current : List α) :
    Parse.step sep esc ⟨done, current, false⟩ sep = ⟨done ++ [current], [], false⟩ := by
  simp [Parse.step, hne]

theorem foldl_encode (hne : sep ≠ esc) (done : List (List α)) (field : List α)
    (fields : List (List α)) :
    ((encode sep esc (field :: fields)).foldl (Parse.step sep esc) ⟨done, [], false⟩).fields esc =
      done ++ field :: fields := by
  induction fields generalizing done field with
  | nil =>
      have hencode : encode sep esc [field] = escape sep esc field := by
        simp [encode]
      rw [hencode, foldl_escape]
      rfl
  | cons next fields ih =>
      have hencode : encode sep esc (field :: next :: fields) =
          escape sep esc field ++ sep :: encode sep esc (next :: fields) := by
        simp [encode, List.intercalate]
      rw [hencode, List.foldl_append, List.foldl_cons, foldl_escape, step_sep hne, ih]
      simp

/-- What has been escaped and joined is decoded to the same fields. -/
theorem decode_encode (hne : sep ≠ esc) {fields : List (List α)} (h : fields ≠ []) :
    decode sep esc (encode sep esc fields) = fields := by
  cases fields with
  | nil => exact absurd rfl h
  | cons field fields => exact foldl_encode hne [] field fields

end EscapedFields
