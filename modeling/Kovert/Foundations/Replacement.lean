import Mathlib.Data.List.Infix
import Mathlib.Data.List.Nodup

/-!
# Decoding by successive replacements

A code table gives some symbols a code word that starts with an escape symbol,
and the decoder replaces the code words one after the other over the whole text.
When the code words have one length, no escape symbol inside, and the escape
symbol itself comes last, no replacement makes or breaks a code word that is
still to be replaced.
-/

namespace Replacement

variable {α : Type*}

/-! ## Code tables -/

/-- The code words after the escape symbol, in the order of their replacement. -/
abbrev Table (α : Type*) := List (α × List α)

/-- One code word for each symbol, all of one length and without an escape
symbol inside; the escape symbol has the last one. -/
structure Table.Decodable (esc : α) (width : ℕ) (table : Table α) : Prop where
  symbols : (table.map Prod.fst).Nodup
  codes : (table.map Prod.snd).Nodup
  shape : ∀ entry ∈ table, entry.2.length = width ∧ esc ∉ entry.2
  last : ∀ entry, table.getLast? = some entry → entry.1 = esc

variable {esc : α} {width : ℕ} {table : Table α}

theorem Table.Decodable.tail {entry : α × List α} (h : Decodable esc width (entry :: table)) :
    Decodable esc width table where
  symbols := (List.nodup_cons.mp h.symbols).2
  codes := (List.nodup_cons.mp h.codes).2
  shape := fun other hother => h.shape other (List.mem_cons_of_mem entry hother)
  last := by
    intro other hother
    apply h.last
    rw [List.getLast?_cons, hother]
    rfl

theorem Table.Decodable.esc_mem {entry : α × List α} (h : Decodable esc width (entry :: table)) :
    esc ∈ (entry :: table).map Prod.fst := by
  have hlast := h.last _ (List.getLast?_eq_some_getLast (List.cons_ne_nil entry table))
  rw [← hlast]
  exact List.mem_map_of_mem (List.getLast_mem _)

/-! ## One replacement -/

variable [DecidableEq α]

/-- Copies `text` with every occurrence of a non-empty pattern replaced, from the left
and without overlap; `skip` symbols are still covered by the last occurrence. -/
def replaceFrom (pattern target : List α) : ℕ → List α → List α
  | _, [] => []
  | skip + 1, _ :: rest => replaceFrom pattern target skip rest
  | 0, a :: rest =>
    if pattern <+: a :: rest then
      target ++ replaceFrom pattern target (pattern.length - 1) rest
    else a :: replaceFrom pattern target 0 rest

def replace (pattern target text : List α) : List α := replaceFrom pattern target 0 text

theorem replaceFrom_append (pattern target covered rest : List α) :
    replaceFrom pattern target covered.length (covered ++ rest) = replace pattern target rest := by
  induction covered with
  | nil => rfl
  | cons a covered ih =>
      rw [List.length_cons, List.cons_append, replaceFrom]
      exact ih

theorem replace_cons_of_not_prefix {pattern target rest : List α} {a : α}
    (h : ¬ pattern <+: a :: rest) :
    replace pattern target (a :: rest) = a :: replace pattern target rest := by
  rw [replace, replaceFrom, if_neg h]
  rfl

variable {code target : List α}

theorem replace_occurrence (rest : List α) :
    replace (esc :: code) target (esc :: code ++ rest) =
      target ++ replace (esc :: code) target rest := by
  have hoccurs : esc :: code <+: esc :: (code ++ rest) := List.prefix_append (esc :: code) rest
  rw [List.cons_append, replace, replaceFrom, if_pos hoccurs, List.length_cons, Nat.add_sub_cancel,
    replaceFrom_append]

/-- Symbols other than the first of the pattern are copied. -/
theorem replace_append_of_not_mem {plain : List α} (h : esc ∉ plain) (rest : List α) :
    replace (esc :: code) target (plain ++ rest) =
      plain ++ replace (esc :: code) target rest := by
  induction plain with
  | nil => rfl
  | cons a plain ih =>
      have hother : ¬ esc :: code <+: a :: (plain ++ rest) := by
        intro hprefix
        rw [(List.cons_prefix_cons.mp hprefix).1] at h
        exact h List.mem_cons_self
      have hplain : esc ∉ plain := fun hmem => h (List.mem_cons_of_mem a hmem)
      rw [List.cons_append, replace_cons_of_not_prefix hother, ih hplain]
      rfl

/-- Another code word of the same length is copied. -/
theorem replace_other_word {other : List α} (hlength : other.length = code.length)
    (hne : other ≠ code) (hfree : esc ∉ other) (rest : List α) :
    replace (esc :: code) target (esc :: other ++ rest) =
      esc :: other ++ replace (esc :: code) target rest := by
  have hother : ¬ esc :: code <+: esc :: (other ++ rest) := by
    intro hprefix
    have htail : code <+: other ++ rest := (List.cons_prefix_cons.mp hprefix).2
    have hword : code <+: other :=
      List.prefix_of_prefix_length_le htail (List.prefix_append other rest) hlength.ge
    exact hne (hword.eq_of_length hlength.symm).symm
  rw [List.cons_append, replace_cons_of_not_prefix hother, replace_append_of_not_mem hfree]
  rfl

/-! ## Successive replacements -/

variable (esc)

def encodeSymbol (table : Table α) (a : α) : List α :=
  match table.lookup a with
  | some code => esc :: code
  | none => [a]

def encode (table : Table α) (text : List α) : List α := text.flatMap (encodeSymbol esc table)

def decode (table : Table α) (text : List α) : List α :=
  table.foldl (fun text entry => replace (esc :: entry.2) [entry.1] text) text

variable {esc}

theorem encodeSymbol_cons_ne (table : Table α) {symbol a : α} (code : List α) (h : a ≠ symbol) :
    encodeSymbol esc ((symbol, code) :: table) a = encodeSymbol esc table a := by
  rw [encodeSymbol, encodeSymbol, List.lookup_cons, beq_eq_false_iff_ne.mpr h]

theorem lookup_eq_none {table : Table α} {a : α} :
    table.lookup a = none ↔ a ∉ table.map Prod.fst := by
  simp only [List.lookup_eq_none_iff, bne_iff_ne, List.mem_map, not_exists, not_and]
  exact forall₂_congr fun _ _ => ne_comm

/-- One replacement undoes the first entry of the table and copies the rest. -/
theorem replace_encodeSymbol {symbol : α} {code : List α}
    (h : Table.Decodable esc width ((symbol, code) :: table)) (a : α) (rest : List α) :
    replace (esc :: code) [symbol] (encodeSymbol esc ((symbol, code) :: table) a ++ rest) =
      encodeSymbol esc table a ++ replace (esc :: code) [symbol] rest := by
  by_cases hsymbol : a = symbol
  · have hlast : table.lookup a = none := by
      rw [lookup_eq_none, hsymbol]
      exact (List.nodup_cons.mp h.symbols).1
    rw [encodeSymbol, encodeSymbol, hlast, hsymbol, List.lookup_cons_self]
    exact replace_occurrence rest
  · rw [encodeSymbol_cons_ne table code hsymbol]
    cases hlookup : table.lookup a with
    | none =>
        have hplain : esc ∉ [a] := by
          intro hesc
          have htable := h.esc_mem
          rw [List.mem_singleton.mp hesc, List.map_cons] at htable
          cases List.mem_cons.mp htable with
          | inl heq => exact hsymbol heq
          | inr htail => exact lookup_eq_none.mp hlookup htail
        rw [encodeSymbol, hlookup]
        exact replace_append_of_not_mem hplain rest
    | some other =>
        have hentry : (a, other) ∈ table := by
          obtain ⟨before, later, heq, _⟩ := List.lookup_eq_some_iff.mp hlookup
          rw [heq]
          exact List.mem_append_right before List.mem_cons_self
        obtain ⟨hwidth, hfree⟩ := h.shape _ (List.mem_cons_of_mem _ hentry)
        have hcode : code.length = width := (h.shape _ List.mem_cons_self).1
        have hne : other ≠ code := by
          intro heq
          have hmem : other ∈ table.map Prod.snd := List.mem_map_of_mem hentry
          rw [heq] at hmem
          exact (List.nodup_cons.mp h.codes).1 hmem
        rw [encodeSymbol, hlookup]
        exact replace_other_word (hwidth.trans hcode.symm) hne hfree rest

theorem replace_encode {symbol : α} {code : List α}
    (h : Table.Decodable esc width ((symbol, code) :: table)) (text : List α) :
    replace (esc :: code) [symbol] (encode esc ((symbol, code) :: table) text) =
      encode esc table text := by
  induction text with
  | nil => rfl
  | cons a text ih =>
      rw [encode, List.flatMap_cons, replace_encodeSymbol h, ← encode, ih]
      rfl

/-- The successive replacements restore every encoded text. -/
theorem decode_encode (h : Table.Decodable esc width table) (text : List α) :
    decode esc table (encode esc table text) = text := by
  induction table with
  | nil => exact List.flatMap_singleton' text
  | cons entry table ih =>
      rw [decode, List.foldl_cons, replace_encode h]
      exact ih h.tail

end Replacement
