import Kovert.Foundations.EscapedFields
import Kovert.Foundations.Replacement
import Kovert.Foundations.Words
import Kovert.Validation
import Mathlib.Data.List.ModifyLast
import Mathlib.Data.String.Basic

/-!
# Texts read from the host

The decoders of `kovert-sensors/src/polling.rs` for the terse lines of `nmcli`,
whose SSIDs are chosen by whoever runs the access point, and for the mount paths
of `/proc/self/mountinfo`. Both restore what the writer escaped.
-/

namespace Kovert

/-! ## Lines and fields -/

/-- `str::lines`. -/
def textLines (text : String) : List String :=
  (Words.lines '\n' '\r' text.toList).map String.ofList

/-- `str::split_whitespace`. -/
def splitWhitespace (text : String) : List String :=
  (Words.words isWhitespace text.toList).map String.ofList

/-- `str::split_once`. -/
def splitOnce (text pattern : String) : Option (String × String) :=
  (Words.splitOnce pattern.toList text.toList).map
    (fun cut => (String.ofList cut.1, String.ofList cut.2))

/-- `str::rsplit_once` for a character. -/
def rsplitOnce (text : String) (sep : Char) : Option (String × String) :=
  (Words.rsplitOnce sep text.toList).map (fun cut => (String.ofList cut.1, String.ofList cut.2))

/-- A text that `split_whitespace` takes as one. -/
def IsWord (text : String) : Prop := Words.IsWord isWhitespace text.toList

instance (text : String) : Decidable (IsWord text) :=
  inferInstanceAs (Decidable (Words.IsWord _ _))

theorem blank_isWhitespace : isWhitespace ' ' = true := by decide +kernel

theorem newline_not_mem {field : List Char} (h : Words.IsWord isWhitespace field) :
    '\n' ∉ field := by
  have hnewline : isWhitespace '\n' = true := by decide +kernel
  intro hmem
  rw [h.2 '\n' hmem] at hnewline
  cases hnewline

/-- Lines that a writer has ended are read back. -/
theorem textLines_unlines {ls : List (List Char)} (h : ∀ line ∈ ls, '\n' ∉ line)
    (hending : ∀ line ∈ ls, line.getLast? ≠ some '\r') :
    textLines (String.ofList (Words.unlines '\n' ls)) = ls.map String.ofList := by
  rw [textLines, String.toList_ofList, Words.lines_unlines h hending]

/-- Fields behind blanks for alignment, and a rest that is not read. -/
def paddedLine (fields : List (ℕ × List Char)) (rest : List Char) : List Char :=
  fields.flatMap (fun field => List.replicate field.1 ' ' ++ field.2 ++ [' ']) ++ rest

section PaddedLine

variable {fields : List (ℕ × List Char)} {rest : List Char}

theorem paddedLine_cons (indent : ℕ) (field : List Char) (fields : List (ℕ × List Char))
    (rest : List Char) : paddedLine ((indent, field) :: fields) rest =
      List.replicate indent ' ' ++ (field ++ ' ' :: paddedLine fields rest) := by
  simp [paddedLine]

/-- Whatever the alignment, the fields come first. -/
theorem splitWhitespace_paddedLine (rest : List Char)
    (h : ∀ field ∈ fields, Words.IsWord isWhitespace field.2) :
    ∃ more, splitWhitespace (String.ofList (paddedLine fields rest)) =
      fields.map (fun field => String.ofList field.2) ++ more := by
  rw [splitWhitespace, String.toList_ofList]
  refine ⟨(Words.words isWhitespace rest).map String.ofList, ?_⟩
  induction fields with
  | nil => rfl
  | cons field fields ih =>
      obtain ⟨indent, field⟩ := field
      have hpad : ∀ ch ∈ List.replicate indent ' ', isWhitespace ch = true := by
        intro ch hch
        rw [List.eq_of_mem_replicate hch]
        exact blank_isWhitespace
      rw [paddedLine_cons, Words.words_pad hpad,
        Words.words_cut (h _ List.mem_cons_self) blank_isWhitespace, List.map_cons,
        ih fun other hother => h other (List.mem_cons_of_mem _ hother)]
      rfl

theorem newline_not_mem_paddedLine (h : ∀ field ∈ fields, Words.IsWord isWhitespace field.2)
    (hrest : '\n' ∉ rest) : '\n' ∉ paddedLine fields rest := by
  have hpad : ∀ indent, '\n' ∉ List.replicate indent ' ' :=
    fun indent hmem => absurd (List.eq_of_mem_replicate hmem) (by decide)
  induction fields with
  | nil => exact hrest
  | cons field fields ih =>
      obtain ⟨indent, field⟩ := field
      rw [paddedLine_cons, List.mem_append, List.mem_append, List.mem_cons, not_or, not_or, not_or]
      exact ⟨hpad indent, newline_not_mem (h _ List.mem_cons_self), by decide,
        ih fun other hother => h other (List.mem_cons_of_mem _ hother)⟩

theorem paddedLine_ending (hfields : fields ≠ []) (hrest : rest.getLast? ≠ some '\r') :
    (paddedLine fields rest).getLast? ≠ some '\r' := by
  obtain ⟨before, last, rfl⟩ := List.eq_nil_or_concat fields |>.resolve_left hfields
  have hline : paddedLine (before ++ [last]) rest =
      (paddedLine before [] ++ (List.replicate last.1 ' ' ++ last.2)) ++ ' ' :: rest := by
    simp [paddedLine]
  rw [List.concat_eq_append, hline]
  exact Words.getLast?_ne (by decide) _ hrest

end PaddedLine

/-! ## Terse lines of nmcli -/

structure NmcliState where
  fields : List String
  escaped : Bool
  deriving DecidableEq, Repr

namespace NmcliState

/-- `fields[last].push(character)`. -/
def pushLast (state : NmcliState) (character : Char) : NmcliState :=
  { state with fields := state.fields.modifyLast (·.push character) }

/-- The loop body of `parse_nmcli_fields`. -/
def step (state : NmcliState) (character : Char) : NmcliState :=
  if state.escaped then { state.pushLast character with escaped := false }
  else if character = '\\' then { state with escaped := true }
  else if character = ':' then { state with fields := state.fields ++ [""] }
  else state.pushLast character

end NmcliState

def parseNmcliFields (line : String) : List String :=
  let state := line.toList.foldl NmcliState.step ⟨[""], false⟩
  if state.escaped then (state.pushLast '\\').fields else state.fields

/-- The escaping of terse output: a backslash before every colon and backslash. -/
def escapeNmcliField (field : String) : String :=
  String.ofList (field.toList.flatMap (fun ch => if ch = ':' ∨ ch = '\\' then ['\\', ch] else [ch]))

namespace NmcliState

/-- The loop state for what has been parsed. -/
def ofParse (parse : EscapedFields.Parse Char) : NmcliState where
  fields := (parse.done ++ [parse.current]).map String.ofList
  escaped := parse.escaped

theorem pushLast_ofParse (parse : EscapedFields.Parse Char) (character : Char) :
    (ofParse parse).pushLast character =
      ofParse { parse with current := parse.current ++ [character] } := by
  have hpush : (String.ofList parse.current).push character =
      String.ofList (parse.current ++ [character]) := by
    rw [← String.toList_inj]
    simp
  rw [pushLast, ofParse, List.map_append, List.map_singleton, List.modifyLast_concat, hpush,
    ofParse, List.map_append, List.map_singleton]

/-- The loop body follows the decoder of escaped fields. -/
theorem step_ofParse (parse : EscapedFields.Parse Char) (character : Char) :
    (ofParse parse).step character =
      ofParse (EscapedFields.Parse.step ':' '\\' parse character) := by
  unfold step EscapedFields.Parse.step
  have hescaped : (ofParse parse).escaped = parse.escaped := rfl
  rw [hescaped, pushLast_ofParse]
  split_ifs with hopen hescape hcolon
  · rfl
  · rfl
  · simp [ofParse, hopen]
  · rfl

end NmcliState

theorem parseNmcliFields_eq (line : String) :
    parseNmcliFields line =
      (EscapedFields.decode ':' '\\' line.toList).map String.ofList := by
  have hstart : (⟨[""], false⟩ : NmcliState) = NmcliState.ofParse .start := rfl
  have hloop : line.toList.foldl NmcliState.step ⟨[""], false⟩ =
      NmcliState.ofParse (line.toList.foldl (EscapedFields.Parse.step ':' '\\') .start) := by
    rw [hstart]
    exact List.foldl_hom NmcliState.ofParse NmcliState.step_ofParse
  simp only [parseNmcliFields, EscapedFields.decode, hloop, NmcliState.pushLast_ofParse]
  cases line.toList.foldl (EscapedFields.Parse.step ':' '\\') .start with
  | mk done current escaped => cases escaped <;> rfl

theorem toList_escapeNmcliField (field : String) :
    (escapeNmcliField field).toList = EscapedFields.escape ':' '\\' field.toList :=
  String.toList_ofList

/-- Fields that were escaped and joined are read back, and every line has a field. -/
theorem parseNmcliFields_intercalate :
    (∀ fields : List String, fields ≠ [] →
      parseNmcliFields (":".intercalate (fields.map escapeNmcliField)) = fields) ∧
    ∀ line, parseNmcliFields line ≠ [] := by
  constructor
  · intro fields hfields
    have hencode : (":".intercalate (fields.map escapeNmcliField)).toList =
        EscapedFields.encode ':' '\\' (fields.map String.toList) := by
      have hescape : String.toList ∘ escapeNmcliField =
          EscapedFields.escape ':' '\\' ∘ String.toList := funext toList_escapeNmcliField
      rw [String.toList_intercalate, List.map_map, hescape, EscapedFields.encode, List.map_map]
      rfl
    have hround : EscapedFields.decode ':' '\\'
        (EscapedFields.encode ':' '\\' (fields.map String.toList)) = fields.map String.toList :=
      EscapedFields.decode_encode (by decide) (by simpa using hfields)
    rw [parseNmcliFields_eq, hencode, hround]
    simp
  · intro line
    rw [parseNmcliFields_eq, ne_eq, List.map_eq_nil_iff]
    exact EscapedFields.decode_ne_nil ':' '\\' line.toList

/-- An SSID of colons and backslashes between empty fields. -/
theorem parseNmcliFields_intercalate_hostile :
    parseNmcliFields "yes:\\:\\\\:" = ["yes", ":\\", ""] := by
  have hline : ":".intercalate (["yes", ":\\", ""].map escapeNmcliField) = "yes:\\:\\\\:" := by
    decide +kernel
  rw [← hline]
  exact parseNmcliFields_intercalate.1 ["yes", ":\\", ""] (by decide)

/-! ## Mount paths -/

/-- `str::replace` for a pattern that is not empty. -/
def replaceText (pattern target text : String) : String :=
  String.ofList (Replacement.replace pattern.toList target.toList text.toList)

def unescapeMount (value : String) : String :=
  replaceText "\\134" "\\" (replaceText "\\012" "\n" (replaceText "\\011" "\t"
    (replaceText "\\040" " " value)))

/-- How the kernel writes a character of a mount path. -/
def escapeMountChar : Char → List Char
  | ' ' => ['\\', '0', '4', '0']
  | '\t' => ['\\', '0', '1', '1']
  | '\n' => ['\\', '0', '1', '2']
  | '\\' => ['\\', '1', '3', '4']
  | ch => [ch]

def escapeMount (value : String) : String := String.ofList (value.toList.flatMap escapeMountChar)


/-- The code words, in the order in which `unescape_mount` replaces them. -/
def mountCodes : Replacement.Table Char :=
  [(' ', ['0', '4', '0']), ('\t', ['0', '1', '1']), ('\n', ['0', '1', '2']),
    ('\\', ['1', '3', '4'])]

theorem mountCodes_decodable : Replacement.Table.Decodable '\\' 3 mountCodes where
  symbols := by decide
  codes := by decide
  shape := by decide
  last := by
    intro entry hentry
    cases hentry
    rfl

theorem escapeMountChar_eq (ch : Char) :
    escapeMountChar ch = Replacement.encodeSymbol '\\' mountCodes ch := by
  unfold escapeMountChar
  split
  · rfl
  · rfl
  · rfl
  · rfl
  · next hspace htab hnewline hbackslash =>
    have hplain : ch ∉ mountCodes.map Prod.fst := by
      simpa [mountCodes] using And.intro hspace ⟨htab, hnewline, hbackslash⟩
    rw [Replacement.encodeSymbol, Replacement.lookup_eq_none.mpr hplain]

theorem toList_unescapeMount (value : String) :
    (unescapeMount value).toList = Replacement.decode '\\' mountCodes value.toList := by
  simp only [unescapeMount, replaceText, String.toList_ofList]
  rfl

/-- Decoding restores every mount path, also one that spells a code word. -/
theorem unescapeMount_escapeMount (value : String) : unescapeMount (escapeMount value) = value := by
  have hencode : (escapeMount value).toList =
      Replacement.encode '\\' mountCodes value.toList := by
    rw [escapeMount, String.toList_ofList, Replacement.encode, funext escapeMountChar_eq]
  rw [← String.toList_inj, toList_unescapeMount, hencode,
    Replacement.decode_encode mountCodes_decodable]

end Kovert
