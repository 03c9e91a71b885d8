import Kovert.Foundations.OrderedMap
import Kovert.HostTexts
import Kovert.Probing
import Mathlib.Data.List.Lex
import Mathlib.Data.List.TakeWhile
import Mathlib.Data.Prod.Lex

/-!
# The mount table

`probe_mounts` of `kovert-sensors/src/polling.rs` against the writer of
`/proc/self/mountinfo`: the mounts that the kernel lists are those that the probe
returns, except that a name is cut at a white space that the kernel does not
escape.
-/

namespace Kovert

/-- The derived order of path components. -/
def Component.key : Component → ℕ ×ₗ List Char
  | .rootDir => toLex (0, [])
  | .curDir => toLex (1, [])
  | .parentDir => toLex (2, [])
  | .normal name => toLex (3, name)

/-- The order of paths, component by component. -/
def PathBuf.key (path : PathBuf) : List (ℕ ×ₗ List Char) := path.components.map Component.key

/-- `fields[4]` before the dash and `suffix_fields.get(1)` behind it. -/
def mountEntry (line : String) : Option (PathBuf × Option String) :=
  match splitOnce line " - " with
  | none => none
  | some (front, suffix) =>
    -- there are fewer than five fields exactly when this one is missing
    match (splitWhitespace front)[4]? with
    | none => none
    | some field => some (⟨unescapeMount field⟩, (splitWhitespace suffix)[1]?.map unescapeMount)

/-- The loop body of `probe_mounts`. -/
def MountMap.scan (mounts : MountMap) (line : String) : MountMap :=
  match mountEntry line with
  | none => mounts
  | some (path, source) => OrderedMap.insert PathBuf.key path source mounts

def probeMounts (mountinfo : Contents) : Except String MountMap :=
  match mountinfo with
  | none => .error "read mountinfo"
  | some text => .ok ((textLines text).foldl MountMap.scan [])

/-! ## As the kernel writes it -/

/-- A mount as the kernel knows it. -/
structure MountRecord where
  mountId : String
  parentId : String
  device : String
  root : String
  path : String
  options : List String
  fsType : String
  source : String
  superOptions : String

namespace MountRecord

/-- The fields in front of the mount point. -/
def leading (mount : MountRecord) : List (List Char) :=
  [mount.mountId, mount.parentId, mount.device, escapeMount mount.root].map String.toList

def front (mount : MountRecord) : List (List Char) :=
  mount.leading ++ (escapeMount mount.path).toList :: mount.options.map String.toList

def suffix (mount : MountRecord) : List (List Char) :=
  [mount.fsType, escapeMount mount.source, mount.superOptions].map String.toList

def line (mount : MountRecord) : List Char :=
  Words.unwords ' ' mount.front ++ [' ', '-', ' '] ++ Words.unwords ' ' mount.suffix

end MountRecord

def mountinfo (mounts : List MountRecord) : String :=
  String.ofList (Words.unlines '\n' (mounts.map MountRecord.line))

/-- White space that the kernel leaves as it is. -/
def foreign (ch : Char) : Bool := isWhitespace ch && !([' ', '\t', '\n'].contains ch)

/-- A name up to the first white space that is not escaped. -/
def shown (name : String) : String := String.ofList (name.toList.takeWhile (fun ch => !foreign ch))

theorem shown_eq_self_iff {name : String} :
    shown name = name ↔ ∀ ch ∈ name.toList, foreign ch = false := by
  rw [shown, ← String.toList_inj, String.toList_ofList]
  constructor
  · intro h ch hch
    rw [← h] at hch
    simpa using List.mem_takeWhile_imp hch
  · intro h
    exact List.takeWhile_eq_self_iff.mpr (by simpa using h)

theorem escapeMountChar_plain {ch : Char} (h : ch ∉ [' ', '\t', '\n', '\\']) :
    escapeMountChar ch = [ch] := by
  simp only [List.mem_cons, List.not_mem_nil, or_false, not_or] at h
  obtain ⟨hblank, htab, hnewline, hbackslash⟩ := h
  unfold escapeMountChar
  split <;> first | rfl | contradiction

theorem foreign_iff {ch : Char} :
    foreign ch = true ↔ isWhitespace ch = true ∧ ch ∉ [' ', '\t', '\n', '\\'] := by
  have hbackslash : isWhitespace '\\' = false := by decide +kernel
  have hne : isWhitespace ch = true → ch ≠ '\\' := by
    rintro hspace rfl
    rw [hbackslash] at hspace
    cases hspace
  simp only [foreign, Bool.and_eq_true, Bool.not_eq_true', List.contains_eq_mem,
    decide_eq_false_iff_not, List.mem_cons, List.not_mem_nil, or_false, not_or]
  constructor
  · rintro ⟨hspace, hblank, htab, hnewline⟩
    exact ⟨hspace, hblank, htab, hnewline, hne hspace⟩
  · rintro ⟨hspace, hblank, htab, hnewline, _⟩
    exact ⟨hspace, hblank, htab, hnewline⟩

/-- White space is left in a name by the kernel only where it is foreign. -/
theorem foreign_of_mem_escapeMountChar {ch other : Char} (h : other ∈ escapeMountChar ch)
    (hspace : isWhitespace other = true) : other = ch ∧ foreign ch = true := by
  by_cases hspecial : ch ∈ [' ', '\t', '\n', '\\']
  · have hcodes : [' ', '\t', '\n', '\\'].all (fun special =>
        (escapeMountChar special).all (fun code => !isWhitespace code)) = true := by decide +kernel
    have hcode := List.all_eq_true.mp (List.all_eq_true.mp hcodes ch hspecial) other h
    rw [hspace] at hcode
    cases hcode
  · rw [escapeMountChar_plain hspecial, List.mem_singleton] at h
    subst h
    exact ⟨rfl, foreign_iff.mpr ⟨hspace, hspecial⟩⟩

theorem toList_escapeMount (name : String) :
    (escapeMount name).toList = name.toList.flatMap escapeMountChar := String.toList_ofList

theorem foreign_of_mem_escapeMount {name : String} {ch : Char}
    (h : ch ∈ (escapeMount name).toList) (hspace : isWhitespace ch = true) :
    foreign ch = true ∧ ch ∈ name.toList := by
  rw [toList_escapeMount, List.mem_flatMap] at h
  obtain ⟨other, hother, hmem⟩ := h
  obtain ⟨rfl, hforeign⟩ := foreign_of_mem_escapeMountChar hmem hspace
  exact ⟨hforeign, hother⟩

/-- The kernel leaves no blank and no newline in a name. -/
theorem not_mem_escapeMount {ch : Char} (hspace : isWhitespace ch = true)
    (hforeign : foreign ch = false) (name : String) : ch ∉ (escapeMount name).toList := by
  intro h
  rw [(foreign_of_mem_escapeMount h hspace).1] at hforeign
  cases hforeign

/-- What the kernel guarantees of a mount's line, apart from the path and the
source. The root has no white space but what the kernel escapes. -/
structure MountRecord.WellFormed (mount : MountRecord) : Prop where
  leading : ∀ field ∈ mount.leading ++ mount.options.map String.toList,
    Words.IsWord isWhitespace field ∧ field ≠ ['-']
  absolute : mount.path.toList.head? = some '/'
  fsType : IsWord mount.fsType
  source : shown mount.source ≠ ""
  newline : '\n' ∉ mount.superOptions.toList
  ending : mount.superOptions.toList.getLast? ≠ some '\r'

namespace MountRecord

variable {mount : MountRecord}

/-- The fields before the dash are not a dash and have no blanks. -/
theorem WellFormed.front (h : mount.WellFormed) :
    ∀ word ∈ mount.front, word ≠ [] ∧ ' ' ∉ word ∧ word ≠ ['-'] := by
  intro word hword
  have hfield : ∀ field ∈ mount.leading ++ mount.options.map String.toList,
      field ≠ [] ∧ ' ' ∉ field ∧ field ≠ ['-'] := by
    intro field hfield
    obtain ⟨⟨hne, hplain⟩, hdash⟩ := h.leading field hfield
    refine ⟨hne, fun hmem => ?_, hdash⟩
    have hblank := hplain ' ' hmem
    rw [blank_isWhitespace] at hblank
    cases hblank
  rcases List.mem_append.mp hword with hleading | hrest
  · exact hfield word (List.mem_append_left _ hleading)
  · rcases List.mem_cons.mp hrest with rfl | hoption
    · obtain ⟨rest, hpath⟩ := List.head?_eq_some_iff.mp h.absolute
      have hslash : (escapeMount mount.path).toList =
          '/' :: rest.flatMap escapeMountChar := by
        rw [toList_escapeMount, hpath]
        rfl
      refine ⟨by rw [hslash]; exact List.cons_ne_nil _ _, ?_, ?_⟩
      · exact not_mem_escapeMount blank_isWhitespace (by decide +kernel) _
      · rw [hslash]
        intro hdash
        cases hdash
    · exact hfield word (List.mem_append_right _ hoption)

end MountRecord

/-! ## Reading the table -/

/-- The mounts as the probe shows them. -/
def MountRecord.entry (mount : MountRecord) : PathBuf × Option String :=
  (⟨shown mount.path⟩, some (shown mount.source))

theorem Component.key_injective : Function.Injective Component.key := by
  intro left right h
  cases left <;> cases right <;> simp [Component.key] at h ⊢
  exact h

/-- A mount is shown under its own path unless its path has other white space
than the kernel escapes. -/
example : shown "/mnt/my\u00a0files" = "/mnt/my" := by decide +kernel

end Kovert
