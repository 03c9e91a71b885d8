import Kovert.Hotkeys
import Kovert.Runs

/-!
# Key names

`valid_key_name` of the validator accepts a key by its character class or from a
list of names, `key_code` of the hotkey sensor by its own table. Both read the
same normalized text, and they accept the same names; so a validated hotkey is
always translated.
-/

namespace Kovert

/-- The names that `key_code` matches on. -/
def tableNames : List String := keyCodes.map Prod.fst

/-! ## The two tables -/

theorem namedKeys_subset : namedKeys ⊆ tableNames := by decide +kernel

theorem tableNames_split {name : String} (h : name ∈ tableNames) :
    name.toList.length = 1 ∨ name ∈ namedKeys := by
  have hall : ∀ name ∈ tableNames, name.toList.length = 1 ∨ name ∈ namedKeys := by decide +kernel
  exact hall name h

theorem tableNames_alphanumeric {name : String} (h : name ∈ tableNames) {ch : Char}
    (hch : ch ∈ name.toList) : ch.isAlphanum = true := by
  have hall : ∀ name ∈ tableNames, name.toList.all Char.isAlphanum = true := by decide +kernel
  exact List.all_eq_true.mp (hall name h) ch hch

theorem toNat_lt_of_alphanumeric {ch : Char} (hlower : ch.isLower = false)
    (h : ch.isAlphanum = true) : ch.toNat < 91 := by
  have hclass : (ch.isUpper || ch.isLower || ch.isDigit) = true := h
  rw [hlower, Bool.or_false, Bool.or_eq_true] at hclass
  cases hclass with
  | inl hupper =>
      have hle : ch.val ≤ 'Z'.val := (of_decide_eq_true hupper).2
      have hcode : ch.toNat ≤ 90 := UInt32.le_iff_toNat_le.mp hle
      omega
  | inr hdigit =>
      have hcode : ch.toNat ≤ 57 := (Char.isDigit_iff_toNat.mp hdigit).2
      omega

/-- One upper-case character is in the table exactly if it is a letter or a digit. -/
theorem singleton_mem_tableNames {ch : Char} (hlower : ch.isLower = false) :
    String.ofList [ch] ∈ tableNames ↔ ch.isAlphanum = true := by
  constructor
  · intro hmem
    exact tableNames_alphanumeric hmem (by simp)
  · intro halnum
    have hall : ∀ code < 91, (Char.ofNat code).isAlphanum = true →
        String.ofList [Char.ofNat code] ∈ tableNames := by decide +kernel
    have hcode := hall ch.toNat (toNat_lt_of_alphanumeric hlower halnum)
    rw [Char.ofNat_toNat] at hcode
    exact hcode halnum

/-! ## Normalized names -/

theorem toUpper_isLower (ch : Char) : ch.toUpper.isLower = false := by
  unfold Char.toUpper Char.isLower
  split
  · next hlower =>
    grind [UInt32.toNat_add, Char.toNat_val]
  · next hother =>
    simpa using hother

/-- Stripping `KEY_` leaves an end of the upper-cased text. -/
theorem normalizedKey_suffix (value : String) :
    normalizedKey value <:+ (trim value.toList).map Char.toUpper := by
  unfold normalizedKey
  split
  · next key h =>
    rw [h]
    exact List.suffix_append ['K', 'E', 'Y', '_'] key
  · exact List.suffix_refl _

theorem normalizedKey_isLower {value : String} {ch : Char} (h : ch ∈ normalizedKey value) :
    ch.isLower = false := by
  obtain ⟨original, _, rfl⟩ := List.mem_map.mp ((normalizedKey_suffix value).subset h)
  exact toUpper_isLower original

theorem keyCode_isSome {name : String} :
    (keyCode name).isSome = true ↔ String.ofList (normalizedKey name) ∈ tableNames := by
  simp [keyCode, tableNames, List.lookup_isSome_iff]

theorem validKeyName_iff {name : String} :
    validKeyName name = true ↔ String.ofList (normalizedKey name) ∈ tableNames := by
  unfold validKeyName
  split
  · next ch hkey =>
    have hlower : ch.isLower = false := normalizedKey_isLower (hkey ▸ List.mem_singleton_self ch)
    rw [hkey]
    exact (singleton_mem_tableNames hlower).symm
  · next key hlong =>
    rw [List.contains_iff_mem]
    constructor
    · intro hnamed
      exact namedKeys_subset hnamed
    · intro hmem
      refine (tableNames_split hmem).resolve_left ?_
      rw [String.toList_ofList, List.length_eq_one_iff]
      rintro ⟨ch, hch⟩
      exact hlong ch hch

/-! ## The translation of a hotkey -/

theorem mapM_require_eq_ok {α β : Type} {f : α → Option β} {message : α → String}
    {items : List α} {values : List β} :
    items.mapM (fun item => require (f item) (message item)) = .ok values ↔
      items.map f = values.map some := by
  induction items generalizing values with
  | nil => cases values <;> simp [pure, Except.pure]
  | cons item items ih =>
      rw [List.mapM_cons, List.map_cons]
      cases f item with
      | none => cases values <;> simp [require, bind, Except.bind]
      | some first =>
          cases hrest : items.mapM (fun item => require (f item) (message item)) with
          | error text =>
              have hfails : ∀ rest : List β, items.map f ≠ rest.map some := by
                intro rest hmap
                cases hrest.symm.trans (ih.mpr hmap)
              cases values <;> simp [require, bind, Except.bind, hfails]
          | ok rest =>
              have hinjective : Function.Injective (List.map (some : β → Option β)) :=
                List.map_injective_iff.mpr (Option.some_injective β)
              rw [ih.mp hrest, ← List.map_cons, hinjective.eq_iff]
              change Except.ok (first :: rest) = Except.ok values ↔ _
              rw [Except.ok.injEq]

namespace HotkeyTask

/-- The codes of a translated hotkey are those of its keys, in order. -/
theorem ofConfig_eq_ok {hotkey : HotkeyConfig} {task : HotkeyTask} :
    ofConfig hotkey = .ok task ↔
      task.name = hotkey.name ∧ task.within = hotkey.within ∧
        hotkey.sequence.map keyCode = task.sequence.map some := by
  have hcodes : hotkey.sequence.mapM (fun key =>
      require (keyCode key) ("unsupported key name: " ++ key)) = .ok task.sequence ↔ _ :=
    mapM_require_eq_ok
  rw [← hcodes]
  cases task with
  | mk name sequence within =>
      unfold ofConfig
      cases hotkey.sequence.mapM (fun key =>
          require (keyCode key) ("unsupported key name: " ++ key)) with
      | error message => simp [bind, Except.bind]
      | ok codes => simp [bind, Except.bind, pure, Except.pure, eq_comm, and_comm, and_left_comm]

theorem ofConfig_total_iff {hotkey : HotkeyConfig} :
    (∃ task, ofConfig hotkey = .ok task) ↔
      ∀ key ∈ hotkey.sequence, (keyCode key).isSome = true := by
  constructor
  · rintro ⟨task, htask⟩ key hkey
    have hcode : keyCode key ∈ task.sequence.map some := by
      rw [← (ofConfig_eq_ok.mp htask).2.2]
      exact List.mem_map_of_mem hkey
    obtain ⟨code, _, hcode⟩ := List.mem_map.mp hcode
    rw [← hcode]
    rfl
  · intro h
    refine ⟨⟨hotkey.name, hotkey.sequence.map (fun key => (keyCode key).getD 0), hotkey.within⟩,
      ofConfig_eq_ok.mpr ⟨rfl, rfl, ?_⟩⟩
    rw [List.map_map]
    apply List.map_congr_left
    intro key hkey
    obtain ⟨code, hcode⟩ := Option.isSome_iff_exists.mp (h key hkey)
    rw [Function.comp_apply, hcode]
    rfl

end HotkeyTask

theorem hotkeyErrors_nil_mem {seen : List String} {hotkeys : List HotkeyConfig}
    (h : hotkeyErrors seen hotkeys = []) {hotkey : HotkeyConfig} (hmem : hotkey ∈ hotkeys) :
    hotkey.sequence.find? (fun key => !validKeyName key) = none := by
  induction hotkeys generalizing seen with
  | nil => cases hmem
  | cons head hotkeys ih =>
      rw [hotkeyErrors] at h
      obtain ⟨hhead, htail⟩ := List.append_eq_nil_iff.mp h
      rcases List.mem_cons.mp hmem with rfl | hmem
      · obtain ⟨_, hkeys⟩ := List.append_eq_nil_iff.mp hhead
        simpa using hkeys
      · exact ih htail hmem

/-- The validator accepts exactly the key names that the sensor translates, so
every hotkey of an accepted configuration is translated completely. -/
theorem validated_hotkeys_resolve (parseTime : String → Option ℕ) :
    (∀ name, validKeyName name = true ↔ (keyCode name).isSome = true) ∧
    (∀ hotkey : HotkeyConfig, hotkey.sequence.find? (fun key => !validKeyName key) = none ↔
      ∃ task, HotkeyTask.ofConfig hotkey = .ok task) ∧
    ∀ config, validateConfig parseTime config = .ok () → ∀ hotkey ∈ config.hotkeys,
      ∃ task, HotkeyTask.ofConfig hotkey = .ok task ∧
        hotkey.sequence.map keyCode = task.sequence.map some := by
  have hsame : ∀ name, validKeyName name = true ↔ (keyCode name).isSome = true :=
    fun name => validKeyName_iff.trans keyCode_isSome.symm
  have htranslated : ∀ hotkey : HotkeyConfig,
      hotkey.sequence.find? (fun key => !validKeyName key) = none ↔
        ∃ task, HotkeyTask.ofConfig hotkey = .ok task := by
    intro hotkey
    simp only [List.find?_eq_none, Bool.not_eq_true', Bool.not_eq_false, hsame]
    exact HotkeyTask.ofConfig_total_iff.symm
  refine ⟨hsame, htranslated, ?_⟩
  intro config hok hotkey hmem
  have hnil : hotkeyErrors [] config.hotkeys = [] := (validateConfig_eq_ok.mp hok).2.2.2.2.1
  obtain ⟨task, htask⟩ := (htranslated hotkey).mp (hotkeyErrors_nil_mem hnil hmem)
  exact ⟨task, htask, (HotkeyTask.ofConfig_eq_ok.mp htask).2.2⟩

def panicHotkey : HotkeyConfig where
  name := "panic"
  device := ⟨"/dev/input/event3"⟩
  sequence := ["KEY_LEFTCTRL", "alt", " x "]
  within := 2000

theorem validated_hotkeys_resolve_panic :
    ∃ task, HotkeyTask.ofConfig panicHotkey = .ok task ∧
      task.sequence.map some = [some 29, some 56, some 45] := by
  have hok : validateConfig (fun _ => none) { testConfig [] with hotkeys := [panicHotkey] } =
      .ok () := by decide +kernel
  obtain ⟨task, htask, hcodes⟩ := (validated_hotkeys_resolve (fun _ => none)).2.2 _ hok
    panicHotkey (List.mem_singleton_self _)
  have htable : panicHotkey.sequence.map keyCode = [some 29, some 56, some 45] := by
    decide +kernel
  exact ⟨task, htask, hcodes.symm.trans htable⟩

end Kovert
