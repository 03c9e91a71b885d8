import Kovert.Config

/-!
# Configuration validation

`validate_config` from `kovert-core/src/validation.rs`. Errors are accumulated
in source order; the mutable `HashSet`s of names become the list of names seen
so far. Time parsing belongs to `chrono` and is a parameter.
-/

namespace Kovert

inductive ValidationError where
  | version (found : ℕ)
  | duplicate (kind name : String)
  | rule (rule message : String)
  | vault (vault message : String)
  | hotkey (hotkey message : String)
  | daemon (message : String)
  deriving DecidableEq, Repr

def report (bad : Bool) (error : ValidationError) : List ValidationError :=
  if bad then [error] else []

@[simp] theorem report_eq_nil {bad : Bool} {error : ValidationError} :
    report bad error = [] ↔ bad = false := by cases bad <;> simp [report]

def ruleError (rule message : String) : ValidationError := .rule rule message

/-- The regular expression `^[A-Za-z0-9_.-]+$`. -/
def validIdentifier (value : String) : Bool :=
  !value.isEmpty && value.toList.all (fun ch => ch.isAlphanum || ['_', '.', '-'].contains ch)

/-- `char::is_control`: the Unicode category Cc. -/
def isControl (ch : Char) : Bool := ch.toNat < 0x20 || (0x7f ≤ ch.toNat && ch.toNat ≤ 0x9f)

/-- `char::is_whitespace`: the Unicode property White_Space. -/
def isWhitespace (ch : Char) : Bool :=
  (0x09 ≤ ch.toNat && ch.toNat ≤ 0x0d) || (0x2000 ≤ ch.toNat && ch.toNat ≤ 0x200a) ||
    [0x20, 0x85, 0xa0, 0x1680, 0x2028, 0x2029, 0x202f, 0x205f, 0x3000].contains ch.toNat

def trim (chars : List Char) : List Char :=
  ((chars.dropWhile isWhitespace).reverse.dropWhile isWhitespace).reverse

/-- `strip_prefix("KEY_").unwrap_or(..)` after trimming and upper-casing. -/
def normalizedKey (value : String) : List Char :=
  match (trim value.toList).map Char.toUpper with
  | 'K' :: 'E' :: 'Y' :: '_' :: key => key
  | key => key

def namedKeys : List String :=
  ["ESC", "ENTER", "LEFTCTRL", "CTRL", "LEFTSHIFT", "SHIFT", "LEFTALT", "ALT", "SPACE",
    "F1", "F2", "F3", "F4", "F5", "F6", "F7", "F8", "F9", "F10", "F11", "F12",
    "RIGHTCTRL", "RIGHTALT", "HOME", "UP", "PAGEUP", "LEFT", "RIGHT", "END", "DOWN",
    "PAGEDOWN", "INSERT", "DELETE", "LEFTMETA", "META", "RIGHTMETA"]

def validKeyName (value : String) : Bool :=
  match normalizedKey value with
  | [ch] => ch.isAlphanum
  | key => namedKeys.contains (String.ofList key)

def validInterfaceName (value : String) : Bool :=
  !value.isEmpty && value.utf8ByteSize ≤ 15 &&
    value.toList.all (fun ch => ch.isAlphanum || ['_', '-', '.', ':'].contains ch)

def validUnitName (value : String) : Bool :=
  !value.isEmpty && value.utf8ByteSize ≤ 255 && !value.toList.contains '/' &&
    value.toList.all (fun ch => ch.isAlphanum || ['_', '-', '.', '@'].contains ch)

def isAsciiHexdigit (ch : Char) : Bool :=
  ch.isDigit || ('a' ≤ ch && ch ≤ 'f') || ('A' ≤ ch && ch ≤ 'F')

def containsPath (paths : List PathBuf) (path : PathBuf) : Bool := paths.any path.pathEq

/-! ## Daemon, modes, vaults and hotkeys -/

def daemonErrors (config : Config) : List ValidationError :=
  report (config.version != 1) (.version config.version)
    ++ report (!config.daemon.socketPath.isAbsolute) (.daemon "socket_path must be absolute")
    ++ report (!config.daemon.statePath.isAbsolute) (.daemon "state_path must be absolute")
    ++ report (config.daemon.pollInterval == 0) (.daemon "poll_interval must be greater than zero")
    ++ report (config.daemon.eventBuffer < 16) (.daemon "event_buffer must be at least 16")
    ++ config.daemon.allowedExecutables.flatMap (fun path =>
      report (!path.isAbsolute) (.daemon ("allowed executable must be absolute: " ++ path.text)))

def modeErrors : List String → List ModeConfig → List ValidationError
  | _, [] => []
  | seen, mode :: modes =>
    report (!validIdentifier mode.name) (.duplicate "invalid mode" mode.name)
      ++ report (seen.contains mode.name) (.duplicate "mode" mode.name)
      ++ modeErrors (mode.name :: seen) modes

def initialModeErrors (modes : List ModeConfig) : List ValidationError :=
  report (1 < modes.countP (·.initial)) (.daemon "only one mode may be marked initial")

/-- `is_none_or(|path| !path.is_absolute())`. -/
def missingOrRelative (path : Option PathBuf) : Bool := path.all (fun path => !path.isAbsolute)

def invalidKeyringDescription (description : String) : Bool :=
  description.isEmpty || 128 < description.utf8ByteSize || description.toList.any isControl

def vaultErrors : List String → List VaultConfig → List ValidationError
  | _, [] => []
  | seen, vault :: vaults =>
    report (!validIdentifier vault.name) (.vault vault.name "name must match [A-Za-z0-9_.-]+")
      ++ report (seen.contains vault.name) (.duplicate "vault" vault.name)
      ++ report (!vault.path.isAbsolute) (.vault vault.name "path must be absolute")
      ++ report (vault.adapter == .gocryptfs &&
          (missingOrRelative vault.encryptedPath || missingOrRelative vault.mountPath))
        (.vault vault.name "gocryptfs requires absolute encrypted_path and mount_path")
      ++ report (vault.keyringDescription.any invalidKeyringDescription)
        (.vault vault.name "keyring_description must be 1..=128 printable characters")
      ++ vaultErrors (vault.name :: seen) vaults

def hotkeyErrors : List String → List HotkeyConfig → List ValidationError
  | _, [] => []
  | seen, hotkey :: hotkeys =>
    report (!validIdentifier hotkey.name) (.hotkey hotkey.name "name must match [A-Za-z0-9_.-]+")
      ++ report (seen.contains hotkey.name) (.duplicate "hotkey" hotkey.name)
      ++ report (!hotkey.device.isAbsolute) (.hotkey hotkey.name "device path must be absolute")
      ++ report (hotkey.sequence.isEmpty || 32 < hotkey.sequence.length)
        (.hotkey hotkey.name "sequence must contain between 1 and 32 keys")
      ++ report (hotkey.within == 0) (.hotkey hotkey.name "within must be non-zero")
      ++ ((hotkey.sequence.find? (fun key => !validKeyName key)).map (fun key =>
          ValidationError.hotkey hotkey.name ("unsupported key name: " ++ key))).toList
      ++ hotkeyErrors (hotkey.name :: seen) hotkeys

/-! ## Rules -/

mutual

def validateTrigger (rule : String) (hotkeys : List String) :
    TriggerSpec → ℕ → List ValidationError
  | trigger, depth =>
    if 16 < depth then [ruleError rule "trigger nesting exceeds 16 levels"] else
    match trigger with
    | .file path _ _ => report (!path.isAbsolute) (ruleError rule "file trigger path must be absolute")
    | .power _ (some value) _ =>
      report (100 < value) (ruleError rule "battery threshold must be 0..=100")
    | .process none _ => [ruleError rule "process trigger requires name"]
    | .service none _ => [ruleError rule "service trigger requires name"]
    | .port none _ _ => [ruleError rule "port trigger requires port"]
    | .hotkey name =>
      report (!hotkeys.contains name) (ruleError rule ("unknown hotkey " ++ name))
    | .all triggers | .any triggers =>
      report triggers.isEmpty (ruleError rule "composite trigger cannot be empty")
        ++ validateTriggers rule hotkeys triggers (depth + 1)
    | .not trigger => validateTrigger rule hotkeys trigger (depth + 1)
    | .sequence steps within =>
      report (steps.length < 2) (ruleError rule "sequence requires at least two steps")
        ++ report (within == 0) (ruleError rule "sequence window must be non-zero")
        ++ validateSteps rule hotkeys steps (depth + 1)
    | _ => []

def validateTriggers (rule : String) (hotkeys : List String) :
    List TriggerSpec → ℕ → List ValidationError
  | [], _ => []
  | item :: items, depth =>
    validateTrigger rule hotkeys item depth ++ validateTriggers rule hotkeys items depth

def validateSteps (rule : String) (hotkeys : List String) :
    List TriggerSpec → ℕ → List ValidationError
  | [], _ => []
  | item :: items, depth =>
    (match item with
      | .sequence .. => [ruleError rule "nested sequences are not supported"]
      | _ => [])
      ++ validateTrigger rule hotkeys item depth ++ validateSteps rule hotkeys items depth

end

def knownSensors : List String :=
  ["wifi", "network", "usb", "mounts", "processes", "services", "ports", "sessions", "power",
    "hotkeys", "filesystem", "integrity", "configuration", "binary", "polling", "time", "manual"]

mutual

def validateCondition (parseTime : String → Option ℕ) (rule : String) :
    ConditionSpec → ℕ → List ValidationError
  | condition, depth =>
    if 16 < depth then [ruleError rule "condition nesting exceeds 16 levels"] else
    match condition with
    | .all conditions | .any conditions =>
      report conditions.isEmpty (ruleError rule "composite condition cannot be empty")
        ++ validateConditions parseTime rule conditions (depth + 1)
    | .not condition => validateCondition parseTime rule condition (depth + 1)
    | .timeWindow start finish _ _ =>
      report ((parseTime start).isNone || (parseTime finish).isNone)
        (ruleError rule "time windows require HH:MM values")
    | .pathExists path _ | .mounted path _ =>
      report (!path.isAbsolute) (ruleError rule "condition paths must be absolute")
    | .power _ (some value) _ =>
      report (100 < value) (ruleError rule "battery threshold must be 0..=100")
    | .sensorHealthy sensor _ =>
      report (!knownSensors.contains sensor) (ruleError rule ("unknown sensor " ++ sensor))
    | _ => []

def validateConditions (parseTime : String → Option ℕ) (rule : String) :
    List ConditionSpec → ℕ → List ValidationError
  | [], _ => []
  | item :: items, depth =>
    validateCondition parseTime rule item depth ++ validateConditions parseTime rule items depth

end

def invalidSha256 (digest : String) : Bool :=
  digest.utf8ByteSize != 64 || !digest.toList.all isAsciiHexdigit

def invalidEnvironmentKey (key : String) : Bool :=
  !key.toList.all (fun ch => ch.isUpper || ch.isDigit || ch == '_')

def validateAction (config : Config) (rule : String) : ActionSpec → List ValidationError
  | .lockVault vault | .unlockVault vault =>
    report (!(config.vaults.map (·.name)).contains vault)
      (ruleError rule ("unknown vault " ++ vault))
  | .unmount path => report (!path.isAbsolute) (ruleError rule "unmount path must be absolute")
  | .interfaceState interface _ =>
    report (!validInterfaceName interface) (ruleError rule "invalid network interface name")
  | .service name _ =>
    report (!validUnitName name) (ruleError rule "invalid systemd service name")
  | .terminateProcess process _ =>
    report (!config.daemon.managedProcesses.contains process)
      (ruleError rule ("process " ++ process ++ " is not in daemon.managed_processes"))
  | .captureEvidence paths destination =>
    report (!destination.isAbsolute || paths.any (fun path => !path.isAbsolute))
      (ruleError rule "evidence paths must be absolute")
  | .setMode mode =>
    report (!(config.modes.map (·.name)).contains mode) (ruleError rule ("unknown mode " ++ mode))
  | .exec executable _ expectedSha256 environment =>
    report (!executable.isAbsolute || !containsPath config.daemon.allowedExecutables executable)
      (ruleError rule ("executable " ++ executable.text ++ " is not in daemon.allowed_executables"))
      ++ report (expectedSha256.any invalidSha256)
        (ruleError rule "expected_sha256 must be 64 hex characters")
      ++ report expectedSha256.isNone
        (ruleError rule "exec actions require expected_sha256 pinning")
      ++ report (environment.any (fun entry => invalidEnvironmentKey entry.1))
        (ruleError rule "environment keys must use uppercase ASCII, digits, and underscores")
  | .networkIsolation _ | .notify .. => []

def validateRule (parseTime : String → Option ℕ) (config : Config) (seen : List String)
    (rule : Rule) : List ValidationError :=
  report (!validIdentifier rule.id) (ruleError rule.id "id must match [A-Za-z0-9_.-]+")
    ++ report (seen.contains rule.id) (.duplicate "rule" rule.id)
    ++ report rule.actions.isEmpty (ruleError rule.id "at least one action is required")
    ++ validateTrigger rule.id (config.hotkeys.map (·.name)) rule.trigger 0
    ++ (match rule.when with
      | some condition => validateCondition parseTime rule.id condition 0
      | none => [])
    ++ rule.actions.flatMap (validateAction config rule.id)

def ruleErrors (parseTime : String → Option ℕ) (config : Config) :
    List String → List Rule → List ValidationError
  | _, [] => []
  | seen, rule :: rules =>
    validateRule parseTime config seen rule
      ++ ruleErrors parseTime config (rule.id :: seen) rules

/-- Validate structural, privilege-boundary, and cross-reference invariants. -/
def validateConfig (parseTime : String → Option ℕ) (config : Config) :
    Except (List ValidationError) Unit :=
  match daemonErrors config ++ modeErrors [] config.modes ++ initialModeErrors config.modes
      ++ vaultErrors [] config.vaults ++ hotkeyErrors [] config.hotkeys
      ++ ruleErrors parseTime config [] config.rules with
  | [] => .ok ()
  | errors => .error errors

/-! ## What an accepted rule list satisfies -/

/-- The rule list of some configuration that validation accepts. -/
def Accepted (parseTime : String → Option ℕ) (rules : List Rule) : Prop :=
  ∃ config, config.rules = rules ∧ validateConfig parseTime config = .ok ()

def DistinctIds (rules : List Rule) : Prop := (rules.map (·.id)).Nodup

theorem validateConfig_eq_ok {parseTime : String → Option ℕ} {config : Config} :
    validateConfig parseTime config = .ok () ↔
      daemonErrors config = [] ∧ modeErrors [] config.modes = [] ∧
        initialModeErrors config.modes = [] ∧ vaultErrors [] config.vaults = [] ∧
        hotkeyErrors [] config.hotkeys = [] ∧
        ruleErrors parseTime config [] config.rules = [] := by
  unfold validateConfig
  split
  · next h => simpa [and_assoc] using h
  · next errors h =>
    simp only [reduceCtorEq, false_iff]
    intro hall
    apply h
    simp [hall]

theorem ruleErrors_nil_mem {parseTime : String → Option ℕ} {config : Config} {seen : List String}
    {rules : List Rule} (h : ruleErrors parseTime config seen rules = []) {rule : Rule}
    (hr : rule ∈ rules) : ∃ seen', validateRule parseTime config seen' rule = [] := by
  induction rules generalizing seen with
  | nil => cases hr
  | cons head rules ih =>
      obtain ⟨hhead, htail⟩ := List.append_eq_nil_iff.mp h
      rcases List.mem_cons.mp hr with rfl | hr
      · exact ⟨seen, hhead⟩
      · exact ih htail hr

/-- The trigger and the actions of an accepted rule have passed their own checks. -/
theorem validateConfig_rule {parseTime : String → Option ℕ} {config : Config}
    (hok : validateConfig parseTime config = .ok ()) {rule : Rule} (hrule : rule ∈ config.rules) :
    validateTrigger rule.id (config.hotkeys.map (·.name)) rule.trigger 0 = [] ∧
      ∀ action ∈ rule.actions, validateAction config rule.id action = [] := by
  obtain ⟨seen, hnil⟩ := ruleErrors_nil_mem (validateConfig_eq_ok.mp hok).2.2.2.2.2 hrule
  simp only [validateRule, List.append_eq_nil_iff] at hnil
  exact ⟨hnil.1.1.2, List.flatMap_eq_nil_iff.mp hnil.2⟩

/-- A new name in front of names that avoid it. -/
theorem distinct_cons {α : Type} {key : α → String} {seen : List String} {head : α}
    {items : List α} (hhead : key head ∉ seen)
    (h : (items.map key).Nodup ∧ ∀ item ∈ items, key item ∉ key head :: seen) :
    ((head :: items).map key).Nodup ∧ ∀ item ∈ head :: items, key item ∉ seen := by
  obtain ⟨hnodup, hfresh⟩ := h
  constructor
  · refine List.nodup_cons.mpr ⟨?_, hnodup⟩
    intro hmem
    obtain ⟨item, hitem, hkey⟩ := List.mem_map.mp hmem
    exact hfresh item hitem (by simp [hkey])
  · intro item hitem
    rcases List.mem_cons.mp hitem with rfl | hitem
    · exact hhead
    · exact fun hseen => hfresh item hitem (List.mem_cons_of_mem _ hseen)

theorem ruleErrors_nil_distinct {parseTime : String → Option ℕ} {config : Config}
    {seen : List String} {rules : List Rule} (h : ruleErrors parseTime config seen rules = []) :
    DistinctIds rules ∧ ∀ rule ∈ rules, rule.id ∉ seen := by
  induction rules generalizing seen with
  | nil => simp [DistinctIds]
  | cons head rules ih =>
      obtain ⟨hhead, htail⟩ := List.append_eq_nil_iff.mp h
      have hseen : head.id ∉ seen := by
        simp only [validateRule, List.append_eq_nil_iff, report_eq_nil] at hhead
        simpa using hhead.1.1.1.1.2
      exact distinct_cons hseen (ih htail)

theorem Accepted.distinctIds {parseTime : String → Option ℕ} {rules : List Rule}
    (h : Accepted parseTime rules) : DistinctIds rules := by
  obtain ⟨config, rfl, hok⟩ := h
  exact (ruleErrors_nil_distinct (validateConfig_eq_ok.mp hok).2.2.2.2.2).1

/-- An accepted root sequence has at least two steps and a non-zero window. -/
theorem Accepted.sequence {parseTime : String → Option ℕ} {rules : List Rule}
    (h : Accepted parseTime rules) {rule : Rule} (hr : rule ∈ rules) {steps : List TriggerSpec}
    {within : Duration} (ht : rule.trigger = .sequence steps within) :
    2 ≤ steps.length ∧ 0 < within := by
  obtain ⟨config, rfl, hok⟩ := h
  have htrigger := (validateConfig_rule hok hr).1
  rw [ht, validateTrigger] at htrigger
  simp only [Nat.not_lt_zero, if_false, List.append_eq_nil_iff, report_eq_nil] at htrigger
  have hlen : ¬ steps.length < 2 := by simpa using htrigger.1.1
  have hwithin : within ≠ 0 := by simpa using htrigger.1.2
  exact ⟨by omega, Nat.pos_of_ne_zero hwithin⟩

end Kovert
