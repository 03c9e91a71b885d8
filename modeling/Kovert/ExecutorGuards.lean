import Kovert.Runs
import Kovert.Runtime

/-!
# Validated actions and the executor's guards

The executor checks again what validation has checked: vault names, the paths
an adapter needs, absolute paths, interface and unit names, the allow lists. An
action is turned down by such a check alone when it fails in every world, so
the actions that pass all of them are those that succeed in some world. Of the
accepted actions only the unlocking of a vault without a key description never
does.
-/

namespace Kovert

/-- In some world the executor of the configuration carries the action out. -/
def PassesGuards (config : Config) (action : ActionSpec) (event : Event) : Prop :=
  ∃ tools outcome, (executorFor config).execute tools action event = .ok outcome

/-- If the action unlocks a vault, that vault has a key description. -/
def UnlocksByKey (config : Config) (action : ActionSpec) : Prop :=
  ∀ name, action = .unlockVault name →
    ∃ vault ∈ config.vaults, vault.name = name ∧ vault.keyringDescription.isSome = true

/-- What validation has checked of a vault. -/
structure VaultAccepted (vault : VaultConfig) : Prop where
  paths : vault.adapter = .gocryptfs →
    vault.encryptedPath.isSome = true ∧ vault.mountPath.isSome = true
  description : ∀ description, vault.keyringDescription = some description →
    invalidKeyringDescription description = false

theorem ok_bind {α β : Type} {x : Except String α} {f : α → Except String β}
    (hx : ∃ a, x = .ok a) (hf : ∀ a, x = .ok a → ∃ b, f a = .ok b) : ∃ b, (x >>= f) = .ok b := by
  obtain ⟨a, rfl⟩ := hx
  exact hf a rfl

theorem ensure_ok {check : Bool} {message : String} (h : check = true) :
    ∃ passed, ensure check message = .ok passed := ⟨(), by rw [ensure, if_pos h]⟩

/-! ## A world in which everything works -/

def willingTools : Tools where
  isFile := fun _ => true
  spawn := fun _ _ _ _ _ => .ok ⟨true, "1", "", false⟩
  readBytes := fun _ _ _ => .ok [0]
  terminateNamedProcesses := fun _ _ => .ok 0
  writeMetadata := fun _ destination _ => .ok destination
  verifyExecutableSecurity := fun _ => .ok ()
  verifySha256 := fun _ _ => .ok ()
  debug := fun _ => ""
  elapsedMs := 0

def utilities : List String :=
  ["fscrypt", "fusermount3", "keyctl", "gocryptfs", "umount", "nmcli", "ip", "systemctl",
    "notify-send"]

theorem willing_resolveTool {name : String} (h : name ∈ utilities) :
    ∃ path, willingTools.resolveTool name = .ok path ∧ path.isAbsolute = true := by
  have hall : utilities.all (fun name =>
      (willingTools.resolveTool name).toOption.any PathBuf.isAbsolute) = true := by
    decide +kernel
  have hname := List.all_eq_true.mp hall name h
  cases hresolve : willingTools.resolveTool name with
  | error message =>
      rw [hresolve] at hname
      cases hname
  | ok path =>
      rw [hresolve] at hname
      exact ⟨path, rfl, hname⟩

theorem willing_runCommand {path : PathBuf} (h : path.isAbsolute = true) (args : List String)
    (secret : Option (List UInt8)) (environment : List (String × String)) (timeout : Duration) :
    willingTools.runCommand path args secret environment timeout = .ok ⟨true, "1", "", false⟩ := by
  rw [Tools.runCommand, ensure, h]
  rfl

theorem willing_utility (context : ExecutionContext) {name : String} (h : name ∈ utilities)
    (args : List String) (message : String) :
    ∃ outcome, context.utility willingTools name args message = .ok outcome := by
  obtain ⟨path, hresolve, habsolute⟩ := willing_resolveTool h
  refine ok_bind ⟨path, hresolve⟩ (fun found hfound => ?_)
  cases hresolve.symm.trans hfound
  exact ok_bind ⟨_, willing_runCommand habsolute args none [] _⟩ (fun _ _ => ⟨_, rfl⟩)

theorem willing_readKeyring {description : String}
    (h : invalidKeyringDescription description = false) (timeout : Duration) :
    willingTools.readKeyring description timeout = .ok [0] := by
  obtain ⟨path, hresolve, habsolute⟩ := willing_resolveTool
    (show "keyctl" ∈ utilities by decide)
  have hread : ∀ args, willingTools.readCommandBytes path args timeout = .ok [0] := by
    intro args
    rw [Tools.readCommandBytes, ensure, habsolute]
    rfl
  rw [Tools.readKeyring, ensure, h, hresolve]
  change (willingTools.runCommand path _ none [] timeout >>= _) = _
  rw [willing_runCommand habsolute]
  change ((willingTools.readCommandBytes path _ timeout).mapError _ >>= _) = _
  rw [hread]
  rfl

theorem willing_lockVault {vault : VaultConfig} (h : VaultAccepted vault) (timeout : Duration) :
    ∃ result, willingTools.lockVault vault timeout = .ok result := by
  rw [Tools.lockVault]
  cases hadapter : vault.adapter with
  | fscrypt =>
      obtain ⟨path, hresolve, habsolute⟩ := willing_resolveTool
        (show "fscrypt" ∈ utilities by decide)
      rw [hresolve]
      exact ⟨_, willing_runCommand habsolute _ none [] timeout⟩
  | gocryptfs =>
      obtain ⟨mountPath, hmount⟩ := Option.isSome_iff_exists.mp (h.paths hadapter).2
      obtain ⟨path, hresolve, habsolute⟩ := willing_resolveTool
        (show "fusermount3" ∈ utilities by decide)
      rw [hmount, hresolve]
      exact ⟨_, willing_runCommand habsolute _ none [] timeout⟩

theorem willing_unlockVault {vault : VaultConfig} (h : VaultAccepted vault)
    (hkey : vault.keyringDescription.isSome = true) (timeout : Duration) :
    ∃ result, willingTools.unlockVault vault timeout = .ok result := by
  obtain ⟨description, hdescription⟩ := Option.isSome_iff_exists.mp hkey
  have hread := willing_readKeyring (h.description description hdescription) timeout
  rw [Tools.unlockVault, hdescription]
  change ∃ result, (willingTools.readKeyring description timeout >>= _) = .ok result
  rw [hread]
  cases hadapter : vault.adapter with
  | fscrypt =>
      obtain ⟨path, hresolve, habsolute⟩ := willing_resolveTool
        (show "fscrypt" ∈ utilities by decide)
      rw [hresolve]
      exact ⟨_, willing_runCommand habsolute _ (some [0]) [] timeout⟩
  | gocryptfs =>
      obtain ⟨encryptedPath, hencrypted⟩ := Option.isSome_iff_exists.mp (h.paths hadapter).1
      obtain ⟨mountPath, hmount⟩ := Option.isSome_iff_exists.mp (h.paths hadapter).2
      obtain ⟨path, hresolve, habsolute⟩ := willing_resolveTool
        (show "gocryptfs" ∈ utilities by decide)
      rw [hencrypted, hmount, hresolve]
      exact ⟨_, willing_runCommand habsolute _ (some [0]) [] timeout⟩

/-- Without a key description no world unlocks the vault. -/
theorem unlockVault_ok_key {tools : Tools} {vault : VaultConfig} {timeout : Duration}
    {result : CommandResult} (h : tools.unlockVault vault timeout = .ok result) :
    vault.keyringDescription.isSome = true := by
  cases hkey : vault.keyringDescription with
  | none =>
      rw [Tools.unlockVault, hkey] at h
      cases h
  | some description => rfl

/-! ## What validation leaves to check -/

theorem vaultAccepted_of_reports {vault : VaultConfig}
    (hpaths : (vault.adapter == .gocryptfs &&
      (missingOrRelative vault.encryptedPath || missingOrRelative vault.mountPath)) = false)
    (hdescription : vault.keyringDescription.any invalidKeyringDescription = false) :
    VaultAccepted vault where
  paths := by
    intro hadapter
    obtain ⟨hencrypted, hmount⟩ : missingOrRelative vault.encryptedPath = false ∧
        missingOrRelative vault.mountPath = false := by simpa [hadapter] using hpaths
    constructor
    · cases hpath : vault.encryptedPath with
      | none => simp [hpath, missingOrRelative] at hencrypted
      | some path => rfl
    · cases hpath : vault.mountPath with
      | none => simp [hpath, missingOrRelative] at hmount
      | some path => rfl
  description := by
    intro description hsome
    simpa [hsome] using hdescription

theorem vaultErrors_nil {seen : List String} {vaults : List VaultConfig}
    (h : vaultErrors seen vaults = []) :
    ((vaults.map (·.name)).Nodup ∧ ∀ vault ∈ vaults, vault.name ∉ seen) ∧
      ∀ vault ∈ vaults, VaultAccepted vault := by
  induction vaults generalizing seen with
  | nil => simp
  | cons head vaults ih =>
      obtain ⟨hhead, htail⟩ := List.append_eq_nil_iff.mp h
      obtain ⟨hdistinct, haccepted⟩ := ih htail
      simp only [List.append_eq_nil_iff, report_eq_nil] at hhead
      obtain ⟨⟨⟨⟨-, hseen⟩, -⟩, hpaths⟩, hdescription⟩ := hhead
      have hnew : head.name ∉ seen := by simpa using hseen
      refine ⟨distinct_cons hnew hdistinct, List.forall_mem_cons.mpr ⟨?_, haccepted⟩⟩
      exact vaultAccepted_of_reports hpaths hdescription

section Accepted

variable {parseTime : String → Option ℕ} {config : Config}

/-- The lookup of a name that a vault bears finds that vault. -/
theorem executorFor_vault (hok : validateConfig parseTime config = .ok ()) {vault : VaultConfig}
    (hvault : vault ∈ config.vaults) :
    VaultAccepted vault ∧ (executorFor config).vault vault.name = .ok vault := by
  obtain ⟨⟨hnodup, -⟩, haccepted⟩ := vaultErrors_nil (validateConfig_eq_ok.mp hok).2.2.2.1
  refine ⟨haccepted vault hvault, ?_⟩
  have hfind : config.vaults.find? (fun item => item.name == vault.name) = some vault := by
    cases hfound : config.vaults.find? (fun item => item.name == vault.name) with
    | none => exact absurd (List.find?_eq_none.mp hfound vault hvault) (by simp)
    | some found =>
        have hname : found.name = vault.name := by simpa using List.find?_some hfound
        have hsame := List.inj_on_of_nodup_map hnodup (List.mem_of_find?_eq_some hfound) hvault hname
        rw [hsame]
  rw [ExecutionContext.vault]
  change require (config.vaults.find? (fun item => item.name == vault.name)) _ = _
  rw [hfind]
  rfl

theorem known_vault (hok : validateConfig parseTime config = .ok ()) {name : String}
    (h : (!(config.vaults.map (·.name)).contains name) = false) :
    ∃ vault ∈ config.vaults, vault.name = name ∧ VaultAccepted vault ∧
      (executorFor config).vault name = .ok vault := by
  obtain ⟨vault, hvault, rfl⟩ := List.mem_map.mp (by simpa using h : name ∈ config.vaults.map _)
  obtain ⟨haccepted, hfind⟩ := executorFor_vault hok hvault
  exact ⟨vault, hvault, rfl, haccepted, hfind⟩

/-- Every accepted action but an unlock passes, and so does an unlock by a key. -/
theorem passes_guards (hok : validateConfig parseTime config = .ok ())
    (hlive : config.daemon.dryRun = false) {ruleId : String} {action : ActionSpec}
    (hvalid : validateAction config ruleId action = []) (hkey : UnlocksByKey config action)
    (event : Event) : PassesGuards config action event := by
  have hdry : (executorFor config).dryRun = false := hlive
  refine ⟨willingTools, ?_⟩
  simp only [ExecutionContext.execute, hdry, Bool.false_eq_true, if_false]
  cases action with
  | lockVault name =>
      rw [validateAction, report_eq_nil] at hvalid
      obtain ⟨vault, -, -, haccepted, hfind⟩ := known_vault hok hvalid
      refine ok_bind ⟨vault, hfind⟩ (fun found hfound => ?_)
      cases hfind.symm.trans hfound
      exact ok_bind (willing_lockVault haccepted _) (fun _ _ => ⟨_, rfl⟩)
  | unlockVault name =>
      obtain ⟨vault, hvault, rfl, hsome⟩ := hkey name rfl
      obtain ⟨haccepted, hfind⟩ := executorFor_vault hok hvault
      refine ok_bind ⟨vault, hfind⟩ (fun found hfound => ?_)
      cases hfind.symm.trans hfound
      exact ok_bind (willing_unlockVault haccepted hsome _) (fun _ _ => ⟨_, rfl⟩)
  | unmount path =>
      rw [validateAction, report_eq_nil, Bool.not_eq_false'] at hvalid
      exact ok_bind (ensure_ok hvalid) (fun _ _ => willing_utility _ (by decide) _ _)
  | networkIsolation enabled =>
      exact ok_bind (willing_utility _ (by decide) _ _) (fun _ _ => ⟨_, rfl⟩)
  | interfaceState interface up =>
      rw [validateAction, report_eq_nil, Bool.not_eq_false'] at hvalid
      exact ok_bind (ensure_ok hvalid) (fun _ _ => willing_utility _ (by decide) _ _)
  | service name state =>
      rw [validateAction, report_eq_nil, Bool.not_eq_false'] at hvalid
      exact ok_bind (ensure_ok hvalid) (fun _ _ => willing_utility _ (by decide) _ _)
  | terminateProcess process signal =>
      rw [validateAction, report_eq_nil, Bool.not_eq_false'] at hvalid
      exact ok_bind (ensure_ok hvalid) (fun _ _ => ⟨_, rfl⟩)
  | notify title message urgency =>
      by_cases hdesktop : (executorFor config).desktopNotifications = true
      · rw [hdesktop]
        exact willing_utility _ (show "notify-send" ∈ utilities by decide) _ _
      · rw [Bool.not_eq_true] at hdesktop
        rw [hdesktop]
        exact ⟨_, rfl⟩
  | captureEvidence paths destination =>
      rw [validateAction, report_eq_nil] at hvalid
      have habsolute : (destination.isAbsolute && paths.all PathBuf.isAbsolute) = true := by
        simpa [List.all_eq_true] using hvalid
      exact ok_bind (ok_bind (ensure_ok habsolute) (fun _ _ => ⟨_, rfl⟩)) (fun _ _ => ⟨_, rfl⟩)
  | setMode mode => exact ⟨_, rfl⟩
  | exec executable args expectedSha256 environment =>
      simp only [validateAction, List.append_eq_nil_iff, report_eq_nil] at hvalid
      obtain ⟨habsolute, hlisted⟩ : executable.isAbsolute = true ∧
          containsPath config.daemon.allowedExecutables executable = true := by
        simpa using hvalid.1.1.1
      refine ok_bind (ensure_ok hlisted) (fun _ _ => ?_)
      refine ok_bind ⟨(), rfl⟩ (fun _ _ => ?_)
      have hrun : ∃ result, willingTools.runCommand executable args none environment
          (executorFor config).commandTimeout = .ok result := ⟨_, willing_runCommand habsolute ..⟩
      cases expectedSha256 with
      | none => exact ok_bind hrun (fun _ _ => ⟨_, rfl⟩)
      | some expected =>
          exact ok_bind ⟨(), rfl⟩ (fun _ _ => ok_bind hrun (fun _ _ => ⟨_, rfl⟩))

/-- The executor's own checks turn down an accepted action in one case: an unlock of a vault
without a key description. -/
theorem validated_passes_iff (hok : validateConfig parseTime config = .ok ())
    (hlive : config.daemon.dryRun = false) {rule : Rule} (hrule : rule ∈ config.rules)
    {action : ActionSpec} (haction : action ∈ rule.actions) (event : Event) :
    PassesGuards config action event ↔ UnlocksByKey config action := by
  have hvalid := (validateConfig_rule hok hrule).2 action haction
  constructor
  · rintro ⟨tools, outcome, hexecute⟩ name rfl
    rw [validateAction, report_eq_nil] at hvalid
    obtain ⟨vault, hvault, hname, -, hfind⟩ := known_vault hok hvalid
    have hdry : (executorFor config).dryRun = false := hlive
    simp only [ExecutionContext.execute, hdry, Bool.false_eq_true, if_false, hfind] at hexecute
    cases hunlock : tools.unlockVault vault (executorFor config).commandTimeout with
    | error message =>
        change (tools.unlockVault vault _ >>= _) = _ at hexecute
        rw [hunlock] at hexecute
        cases hexecute
    | ok result => exact ⟨vault, hvault, hname, unlockVault_ok_key hunlock⟩
  · intro hkey
    exact passes_guards hok hlive hvalid hkey event

end Accepted

/-- A configuration whose one rule unlocks the vault `home`. -/
def unlockConfig (key : Option String) : Config :=
  { testConfig [{ testRule (.manual "open") with actions := [.unlockVault "home"] }] with
    daemon := { testDaemon with dryRun := false }
    vaults := [⟨"home", .fscrypt, ⟨"/srv/home"⟩, none, none, key⟩] }

theorem validated_passes_key :
    PassesGuards (unlockConfig (some "kovert:home")) (.unlockVault "home")
      (eventAt (.manual "open") 0) := by
  have hkey : UnlocksByKey (unlockConfig (some "kovert:home")) (.unlockVault "home") := by
    intro name hname
    cases hname
    exact ⟨_, List.mem_singleton.mpr rfl, rfl, rfl⟩
  have hok : validateConfig (fun _ => none) (unlockConfig (some "kovert:home")) = .ok () := by
    decide +kernel
  exact (validated_passes_iff hok rfl (List.mem_singleton.mpr rfl) (List.mem_singleton.mpr rfl)
    _).mpr hkey

/-- Validation accepts the unlock of a vault that no world unlocks. -/
theorem unlock_without_key :
    validateConfig (fun _ => none) (unlockConfig none) = .ok () ∧
      (unlockConfig none).daemon.dryRun = false ∧
      (∃ rule ∈ (unlockConfig none).rules, .unlockVault "home" ∈ rule.actions) ∧
      ∀ tools event, (executorFor (unlockConfig none)).execute tools (.unlockVault "home") event =
        .error "automatic unlock requires keyring_description" :=
  ⟨by decide +kernel, rfl, ⟨_, List.mem_singleton.mpr rfl, List.mem_singleton.mpr rfl⟩,
    fun _ _ => rfl⟩

end Kovert
