import Kovert.Event
import Kovert.Validation

/-!
# The action executor

`ActionExecutor` of `kovert-actions/src/lib.rs` with its vault adapters. What
lies outside the daemon during one execution is a `Tools` record: which system
utilities exist, what a child process returns, the process table, the file
system and the clock.
-/

namespace Kovert

structure CommandResult where
  success : Bool
  stdout : String
  stderr : String
  outputTruncated : Bool
  deriving DecidableEq, Repr

/-- The world one execution meets. -/
structure Tools where
  isFile : PathBuf → Bool
  spawn : PathBuf → List String → Option (List UInt8) → List (String × String) → Duration →
    Except String CommandResult
  readBytes : PathBuf → List String → Duration → Except String (List UInt8)
  terminateNamedProcesses : String → ProcessSignal → Except String ℕ
  writeMetadata : List PathBuf → PathBuf → Event → Except String PathBuf
  verifyExecutableSecurity : PathBuf → Except String Unit
  verifySha256 : PathBuf → String → Except String Unit
  debug : ActionSpec → String
  elapsedMs : ℕ

/-- Runtime context shared by action executions. -/
structure ExecutionContext where
  dryRun : Bool
  commandTimeout : Duration
  allowedExecutables : List PathBuf
  managedProcesses : List String
  vaults : List VaultConfig
  desktopNotifications : Bool
  deriving DecidableEq, Repr

/-- State transition the daemon applies after a successful action. -/
inductive ActionEffect where
  | none
  | setMode (mode : String)
  | networkIsolation (enabled : Bool)
  deriving DecidableEq, Repr

/-- Auditable result of one action. -/
structure ActionOutcome where
  success : Bool
  dryRun : Bool
  message : String
  durationMs : ℕ
  effect : ActionEffect
  stdout : Option String
  stderr : Option String
  outputTruncated : Bool
  deriving DecidableEq, Repr

def nonempty (value : String) : Option String := if value.isEmpty then none else some value

namespace ActionOutcome

def ofDryRun (message : String) : ActionOutcome where
  success := true
  dryRun := true
  message := message
  durationMs := 0
  effect := .none
  stdout := none
  stderr := none
  outputTruncated := false

def internal (message : String) (effect : ActionEffect) (elapsedMs : ℕ) : ActionOutcome where
  success := true
  dryRun := false
  message := message
  durationMs := elapsedMs
  effect := effect
  stdout := none
  stderr := none
  outputTruncated := false

def command (message : String) (result : CommandResult) (elapsedMs : ℕ) : ActionOutcome where
  success := result.success
  dryRun := false
  message := message
  durationMs := elapsedMs
  effect := .none
  stdout := nonempty result.stdout
  stderr := nonempty result.stderr
  outputTruncated := result.outputTruncated

end ActionOutcome

/-- `bail!` unless the check passes. -/
def ensure (check : Bool) (message : String) : Except String Unit :=
  if check then .ok () else .error message

def require {α : Type} (value : Option α) (message : String) : Except String α :=
  match value with
  | some a => .ok a
  | none => .error message

namespace Tools

def toolDirectories : List String := ["/usr/bin", "/usr/sbin", "/bin", "/sbin"]

/-- Resolve a fixed system utility without consulting an inherited PATH. -/
def resolveTool (tools : Tools) (name : String) : Except String PathBuf := do
  ensure (!name.toList.contains '/' && !name.toList.contains (Char.ofNat 0)) "invalid tool name"
  require ((toolDirectories.map (fun directory => (⟨directory ++ "/" ++ name⟩ : PathBuf))).find?
    tools.isFile) ("required adapter tool is unavailable: " ++ name)

def runCommand (tools : Tools) (executable : PathBuf) (args : List String)
    (secret : Option (List UInt8)) (environment : List (String × String)) (timeout : Duration) :
    Except String CommandResult := do
  ensure executable.isAbsolute "executable path must be absolute"
  tools.spawn executable args secret environment timeout

def readCommandBytes (tools : Tools) (executable : PathBuf) (args : List String)
    (timeout : Duration) : Except String (List UInt8) := do
  ensure executable.isAbsolute "executable path must be absolute"
  tools.readBytes executable args timeout

/-! ## Vault adapters -/

def lockVault (tools : Tools) (vault : VaultConfig) (timeout : Duration) :
    Except String CommandResult :=
  match vault.adapter with
  | .fscrypt => do
    let executable ← tools.resolveTool "fscrypt"
    tools.runCommand executable ["lock", vault.path.text] none [] timeout
  | .gocryptfs => do
    let mountPath ← require vault.mountPath "gocryptfs vault has no mount_path"
    let executable ← (tools.resolveTool "fusermount3").orElseLazy
      (fun _ => tools.resolveTool "fusermount")
    tools.runCommand executable ["-u", mountPath.text] none [] timeout

def readKeyring (tools : Tools) (description : String) (timeout : Duration) :
    Except String (List UInt8) := do
  ensure (!invalidKeyringDescription description) "invalid kernel-keyring description"
  let keyctl ← tools.resolveTool "keyctl"
  let search ← tools.runCommand keyctl ["search", "@u", "user", description] none [] timeout
  ensure search.success ("kernel-keyring lookup failed: " ++ search.stderr)
  let serial := trim search.stdout.toList
  ensure (!serial.isEmpty && serial.all Char.isDigit)
    "kernel-keyring lookup returned an invalid serial"
  let key ← (tools.readCommandBytes keyctl ["pipe", String.ofList serial] timeout).mapError
    (fun _ => "read kernel key")
  ensure (!key.isEmpty) "kernel-keyring key is empty"
  pure key

def unlockVault (tools : Tools) (vault : VaultConfig) (timeout : Duration) :
    Except String CommandResult := do
  let description ← require vault.keyringDescription
    "automatic unlock requires keyring_description"
  let key ← tools.readKeyring description timeout
  match vault.adapter with
  | .fscrypt => do
    let executable ← tools.resolveTool "fscrypt"
    tools.runCommand executable ["unlock", vault.path.text] (some key) [] timeout
  | .gocryptfs => do
    let encryptedPath ← require vault.encryptedPath "gocryptfs vault has no encrypted_path"
    let mountPath ← require vault.mountPath "gocryptfs vault has no mount_path"
    let executable ← tools.resolveTool "gocryptfs"
    tools.runCommand executable
      ["-quiet", "-passfile", "/dev/stdin", encryptedPath.text, mountPath.text] (some key) []
      timeout

/-- Capture metadata only. -/
def captureMetadata (tools : Tools) (paths : List PathBuf) (destination : PathBuf)
    (event : Event) : Except String PathBuf := do
  ensure (destination.isAbsolute && paths.all PathBuf.isAbsolute) "evidence paths must be absolute"
  tools.writeMetadata paths destination event

end Tools

namespace ExecutionContext

def vault (context : ExecutionContext) (name : String) : Except String VaultConfig :=
  require (context.vaults.find? (fun vault => vault.name == name)) ("unknown vault " ++ name)

def serviceVerb : ServiceAction → String
  | .start => "start"
  | .stop => "stop"
  | .restart => "restart"

def urgencyName : NotificationUrgency → String
  | .low => "low"
  | .normal => "normal"
  | .critical => "critical"

/-- A fixed utility run with these arguments. -/
def utility (context : ExecutionContext) (tools : Tools) (name : String) (args : List String)
    (message : String) : Except String ActionOutcome := do
  let executable ← tools.resolveTool name
  let result ← tools.runCommand executable args none [] context.commandTimeout
  pure (.command message result tools.elapsedMs)

/-- Only a successful switch reports the new isolation state. -/
def reportIsolation (enabled : Bool) (outcome : ActionOutcome) : ActionOutcome :=
  if outcome.success then { outcome with effect := .networkIsolation enabled } else outcome

/-- Execute one action. Failures are returned for the daemon to audit. -/
def execute (context : ExecutionContext) (tools : Tools) (action : ActionSpec) (event : Event) :
    Except String ActionOutcome :=
  if context.dryRun then .ok (.ofDryRun ("would execute " ++ tools.debug action)) else
  match action with
  | .lockVault name => do
    let vault ← context.vault name
    let result ← tools.lockVault vault context.commandTimeout
    pure (.command ("locked vault " ++ vault.name) result tools.elapsedMs)
  | .unlockVault name => do
    let vault ← context.vault name
    let result ← tools.unlockVault vault context.commandTimeout
    pure (.command ("unlocked vault " ++ vault.name) result tools.elapsedMs)
  | .unmount path => do
    ensure path.isAbsolute ("privileged path must be absolute: " ++ path.text)
    context.utility tools "umount" [path.text] ("unmounted " ++ path.text)
  | .networkIsolation enabled => do
    let outcome ← context.utility tools "nmcli" ["networking", if enabled then "off" else "on"]
      (if enabled then "isolated networking" else "restored networking")
    pure (reportIsolation enabled outcome)
  | .interfaceState interface up => do
    ensure (validInterfaceName interface) "invalid network interface name"
    let state := if up then "up" else "down"
    context.utility tools "ip" ["link", "set", "dev", interface, state]
      ("set interface " ++ interface ++ " " ++ state)
  | .service name state => do
    ensure (validUnitName name) "invalid systemd unit name"
    context.utility tools "systemctl" [serviceVerb state, name, "--no-block"]
      ("requested " ++ serviceVerb state ++ " for " ++ name)
  | .terminateProcess process signal => do
    ensure (context.managedProcesses.contains process)
      ("process " ++ process ++ " is not in the managed-process allowlist")
    let count ← tools.terminateNamedProcesses process signal
    pure (.internal ("signalled " ++ toString count ++ " instance(s) of " ++ process) .none
      tools.elapsedMs)
  | .notify title message urgency =>
    if !context.desktopNotifications then
      pure (.internal "notification recorded in the local journal" .none tools.elapsedMs)
    else
      context.utility tools "notify-send"
        ["--app-name=Kovert", "--urgency=" ++ urgencyName urgency, title, message]
        "sent local notification"
  | .captureEvidence paths destination => do
    let output ← tools.captureMetadata paths destination event
    pure (.internal ("captured metadata at " ++ output.text) .none tools.elapsedMs)
  | .setMode mode =>
    pure (.internal ("set security mode to " ++ mode) (.setMode mode) tools.elapsedMs)
  | .exec executable args expectedSha256 environment => do
    ensure (containsPath context.allowedExecutables executable)
      ("executable " ++ executable.text ++ " is not in the approved allowlist")
    tools.verifyExecutableSecurity executable
    match expectedSha256 with
    | some expected => tools.verifySha256 executable expected
    | none => pure ()
    let result ← tools.runCommand executable args none environment context.commandTimeout
    pure (.command ("executed " ++ executable.text) result tools.elapsedMs)

end ExecutionContext

end Kovert
