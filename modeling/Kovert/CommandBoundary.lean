import Kovert.Control
import Kovert.ExecutorGuards
import Kovert.Foundations.TwoRuns
import Kovert.Modes

/-!
# What the daemon can run

The policy of a configuration says which child processes its actions may start,
with which arguments and environment, and which of them is handed a key. Two
hosts that agree on what the policy permits cannot be told apart: an action, an
event and a whole run of the daemon ask the host for nothing else, and in a dry
run for nothing at all.
-/

namespace Kovert

open Fallible Session

/-! ## The policy -/

/-- A fixed utility in one of the directories of `resolve_tool`. -/
def SystemTool (name : String) (executable : PathBuf) : Prop :=
  ∃ directory ∈ Tools.toolDirectories, executable = ⟨directory ++ "/" ++ name⟩

/-- The arguments of `run_command` but for the time limit. -/
structure Launch where
  executable : PathBuf
  args : List String
  secret : Option (List UInt8)
  environment : List (String × String)

def Serial (serial : String) : Prop := serial.toList ≠ [] ∧ serial.toList.all Char.isDigit = true

/-- The key of a vault, as `keyctl` prints it. -/
def KernelKey (tools : Tools) (timeout : Duration) (key : List UInt8) : Prop :=
  ∃ keyctl serial, SystemTool "keyctl" keyctl ∧ Serial serial ∧
    tools.readBytes keyctl ["pipe", serial] timeout = .ok key

/-- The child processes of an action under a configuration. Keys go to the
adapter of their own vault only, and an executable is run only when it is listed,
safely owned and has the pinned digest. -/
inductive Permitted (config : Config) (tools : Tools) : ActionSpec → Launch → Prop where
  | lockFscrypt {vault : VaultConfig} {executable : PathBuf} (hvault : vault ∈ config.vaults)
      (hadapter : vault.adapter = .fscrypt) (htool : SystemTool "fscrypt" executable) :
      Permitted config tools (.lockVault vault.name) ⟨executable, ["lock", vault.path.text], none, []⟩
  | lockGocryptfs {vault : VaultConfig} {executable mountPath : PathBuf}
      (hvault : vault ∈ config.vaults) (hadapter : vault.adapter = .gocryptfs)
      (hmount : vault.mountPath = some mountPath)
      (htool : SystemTool "fusermount3" executable ∨ SystemTool "fusermount" executable) :
      Permitted config tools (.lockVault vault.name) ⟨executable, ["-u", mountPath.text], none, []⟩
  | searchKey {vault : VaultConfig} {executable : PathBuf} {description : String}
      (hvault : vault ∈ config.vaults) (hkey : vault.keyringDescription = some description)
      (hvalid : invalidKeyringDescription description = false)
      (htool : SystemTool "keyctl" executable) :
      Permitted config tools (.unlockVault vault.name)
        ⟨executable, ["search", "@u", "user", description], none, []⟩
  | unlockFscrypt {vault : VaultConfig} {executable : PathBuf} {key : List UInt8}
      (hvault : vault ∈ config.vaults) (hadapter : vault.adapter = .fscrypt)
      (hkey : KernelKey tools config.daemon.commandTimeout key)
      (htool : SystemTool "fscrypt" executable) :
      Permitted config tools (.unlockVault vault.name)
        ⟨executable, ["unlock", vault.path.text], some key, []⟩
  | unlockGocryptfs {vault : VaultConfig} {executable encryptedPath mountPath : PathBuf}
      {key : List UInt8} (hvault : vault ∈ config.vaults) (hadapter : vault.adapter = .gocryptfs)
      (hencrypted : vault.encryptedPath = some encryptedPath)
      (hmount : vault.mountPath = some mountPath)
      (hkey : KernelKey tools config.daemon.commandTimeout key)
      (htool : SystemTool "gocryptfs" executable) :
      Permitted config tools (.unlockVault vault.name)
        ⟨executable, ["-quiet", "-passfile", "/dev/stdin", encryptedPath.text, mountPath.text],
          some key, []⟩
  | unmount {path executable : PathBuf} (habsolute : path.isAbsolute = true)
      (htool : SystemTool "umount" executable) :
      Permitted config tools (.unmount path) ⟨executable, [path.text], none, []⟩
  | networking {enabled : Bool} {executable : PathBuf} (htool : SystemTool "nmcli" executable) :
      Permitted config tools (.networkIsolation enabled)
        ⟨executable, ["networking", if enabled then "off" else "on"], none, []⟩
  | link {interface : String} {up : Bool} {executable : PathBuf}
      (hvalid : validInterfaceName interface = true) (htool : SystemTool "ip" executable) :
      Permitted config tools (.interfaceState interface up)
        ⟨executable, ["link", "set", "dev", interface, if up then "up" else "down"], none, []⟩
  | unit {name : String} {state : ServiceAction} {executable : PathBuf}
      (hvalid : validUnitName name = true) (htool : SystemTool "systemctl" executable) :
      Permitted config tools (.service name state)
        ⟨executable, [ExecutionContext.serviceVerb state, name, "--no-block"], none, []⟩
  | notification {title message : String} {urgency : NotificationUrgency} {executable : PathBuf}
      (hdesktop : config.daemon.desktopNotifications = true)
      (htool : SystemTool "notify-send" executable) :
      Permitted config tools (.notify title message urgency)
        ⟨executable, ["--app-name=Kovert",
          "--urgency=" ++ ExecutionContext.urgencyName urgency, title, message], none, []⟩
  | exec {executable : PathBuf} {args : List String} {expected : String}
      {environment : List (String × String)}
      (hlisted : containsPath config.daemon.allowedExecutables executable = true)
      (hsecure : tools.verifyExecutableSecurity executable = .ok ())
      (hdigest : tools.verifySha256 executable expected = .ok ()) :
      Permitted config tools (.exec executable args (some expected) environment)
        ⟨executable, args, none, environment⟩

/-- An action of one of the configuration's rules, or the alert of a sensor failure. -/
def Configured (config : Config) (action : ActionSpec) : Prop :=
  (∃ rule ∈ config.rules, action ∈ rule.actions) ∨
    ∃ title message urgency, action = .notify title message urgency

/-- The two hosts answer alike whatever the policy permits to ask. -/
structure AgreeLive (config : Config) (tools other : Tools) : Prop where
  isFile : other.isFile = tools.isFile
  elapsedMs : other.elapsedMs = tools.elapsedMs
  spawn : ∀ action launch, Configured config action → Permitted config tools action launch →
    other.spawn launch.executable launch.args launch.secret launch.environment
        config.daemon.commandTimeout =
      tools.spawn launch.executable launch.args launch.secret launch.environment
        config.daemon.commandTimeout
  readBytes : ∀ name keyctl serial, Configured config (.unlockVault name) →
    SystemTool "keyctl" keyctl → Serial serial →
    other.readBytes keyctl ["pipe", serial] config.daemon.commandTimeout =
      tools.readBytes keyctl ["pipe", serial] config.daemon.commandTimeout
  terminate : ∀ process signal, Configured config (.terminateProcess process signal) →
    process ∈ config.daemon.managedProcesses →
    other.terminateNamedProcesses process signal = tools.terminateNamedProcesses process signal
  writeMetadata : ∀ paths destination event, Configured config (.captureEvidence paths destination) →
    destination.isAbsolute = true → (∀ path ∈ paths, path.isAbsolute = true) →
    other.writeMetadata paths destination event = tools.writeMetadata paths destination event
  verifyExecutableSecurity : ∀ executable,
    containsPath config.daemon.allowedExecutables executable = true →
    other.verifyExecutableSecurity executable = tools.verifyExecutableSecurity executable
  verifySha256 : ∀ executable expected,
    containsPath config.daemon.allowedExecutables executable = true →
    other.verifySha256 executable expected = tools.verifySha256 executable expected

/-- A dry run only renders the action. -/
structure AgreeWithin (config : Config) (tools other : Tools) : Prop where
  debug : other.debug = tools.debug
  live : config.daemon.dryRun = false → AgreeLive config tools other

/-! ## One action -/

/-- Continue alike after the same first part. -/
theorem bind_congr_ok {α β : Type} {x : Except String α} {f g : α → Except String β}
    (h : ∀ a, x = .ok a → f a = g a) : (x >>= f) = (x >>= g) := by
  cases x with
  | error message => rfl
  | ok a => exact h a rfl

theorem ensure_eq_ok {check : Bool} {message : String} (h : ensure check message = .ok ()) :
    check = true := by
  unfold ensure at h
  split at h
  · assumption
  · cases h

theorem require_eq_ok {α : Type} {value : Option α} {message : String} {a : α}
    (h : require value message = .ok a) : value = some a := by
  cases value with
  | none => cases h
  | some found =>
      cases h
      rfl

namespace Tools

theorem resolveTool_systemTool {tools : Tools} {name : String} {executable : PathBuf}
    (h : tools.resolveTool name = .ok executable) : SystemTool name executable := by
  obtain ⟨_, _, h⟩ := exists_ok_of_bind h
  have hmem := List.mem_of_find?_eq_some (require_eq_ok h)
  obtain ⟨directory, hdirectory, rfl⟩ := List.mem_map.mp hmem
  exact ⟨directory, hdirectory, rfl⟩

end Tools

namespace AgreeLive

variable {config : Config} {tools other : Tools} {action : ActionSpec}

theorem resolveTool (h : AgreeLive config tools other) (name : String) :
    other.resolveTool name = tools.resolveTool name := by
  rw [Tools.resolveTool, Tools.resolveTool, h.isFile]

theorem runCommand (h : AgreeLive config tools other) (haction : Configured config action)
    {executable : PathBuf} {args : List String} {secret : Option (List UInt8)}
    {environment : List (String × String)}
    (hpermitted : Permitted config tools action ⟨executable, args, secret, environment⟩) :
    other.runCommand executable args secret environment config.daemon.commandTimeout =
      tools.runCommand executable args secret environment config.daemon.commandTimeout :=
  bind_congr_ok fun _ _ => h.spawn action _ haction hpermitted

theorem utility (h : AgreeLive config tools other) (haction : Configured config action)
    {name message : String} {args : List String}
    (hpermitted : ∀ executable, SystemTool name executable →
      Permitted config tools action ⟨executable, args, none, []⟩) :
    (executorFor config).utility other name args message =
      (executorFor config).utility tools name args message := by
  unfold ExecutionContext.utility
  rw [h.resolveTool, h.elapsedMs]
  refine bind_congr_ok fun executable htool => ?_
  have hrun := h.runCommand haction (hpermitted executable (Tools.resolveTool_systemTool htool))
  exact congrArg (· >>= _) hrun

theorem lockVault (h : AgreeLive config tools other) {vault : VaultConfig}
    (hvault : vault ∈ config.vaults) (haction : Configured config (.lockVault vault.name)) :
    other.lockVault vault config.daemon.commandTimeout =
      tools.lockVault vault config.daemon.commandTimeout := by
  unfold Tools.lockVault
  cases hadapter : vault.adapter with
  | fscrypt =>
      simp only [h.resolveTool]
      refine bind_congr_ok fun executable htool => ?_
      exact h.runCommand haction
        (.lockFscrypt hvault hadapter (Tools.resolveTool_systemTool htool))
  | gocryptfs =>
      simp only [h.resolveTool]
      refine bind_congr_ok fun mountPath hmount => ?_
      refine bind_congr_ok fun executable htool => ?_
      refine h.runCommand haction (.lockGocryptfs hvault hadapter (require_eq_ok hmount) ?_)
      -- the second tool is tried when the first is missing
      cases hfirst : tools.resolveTool "fusermount3" with
      | ok found =>
          rw [hfirst] at htool
          cases htool
          exact Or.inl (Tools.resolveTool_systemTool hfirst)
      | error message =>
          rw [hfirst] at htool
          exact Or.inr (Tools.resolveTool_systemTool htool)

/-- The lookup of a key starts two processes, the second with a serial number. -/
theorem readKeyring (h : AgreeLive config tools other) {vault : VaultConfig}
    (hvault : vault ∈ config.vaults) (haction : Configured config (.unlockVault vault.name))
    {description : String} (hkey : vault.keyringDescription = some description) :
    other.readKeyring description config.daemon.commandTimeout =
      tools.readKeyring description config.daemon.commandTimeout := by
  unfold Tools.readKeyring
  simp only [h.resolveTool]
  refine bind_congr_ok fun _ hvalid => ?_
  have hvalid : invalidKeyringDescription description = false := by
    simpa using ensure_eq_ok hvalid
  refine bind_congr_ok fun keyctl hkeyctl => ?_
  have htool := Tools.resolveTool_systemTool hkeyctl
  have hsearch := h.runCommand haction (.searchKey hvault hkey hvalid htool)
  rw [hsearch]
  refine bind_congr_ok fun search _ => bind_congr_ok fun _ _ => bind_congr_ok fun _ hserial => ?_
  have hserial : Serial (String.ofList (trim search.stdout.toList)) := by
    have hchecked := ensure_eq_ok hserial
    rw [Bool.and_eq_true, Bool.not_eq_true', List.isEmpty_eq_false_iff] at hchecked
    rw [Serial, String.toList_ofList]
    exact hchecked
  have hpipe : other.readCommandBytes keyctl
      ["pipe", String.ofList (trim search.stdout.toList)] config.daemon.commandTimeout =
      tools.readCommandBytes keyctl
        ["pipe", String.ofList (trim search.stdout.toList)] config.daemon.commandTimeout :=
    bind_congr_ok fun _ _ => h.readBytes vault.name keyctl _ haction htool hserial
  rw [hpipe]

theorem kernelKey_of_readKeyring {tools : Tools} {description : String} {timeout : Duration}
    {key : List UInt8} (hread : tools.readKeyring description timeout = .ok key) :
    KernelKey tools timeout key := by
  obtain ⟨_, _, hread⟩ := exists_ok_of_bind hread
  obtain ⟨keyctl, hkeyctl, hread⟩ := exists_ok_of_bind hread
  obtain ⟨search, _, hread⟩ := exists_ok_of_bind hread
  obtain ⟨_, _, hread⟩ := exists_ok_of_bind hread
  obtain ⟨_, hserial, hread⟩ := exists_ok_of_bind hread
  obtain ⟨found, hpipe, hread⟩ := exists_ok_of_bind hread
  obtain ⟨_, _, hread⟩ := exists_ok_of_bind hread
  cases hread
  have hchecked := ensure_eq_ok hserial
  rw [Bool.and_eq_true, Bool.not_eq_true', List.isEmpty_eq_false_iff] at hchecked
  refine ⟨keyctl, String.ofList (trim search.stdout.toList),
    Tools.resolveTool_systemTool hkeyctl, ?_, ?_⟩
  · rw [Serial, String.toList_ofList]
    exact hchecked
  · cases hbytes : tools.readCommandBytes keyctl
        ["pipe", String.ofList (trim search.stdout.toList)] timeout with
    | error message =>
        rw [hbytes] at hpipe
        cases hpipe
    | ok bytes =>
        rw [hbytes] at hpipe
        cases hpipe
        obtain ⟨_, _, hbytes⟩ := exists_ok_of_bind hbytes
        exact hbytes

theorem unlockVault (h : AgreeLive config tools other) {vault : VaultConfig}
    (hvault : vault ∈ config.vaults) (haction : Configured config (.unlockVault vault.name)) :
    other.unlockVault vault config.daemon.commandTimeout =
      tools.unlockVault vault config.daemon.commandTimeout := by
  unfold Tools.unlockVault
  refine bind_congr_ok fun description hdescription => ?_
  rw [h.readKeyring hvault haction (require_eq_ok hdescription)]
  refine bind_congr_ok fun key hread => ?_
  have hkey := kernelKey_of_readKeyring hread
  cases hadapter : vault.adapter with
  | fscrypt =>
      simp only [h.resolveTool]
      refine bind_congr_ok fun executable htool => ?_
      exact h.runCommand haction
        (.unlockFscrypt hvault hadapter hkey (Tools.resolveTool_systemTool htool))
  | gocryptfs =>
      simp only [h.resolveTool]
      refine bind_congr_ok fun encryptedPath hencrypted => ?_
      refine bind_congr_ok fun mountPath hmount => ?_
      refine bind_congr_ok fun executable htool => ?_
      exact h.runCommand haction (.unlockGocryptfs hvault hadapter (require_eq_ok hencrypted)
        (require_eq_ok hmount) hkey (Tools.resolveTool_systemTool htool))

end AgreeLive

theorem executorFor_vault_mem {config : Config} {name : String} {vault : VaultConfig}
    (h : (executorFor config).vault name = .ok vault) :
    vault ∈ config.vaults ∧ vault.name = name := by
  have hfind := require_eq_ok h
  exact ⟨List.mem_of_find?_eq_some hfind, by simpa using List.find?_some hfind⟩

/-- An executed action asks the host for nothing but what its configuration permits. -/
theorem execute_agree {config : Config} {tools other : Tools} {action : ActionSpec}
    (h : AgreeWithin config tools other) (haction : Configured config action)
    (hpinned : ∀ executable args expected environment,
      action = .exec executable args expected environment → expected.isSome = true)
    (event : Event) :
    (executorFor config).execute other action event =
      (executorFor config).execute tools action event := by
  unfold ExecutionContext.execute
  cases hdry : (executorFor config).dryRun with
  | true => rw [if_pos rfl, if_pos rfl, h.debug]
  | false =>
      have hlive := h.live hdry
      simp only [Bool.false_eq_true, if_false, hlive.elapsedMs]
      cases action with
      | lockVault name =>
          refine bind_congr_ok fun vault hfound => ?_
          obtain ⟨hvault, rfl⟩ := executorFor_vault_mem hfound
          exact congrArg (· >>= _) (hlive.lockVault hvault haction)
      | unlockVault name =>
          refine bind_congr_ok fun vault hfound => ?_
          obtain ⟨hvault, rfl⟩ := executorFor_vault_mem hfound
          exact congrArg (· >>= _) (hlive.unlockVault hvault haction)
      | unmount path =>
          refine bind_congr_ok fun _ habsolute => ?_
          exact hlive.utility haction fun executable htool =>
            .unmount (ensure_eq_ok habsolute) htool
      | networkIsolation enabled =>
          exact congrArg (· >>= _) (hlive.utility haction fun executable htool => .networking htool)
      | interfaceState interface up =>
          refine bind_congr_ok fun _ hvalid => ?_
          exact hlive.utility haction fun executable htool => .link (ensure_eq_ok hvalid) htool
      | service name state =>
          refine bind_congr_ok fun _ hvalid => ?_
          exact hlive.utility haction fun executable htool => .unit (ensure_eq_ok hvalid) htool
      | terminateProcess process signal =>
          refine bind_congr_ok fun _ hmanaged => ?_
          have hmem : process ∈ config.daemon.managedProcesses := by
            simpa [executorFor] using ensure_eq_ok hmanaged
          rw [hlive.terminate process signal haction hmem]
      | notify title message urgency =>
          cases hdesktop : (executorFor config).desktopNotifications with
          | false => rfl
          | true =>
              exact hlive.utility haction fun executable htool => .notification hdesktop htool
      | captureEvidence paths destination =>
          refine congrArg (· >>= _) (bind_congr_ok fun _ habsolute => ?_)
          have hpaths := ensure_eq_ok habsolute
          rw [Bool.and_eq_true, List.all_eq_true] at hpaths
          exact hlive.writeMetadata paths destination event haction hpaths.1 hpaths.2
      | setMode mode => rfl
      | exec executable args expected environment =>
          refine bind_congr_ok fun _ hlisted => ?_
          have hlisted : containsPath config.daemon.allowedExecutables executable = true :=
            ensure_eq_ok hlisted
          rw [hlive.verifyExecutableSecurity executable hlisted]
          refine bind_congr_ok fun _ hsecure => ?_
          obtain ⟨digest, rfl⟩ := Option.isSome_iff_exists.mp
            (hpinned executable args expected environment rfl)
          simp only [hlive.verifySha256 executable digest hlisted]
          refine bind_congr_ok fun _ hdigest => ?_
          exact congrArg (· >>= _) (hlive.runCommand haction (.exec hlisted hsecure hdigest))

/-! ## One event -/

/-- A runtime whose engine and executor are those of its validated configuration. -/
structure Governed (runtime : Runtime) : Prop where
  validated : ∃ parseTime, validateConfig parseTime runtime.config = .ok ()
  rules_eq : runtime.engine.rules = sortRules runtime.config.rules
  executor_eq : runtime.executor = executorFor runtime.config

/-- The same while the configuration stays. -/
def GovernedBy (config : Config) (session : Session) : Prop :=
  session.runtime.config = config ∧ Governed session.runtime

theorem governedBy_of_runtime {config : Config} (before after : Session)
    (heq : after.runtime = before.runtime) (h : GovernedBy config before) :
    GovernedBy config after := by
  rw [GovernedBy, heq]
  exact h

theorem governedBy_invariant (env : Environment) (config : Config) :
    ModeInvariant env config (GovernedBy config) := by
  constructor
  case framed => exact fun before after h _ heq => governedBy_of_runtime before after heq h
  case config_eq => exact fun session h => h.1
  case rules_eq =>
    rintro session ⟨rfl, h⟩
    exact h.rules_eq
  case handled =>
    rintro session engine ⟨hconfig, h⟩ hrules _ _
    exact ⟨hconfig, h.validated, hrules.trans h.rules_eq, h.executor_eq⟩
  case mode =>
    intro mode _
    refine Keeps.bind ?_ fun _ => keeps_of_runtime governedBy_of_runtime
    rintro session ⟨rfl, h⟩
    exact ⟨rfl, h.validated, h.rules_eq, h.executor_eq⟩
  case recovery =>
    intro enabled
    refine Keeps.bind ?_ fun _ => keeps_of_runtime governedBy_of_runtime
    rintro session ⟨rfl, h⟩
    exact ⟨rfl, h.validated, h.rules_eq, h.executor_eq⟩

/-- The same daemon on other hosts. -/
def Environment.onHosts (env : Environment) (tools : ℕ → Tools) : Environment :=
  { env with tools := tools }

section Agreement

variable {env : Environment} {other : ℕ → Tools} {config : Config}
  {parseTime : String → Option ℕ}

/-- Validation pins every executable. -/
theorem Configured.pinned {action : ActionSpec} (h : Configured config action)
    (hvalid : validateConfig parseTime config = .ok ()) {executable : PathBuf}
    {args : List String} {expected : Option String} {environment : List (String × String)}
    (haction : action = .exec executable args expected environment) : expected.isSome = true := by
  subst haction
  rcases h with ⟨rule, hrule, hmem⟩ | ⟨title, message, urgency, halert⟩
  · have herrors := (validateConfig_rule hvalid hrule).2 _ hmem
    simp only [validateAction, List.append_eq_nil_iff, report_eq_nil] at herrors
    obtain ⟨⟨⟨_, _⟩, hnone⟩, _⟩ := herrors
    rw [← Option.not_isNone, hnone]
    rfl
  · cases halert

theorem Configured.knowsMode {mode : String} (h : Configured config (.setMode mode))
    (hvalid : validateConfig parseTime config = .ok ()) : config.knowsMode mode = true := by
  rcases h with ⟨rule, hrule, hmem⟩ | ⟨title, message, urgency, halert⟩
  · exact knowsMode_of_validated hvalid hrule hmem
  · cases halert

theorem keeps_executePlan_governed (hvalid : validateConfig parseTime config = .ok ())
    (event : Event) {plan : ActionPlan} (hplan : Configured config plan.action) :
    Keeps (GovernedBy config) (executePlan env event plan) := by
  refine (governedBy_invariant env config).keeps_executePlan event ?_
  intro mode haction
  rw [haction] at hplan
  exact hplan.knowsMode hvalid

variable (hagree : ∀ n, AgreeWithin config (env.tools n) (other n))
  (hvalid : validateConfig parseTime config = .ok ())
include hagree hvalid

/-- The executor is the only part of a plan that meets the host. -/
theorem executePlan_agree (event : Event) {plan : ActionPlan}
    (hplan : Configured config plan.action) {session : Session} (hs : GovernedBy config session) :
    executePlan (env.onHosts other) event plan session = executePlan env event plan session := by
  have hinv := governedBy_invariant env config
  have hexecute : ∀ session : Session, GovernedBy config session →
      Session.execute (env.onHosts other) (ledgerKey env event plan) plan.action event session =
        Session.execute env (ledgerKey env event plan) plan.action event session := by
    rintro session ⟨rfl, h⟩
    have hanswer := execute_agree (hagree session.executions) hplan
      (fun _ _ _ _ haction => hplan.pinned hvalid haction) event
    unfold Session.execute
    rw [h.executor_eq]
    exact congrArg (fun answer => (Except.ok answer, _)) hanswer
  symm
  have hmark : Keeps (GovernedBy config)
      (onJournal (modify (Journal.mark · [.planned (ledgerKey env event plan)]))) :=
    keeps_of_runtime governedBy_of_runtime
  refine hmark.bind_congr hs fun _ marked hmarked => ?_
  have hasks : Keeps (GovernedBy config)
      (onJournal (Journal.actionCompleted env (ledgerKey env event plan))) :=
    keeps_of_runtime governedBy_of_runtime
  refine hasks.bind_congr hmarked fun completed asked hasked => ?_
  cases completed with
  | true => rfl
  | false =>
      have hstart : Keeps (GovernedBy config) (onJournal
          (Journal.recordAction env (ledgerKey env event plan) .started none)) :=
        keeps_of_runtime governedBy_of_runtime
      refine hstart.bind_congr hasked fun _ started hstarted => ?_
      refine (hinv.keeps_append _ _ _ _).bind_congr hstarted fun _ announced hannounced => ?_
      exact bind_congr_left (concludePlan env (ledgerKey env event plan))
        (hexecute announced hannounced).symm

theorem processEvent_agree (host : Host) (event : Event) {session : Session}
    (hs : GovernedBy config session) :
    processEvent (env.onHosts other) host event session = processEvent env host event session := by
  have hinv := governedBy_invariant env config
  symm
  have hencode : Keeps (GovernedBy config)
      (ofExcept ((env.serde.event event).mapError Stop.failed)) :=
    fun session hs => wp_ofExcept (fun _ _ => hs) fun _ _ => hs
  refine hencode.bind_congr hs fun payload encoded hencoded => ?_
  refine (hinv.keeps_append _ _ _ _).bind_congr hencoded fun _ recorded hrecorded => ?_
  refine bind_congr_wp (fun plans t => GovernedBy config t ∧
    ∀ plan ∈ plans, Configured config plan.action) (E := fun _ _ => True) ?_ ?_
  · unfold wp handle
    cases hhandle : recorded.runtime.engine.handle host event with
    | none => trivial
    | some result =>
        obtain ⟨engine, plans⟩ := result
        obtain ⟨hrules, hrecovery, hsnapshot⟩ := PolicyEngine.handle_frame hhandle
        refine ⟨hinv.handled recorded engine hrecorded hrules hrecovery ?_, ?_⟩
        · rw [hsnapshot, SystemSnapshot.apply_mode]
        · intro plan hplan
          have hcases := handle_plan_cases hhandle hplan
          rw [hinv.rules_eq recorded hrecorded] at hcases
          exact hcases.imp_left fun ⟨rule, hrule, hmem⟩ => ⟨rule, mem_sortRules.mp hrule, hmem⟩
  · rintro plans planned ⟨hplanned, hplans⟩
    have hloop : forEach (executePlan env event) plans planned =
        forEach (executePlan (env.onHosts other) event) plans planned := by
      refine forEach_congr (I := GovernedBy config) ?_ ?_ hplanned
      · exact fun plan hplan => keeps_executePlan_governed hvalid event (hplans plan hplan)
      · intro plan hplan t ht
        exact (executePlan_agree hagree hvalid event (hplans plan hplan) ht).symm
    exact bind_congr_left (fun _ => pure plans.length) hloop

/-- Of the requests only a manual trigger reaches the executor. -/
theorem handleControl_agree (situation : Situation) (request : Request) {session : Session}
    (hs : GovernedBy config session) :
    handleControl (env.onHosts other) situation request session =
      handleControl env situation request session := by
  cases request with
  | trigger name =>
      have hresult : handleControlResult (env.onHosts other) situation (.trigger name) session =
          handleControlResult env situation (.trigger name) session :=
        bind_congr_left _ (processEvent_agree hagree hvalid _ _ hs)
      unfold handleControl
      rw [hresult]
  | status => rfl
  | rules => rfl
  | audit limit => rfl
  | reload => rfl
  | simulate event => rfl
  | setMode mode => rfl
  | recovery enabled => rfl
  | verifyAudit => rfl

end Agreement

/-! ## Runs of the daemon -/

theorem boot_governed {env : Environment} {situation : Situation} {maxRecords : ℕ}
    {verifyOnStart : Bool} {journal after : Journal} {runtime : Runtime}
    (h : Daemon.boot env situation maxRecords verifyOnStart journal = (.ok runtime, after)) :
    Governed runtime := by
  have hwp : wp (Daemon.boot env situation maxRecords verifyOnStart)
      (fun runtime _ => runtime.executor = executorFor runtime.config) (fun _ _ => True)
      journal := by
    refine wp_seq (fun _ _ => True) (wp_true _ _) fun config _ _ => ?_
    refine wp_seq (fun _ _ => True) (wp_true _ _) fun _ _ _ => ?_
    refine wp_seq (fun _ _ => True) (wp_true _ _) fun _ _ _ => ?_
    refine wp_seq (fun _ _ => True) (wp_true _ _) fun handles _ _ => ?_
    refine wp_seq (fun runtime _ => runtime.executor = executorFor runtime.config) ?_
      fun runtime _ hexecutor => wp_seq (fun _ _ => True) (wp_true _ _) fun _ _ _ => hexecutor
    refine wp_seq (fun _ _ => True) (wp_true _ _) fun _ _ _ => ?_
    exact wp_seq (fun _ _ => True) (wp_true _ _) fun _ _ _ => rfl
  have hheld := boot_modeHeld h
  exact ⟨hheld.validated, hheld.rules_eq,
    wp_of_ok (Q := fun runtime _ => runtime.executor = executorFor runtime.config) hwp h⟩

theorem reload_governed {env : Environment} {situation : Situation} {session : Session}
    (h : Governed session.runtime) : Governed (reload env situation session).2.runtime := by
  rcases reload_cases env situation session with ⟨stop, _, hreload⟩ |
    ⟨config, stop, journal, _, _, hreload⟩ | ⟨config, handles, journal, hload, hsensors, hreload⟩
  · rw [hreload]
    exact h
  · rw [hreload]
    exact h
  · rw [hreload]
    exact ⟨⟨_, validated_of_loadConfig hload⟩, rfl, rfl⟩

/-- The runtime of a daemon that is up is governed by its configuration. -/
def GovernedDaemon (daemon : Daemon) : Prop :=
  ∀ runtime, daemon.runtime = some runtime → Governed runtime

theorem step_governed {env : Environment} {daemon after : Daemon} {op : DaemonOp}
    (h : GovernedDaemon daemon) (hs : daemon.step env op = some after) : GovernedDaemon after := by
  intro next hnext
  cases op with
  | start situation maxRecords verifyOnStart =>
      rcases Daemon.step_start hs with ⟨runtime, journal, hboot, rfl⟩ | ⟨stop, journal, _, rfl⟩
      · cases hnext
        exact boot_governed hboot
      · cases hnext
  | event host event =>
      obtain ⟨runtime, hruntime, rfl⟩ := Option.map_eq_some_iff.mp hs
      obtain ⟨parseTime, hvalid⟩ := (h runtime hruntime).validated
      have hkeeps :=
        (governedBy_invariant env runtime.config).keeps_processEvent hvalid host event
      exact (Daemon.activate_session hkeeps ⟨rfl, h runtime hruntime⟩ hnext).2
  | control situation request =>
      obtain ⟨runtime, hruntime, rfl⟩ := Option.map_eq_some_iff.mp hs
      by_cases hreload : request = .reload
      · subst hreload
        have hafter := Daemon.activate_runtime hnext
        rw [handleControl_snd] at hafter
        have hsame : (handleControlResult env situation .reload
            { daemon.toJournal with runtime := runtime }).2 =
            (reload env situation { daemon.toJournal with runtime := runtime }).2 :=
          bind_pure_snd _ (fun _ => Response.success "configuration reloaded" none) _
        rw [hafter, hsame]
        exact reload_governed (h runtime hruntime)
      · obtain ⟨parseTime, hvalid⟩ := (h runtime hruntime).validated
        have hkeeps := (governedBy_invariant env runtime.config).keeps_control hvalid situation
          hreload
        exact (Daemon.activate_session hkeeps ⟨rfl, h runtime hruntime⟩ hnext).2
  | shutdown =>
      obtain ⟨runtime, _, rfl⟩ := Option.map_eq_some_iff.mp hs
      cases hnext
  | kill =>
      cases hs
      cases hnext

/-- The other hosts answer like the daemon's own within its active policy. -/
def WithinPolicy (env : Environment) (other : ℕ → Tools) (daemon : Daemon) : Prop :=
  ∀ runtime, daemon.runtime = some runtime →
    ∀ n, AgreeWithin runtime.config (env.tools n) (other n)

theorem step_agree {env : Environment} {other : ℕ → Tools} {daemon : Daemon} (op : DaemonOp)
    (hagree : WithinPolicy env other daemon) (h : GovernedDaemon daemon) :
    daemon.step (env.onHosts other) op = daemon.step env op := by
  cases op with
  | start situation maxRecords verifyOnStart => rfl
  | event host event =>
      cases hruntime : daemon.runtime with
      | none => simp only [Daemon.step, hruntime, Option.map_none]
      | some runtime =>
          obtain ⟨parseTime, hvalid⟩ := (h runtime hruntime).validated
          have hs : GovernedBy runtime.config { daemon.toJournal with runtime := runtime } :=
            ⟨rfl, h runtime hruntime⟩
          have hsame := processEvent_agree (hagree runtime hruntime) hvalid host event hs
          simp only [Daemon.step, hruntime, Option.map_some, Daemon.activate, hsame]
  | control situation request =>
      cases hruntime : daemon.runtime with
      | none => simp only [Daemon.step, hruntime, Option.map_none]
      | some runtime =>
          obtain ⟨parseTime, hvalid⟩ := (h runtime hruntime).validated
          have hs : GovernedBy runtime.config { daemon.toJournal with runtime := runtime } :=
            ⟨rfl, h runtime hruntime⟩
          have hsame := handleControl_agree (hagree runtime hruntime) hvalid situation request hs
          simp only [Daemon.step, hruntime, Option.map_some, Daemon.activate, hsame]
  | shutdown => rfl
  | kill => rfl

/-- A run of the daemon depends on the hosts only through what the active
configuration permits its actions to ask of them. -/
theorem tools_outside_policy_unused (env : Environment) (other : ℕ → Tools) (store : DaemonStore)
    (ops : List DaemonOp)
    (hagree : Execution.AllSteps (Daemon.step env) (fun daemon _ => WithinPolicy env other daemon)
      (Daemon.down store) ops) :
    Execution.run (Daemon.step (env.onHosts other)) (Daemon.down store) ops =
      Execution.run (Daemon.step env) (Daemon.down store) ops := by
  refine Execution.run_congr (P := GovernedDaemon) ?_ ?_ hagree ?_
  · exact fun daemon op after _ h hs => step_governed h hs
  · exact fun daemon op hagree h => step_agree op hagree h
  · intro runtime hnone
    cases hnone

/-- A host whose utilities all succeed. -/
def utilityTools : Tools :=
  { noTools with
    isFile := fun _ => true
    spawn := fun _ _ _ _ _ => .ok ⟨true, "", "", false⟩ }

/-- The same host, but for keys, signals, evidence and executables of its own. -/
def strangeTools : Tools :=
  { utilityTools with
    spawn := fun _ _ secret _ _ =>
      if secret.isSome then .error "key refused" else .ok ⟨true, "", "", false⟩
    readBytes := fun _ _ _ => .ok [1]
    terminateNamedProcesses := fun _ _ => .ok 9
    writeMetadata := fun _ destination _ => .ok destination
    verifyExecutableSecurity := fun _ => .ok ()
    verifySha256 := fun _ _ => .ok () }

def isolatingConfig : Config :=
  liveConfig [] [{ testRule (.manual "panic") with actions := [.networkIsolation true] }]

def isolatingEnv : Environment := { sampleEnv [] with tools := fun _ => utilityTools }

theorem strangeTools_agree : AgreeWithin isolatingConfig utilityTools strangeTools := by
  have hactions : ∀ action, Configured isolatingConfig action →
      action = .networkIsolation true ∨
        ∃ title message urgency, action = .notify title message urgency := by
    rintro action (⟨rule, hrule, hmem⟩ | halert)
    · rw [List.mem_singleton.mp hrule] at hmem
      exact Or.inl (List.mem_singleton.mp hmem)
    · exact Or.inr halert
  refine ⟨rfl, fun _ => ?_⟩
  constructor
  case isFile => rfl
  case elapsedMs => rfl
  case spawn =>
    intro action launch hconfigured hpermitted
    rcases hactions action hconfigured with rfl | ⟨title, message, urgency, rfl⟩
    · cases hpermitted
      rfl
    · cases hpermitted
      rfl
  case readBytes =>
    intro name keyctl serial hconfigured
    rcases hactions _ hconfigured with h | ⟨title, message, urgency, h⟩ <;> cases h
  case terminate =>
    intro process signal hconfigured
    rcases hactions _ hconfigured with h | ⟨title, message, urgency, h⟩ <;> cases h
  case writeMetadata =>
    intro paths destination event hconfigured
    rcases hactions _ hconfigured with h | ⟨title, message, urgency, h⟩ <;> cases h
  case verifyExecutableSecurity =>
    intro executable hlisted
    cases hlisted
  case verifySha256 =>
    intro executable expected hlisted
    cases hlisted

/-- A manual event isolates the network on either host. -/
theorem tools_outside_policy_unused_isolation :
    Execution.run (Daemon.step (isolatingEnv.onHosts fun _ => strangeTools))
        (Daemon.down emptyStore)
        [.start (sampleSituation isolatingConfig) 0 false, .event bareHost panicEvent] =
      Execution.run (Daemon.step isolatingEnv) (Daemon.down emptyStore)
        [.start (sampleSituation isolatingConfig) 0 false, .event bareHost panicEvent] ∧
    (Execution.run (Daemon.step isolatingEnv) (Daemon.down emptyStore)
      [.start (sampleSituation isolatingConfig) 0 false, .event bareHost panicEvent]).map
        (fun daemon => (daemon.executions, daemon.store.getState "network_isolated")) =
      some (1, some "true") := by
  refine ⟨tools_outside_policy_unused isolatingEnv _ emptyStore _ ?_, by decide +kernel⟩
  have hstarted : ∀ daemon runtime, Execution.run (Daemon.step isolatingEnv)
      (Daemon.down emptyStore) [.start (sampleSituation isolatingConfig) 0 false] = some daemon →
      daemon.runtime = some runtime → runtime.config = isolatingConfig := by
    intro daemon runtime hrun hruntime
    cases hrun
    cases hruntime
    rfl
  rintro (_ | _ | n) daemon op hvisit
  · obtain ⟨_, rfl⟩ := Execution.visits_cons_zero.mp hvisit
    intro runtime hnone
    cases hnone
  · intro runtime hruntime n
    rw [hstarted daemon runtime hvisit.2 hruntime]
    exact strangeTools_agree
  · cases hvisit.1

end Kovert
