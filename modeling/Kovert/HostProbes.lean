import Kovert.Foundations.Listings
import Kovert.MountTable
import Kovert.PortTables

/-!
# All probes of a host

The probes of `kovert-sensors/src/polling.rs` that ask a tool, and the one that
lists the processes. With the directories, the mount table and the socket tables
they make up what a poll cycle sees of its host, and a probe that depends on what
is required gives the same answer as the cycle takes.
-/

namespace Kovert

/-! ## Tools -/

/-- What a finished command has left, its output decoded by `from_utf8_lossy`. -/
structure ToolOutput where
  success : Bool
  stdout : String
  deriving DecidableEq, Repr

/-- The tools of the host: which files there are, and what a command does. -/
structure ToolHost where
  isFile : String → Bool
  run : String → List String → Except String ToolOutput

namespace ToolHost

def resolveTool (host : ToolHost) (name : String) : Except String String :=
  let candidates := ["/usr/bin", "/usr/sbin", "/bin", "/sbin"].map
    (fun directory => directory ++ "/" ++ name)
  match candidates.find? host.isFile with
  | some candidate => .ok candidate
  | none => .error ("required sensor tool is unavailable: " ++ name)

/-- `Command::output` with a context, and the check of the exit status. -/
def query (host : ToolHost) (tool : String) (args : List String) (context failure : String) :
    Except String String := do
  let output ← (host.run tool args).mapError (fun _ => context)
  if output.success then pure output.stdout else .error failure

end ToolHost

def nonEmpty (value : String) : Bool := !value.isEmpty

/-- The state that a line of `nmcli` reports, if its network is the active one. -/
def activeNetwork (line : String) : Option WifiState :=
  let fields := parseNmcliFields line
  if fields.head? = some "yes" then
    some ⟨true, fields[1]?.filter nonEmpty, fields[2]?.filter nonEmpty⟩
  else none

def probeWifi (host : ToolHost) : Except String WifiState := do
  let nmcli ← host.resolveTool "nmcli"
  let text ← host.query nmcli ["-t", "-f", "ACTIVE,SSID,BSSID", "device", "wifi"] "run nmcli"
    "nmcli failed"
  pure (((textLines text).findSome? activeNetwork).getD ⟨false, none, none⟩)

def showSession (id : String) : List String :=
  ["show-session", id, "--property=LockedHint", "--property=Remote", "--value"]

/-- The first session of the list stands for the login state. -/
def probeSession (host : ToolHost) : Except String SessionInfo := do
  let loginctl ← host.resolveTool "loginctl"
  let text ← host.query loginctl ["list-sessions", "--no-legend"] "list login sessions"
    "loginctl list-sessions failed"
  match (textLines text).head? with
  | none => pure ⟨.loggedOut, none, false⟩
  | some line =>
    let fields := splitWhitespace line
    match fields.head? with
    | none => .error "invalid loginctl output"
    | some id => do
      let properties ← host.query loginctl (showSession id) "query login session"
        "loginctl show-session failed"
      let values := textLines properties
      pure ⟨if values.head? = some "yes" then .locked else .unlocked, fields[2]?,
        decide (values[1]? = some "yes")⟩

/-- Only whether the command could be run matters here, and its exit status. -/
def queryService (host : ToolHost) (systemctl name : String) : Except String Bool :=
  ((host.run systemctl ["is-active", "--quiet", name]).mapError
    (fun _ => "query service " ++ name)).map ToolOutput.success

def probeServices (names : Finset String) (host : ToolHost) : Except String FlagMap := do
  let systemctl ← host.resolveTool "systemctl"
  (nameOrder names).foldlM (fun result name => do
    let active ← queryService host systemctl name
    pure (OrderedMap.insert id name active result)) []

/-! ## Processes -/

/-- An entry of `/proc`. -/
structure ProcessEntry where
  name : String
  comm : Contents
  deriving DecidableEq, Repr

namespace ProcessEntry

/-- `str::parse::<u32>` succeeds. -/
def isProcess (entry : ProcessEntry) : Bool :=
  let digits := match entry.name.toList with
    | '+' :: digits => digits
    | digits => digits
  !digits.isEmpty && digits.all Char.isDigit &&
    decide (digits.foldl (fun value ch => 10 * value + (ch.toNat - '0'.toNat)) 0 < 2 ^ 32)

def runs (entry : ProcessEntry) (name : String) : Bool :=
  entry.isProcess && trimmed (entry.comm.getD "") == name

/-- The loop body of `probe_processes`: the flag of the name, if it is asked for. -/
def scan (flags : FlagMap) (entry : ProcessEntry) : FlagMap :=
  if entry.isProcess then
    flags.map (fun flag =>
      if flag.1 = trimmed (entry.comm.getD "") then (flag.1, true) else flag)
  else flags

end ProcessEntry

def probeProcesses (names : Finset String) (directory : Directory ProcessEntry) :
    Except String FlagMap :=
  scanDirectory directory "read /proc" ProcessEntry.scan (flagMap names (fun _ => false))

/-! ## Probes that depend on what is required -/

/-- The names of which there is a process. -/
def runningNames (directory : Directory ProcessEntry) : Except String (String → Bool) :=
  scanDirectory directory "read /proc"
    (fun up entry name => up name || entry.runs name) (fun _ => false)

/-- The services that are active, of those that are asked for. -/
def activeServices (names : Finset String) (host : ToolHost) : Except String (String → Bool) := do
  let systemctl ← host.resolveTool "systemctl"
  (nameOrder names).foldlM (fun active name => do
    let up ← queryService host systemctl name
    pure (Function.update active name up)) (fun _ => false)

/-- An access point in range, as `nmcli` lists it. -/
structure AccessPoint where
  active : Bool
  ssid : String
  bssid : String

namespace AccessPoint

def fields (point : AccessPoint) : List String :=
  [if point.active then "yes" else "no", point.ssid, point.bssid]

def line (point : AccessPoint) : List Char :=
  (":".intercalate (point.fields.map escapeNmcliField)).toList

/-- The names are single lines. -/
structure WellFormed (point : AccessPoint) : Prop where
  ssid : '\n' ∉ point.ssid.toList
  bssid : '\n' ∉ point.bssid.toList
  ending : point.bssid.toList.getLast? ≠ some '\r'

variable {point : AccessPoint}

/-- The state while connected to this network. -/
def state (point : AccessPoint) : WifiState :=
  ⟨true, (some point.ssid).filter nonEmpty, (some point.bssid).filter nonEmpty⟩

end AccessPoint

/-- A session as `loginctl` lists it, in columns. -/
structure LoginSession where
  indents : ℕ × ℕ × ℕ
  id : String
  uid : String
  user : String
  rest : String

namespace LoginSession

def fields (session : LoginSession) : List (ℕ × List Char) :=
  [(session.indents.1, session.id.toList), (session.indents.2.1, session.uid.toList),
    (session.indents.2.2, session.user.toList)]

def line (session : LoginSession) : List Char := paddedLine session.fields session.rest.toList

structure WellFormed (session : LoginSession) : Prop where
  fields : ∀ field ∈ session.fields, Words.IsWord isWhitespace field.2
  newline : '\n' ∉ session.rest.toList
  ending : session.rest.toList.getLast? ≠ some '\r'

/-- What the probe makes of a session and the lines that are shown of it. -/
def info (session : LoginSession) (values : List String) : SessionInfo :=
  ⟨if values.head? = some "yes" then .locked else .unlocked, some session.user,
    decide (values[1]? = some "yes")⟩

end LoginSession

/-- The output of `loginctl list-sessions` for these sessions. -/
def sessionLines (sessions : List LoginSession) : String :=
  String.ofList (Words.unlines '\n' (sessions.map LoginSession.line))

/-- The login state is that of the first session listed, in whatever columns. -/
theorem session_read (host : ToolHost) (loginctl : String) (sessions : List LoginSession)
    (shown : String → String) (htool : host.resolveTool "loginctl" = .ok loginctl)
    (hlist : host.run loginctl ["list-sessions", "--no-legend"] = .ok ⟨true, sessionLines sessions⟩)
    (hshow : ∀ session ∈ sessions,
      host.run loginctl (showSession session.id) = .ok ⟨true, shown session.id⟩)
    (hsessions : ∀ session ∈ sessions, session.WellFormed) :
    probeSession host = .ok ((sessions.head?.map (fun session =>
      session.info (textLines (shown session.id)))).getD ⟨.loggedOut, none, false⟩) := by
  have hlines : textLines (sessionLines sessions) =
      sessions.map (fun session => String.ofList session.line) := by
    rw [sessionLines, textLines_unlines, List.map_map]
    · rfl
    · intro line hline
      obtain ⟨session, hsession, rfl⟩ := List.mem_map.mp hline
      exact newline_not_mem_paddedLine (hsessions session hsession).fields
        (hsessions session hsession).newline
    · intro line hline
      obtain ⟨session, hsession, rfl⟩ := List.mem_map.mp hline
      exact paddedLine_ending (List.cons_ne_nil _ _) (hsessions session hsession).ending
  have hquery : host.query loginctl ["list-sessions", "--no-legend"] "list login sessions"
      "loginctl list-sessions failed" = .ok (sessionLines sessions) := by
    rw [ToolHost.query, hlist]
    rfl
  unfold probeSession
  rw [htool]
  change (host.query loginctl _ _ _ >>= _) = _
  rw [hquery]
  change (match (textLines (sessionLines sessions)).head? with
    | none => _
    | some line => _) = _
  rw [hlines]
  cases sessions with
  | nil => rfl
  | cons session sessions =>
      obtain ⟨more, hwords⟩ : ∃ more, splitWhitespace (String.ofList session.line) =
          session.fields.map (fun field => String.ofList field.2) ++ more :=
        splitWhitespace_paddedLine _ (hsessions session List.mem_cons_self).fields
      have hproperties : host.query loginctl (showSession session.id) "query login session"
          "loginctl show-session failed" = .ok (shown session.id) := by
        rw [ToolHost.query, hshow session List.mem_cons_self]
        rfl
      change (match (splitWhitespace (String.ofList session.line)).head? with
        | none => _
        | some id => _) = _
      simp only [hwords, LoginSession.fields, List.map_cons, List.map_nil, List.cons_append,
        String.ofList_toList, List.head?_cons, hproperties]
      rfl

/-! ## The host of a poll cycle -/

/-- Everything that the probes of one cycle read. -/
structure PollHost where
  tools : ToolHost
  network : Directory NetworkEntry
  usb : Directory UsbEntry
  mountinfo : Contents
  processes : Directory ProcessEntry
  sockets : NetTables Contents
  supplies : Option (Directory PowerSupply)
  lid : Directory Contents
  configuration : Except String (List UInt8)
  binary : Except String (List UInt8)

namespace PollHost

/-- The call in front of `probe_value`. -/
def probe (host : PollHost) (requirements : SensorRequirements) :
    (sensor : Sensor) → Except String sensor.Value
  | .wifi => probeWifi host.tools
  | .network => probeNetwork host.network
  | .usb => probeUsb host.usb
  | .mounts => probeMounts host.mountinfo
  | .processes => probeProcesses requirements.processes host.processes
  | .services => probeServices requirements.services host.tools
  | .ports => probePorts requirements.ports host.sockets
  | .sessions => probeSession host.tools
  | .power => probePower host.supplies host.lid

/-- The answers that a cycle takes as given. -/
def probes (host : PollHost) (requirements : SensorRequirements) : Probes where
  wifi := probeWifi host.tools
  network := probeNetwork host.network
  usb := probeUsb host.usb
  mounts := probeMounts host.mountinfo
  processes := runningNames host.processes
  services := activeServices requirements.services host.tools
  ports := .ok (listeningPorts host.sockets)
  sessions := probeSession host.tools
  power := probePower host.supplies host.lid
  configuration := host.configuration
  binary := host.binary

end PollHost

end Kovert
