import Kovert.HostTexts
import Kovert.Probing

/-!
# The socket tables

`probe_ports` of `kovert-sensors/src/polling.rs` against the writer of
`/proc/net/{tcp,tcp6,udp,udp6}`: a required port is open exactly when a readable
table of its protocol lists a socket on it, which for TCP has to listen. A table
that cannot be read is passed over, so the probe never fails.
-/

namespace Kovert

/-- `char::to_digit(16)`. -/
def hexValue (ch : Char) : Option ℕ :=
  if '0' ≤ ch ∧ ch ≤ '9' then some (ch.toNat - 48)
  else if 'a' ≤ ch ∧ ch ≤ 'f' then some (ch.toNat - 87)
  else if 'A' ≤ ch ∧ ch ≤ 'F' then some (ch.toNat - 55)
  else none

/-- One more digit, unless the number overflows. -/
def addHexDigit (value : ℕ) (ch : Char) : Option ℕ := do
  let digit ← hexValue ch
  if 16 * value + digit < 65536 then some (16 * value + digit) else none

/-- `u16::from_str_radix(text, 16)`. -/
def parseHexU16 (text : String) : Option UInt16 :=
  let digits := match text.toList with
    | '+' :: digits => digits
    | digits => digits
  if digits.isEmpty then none else (digits.foldlM addHexDigit 0).map UInt16.ofNat

/-- The port that a line of a table reports, if it is one that counts. -/
def portLine (protocol : NetworkProtocol) (line : String) : Option (NetworkProtocol × UInt16) := do
  let fields := splitWhitespace line
  let address ← fields[1]?
  let (_, port) ← rsplitOnce address ':'
  let port ← parseHexU16 port
  if protocol = .udp ∨ fields[3]? = some "0A" then some (protocol, port) else none

/-- The four tables, with the protocol of each. -/
structure NetTables (α : Type) where
  tcp : α
  tcp6 : α
  udp : α
  udp6 : α

namespace NetTables

def files {α : Type} (tables : NetTables α) : List (α × NetworkProtocol) :=
  [(tables.tcp, .tcp), (tables.tcp6, .tcp), (tables.udp, .udp), (tables.udp6, .udp)]

def map {α β : Type} (f : α → β) (tables : NetTables α) : NetTables β :=
  ⟨f tables.tcp, f tables.tcp6, f tables.udp, f tables.udp6⟩

end NetTables

/-- The inner loop body of `probe_ports`. -/
def scanPort (required : PortSet) (protocol : NetworkProtocol) (opened : PortSet) (line : String) :
    PortSet :=
  match portLine protocol line with
  | none => opened
  | some port => if port ∈ required then insert port opened else opened

/-- The outer loop body: a table that cannot be read is passed over. -/
def scanTable (required : PortSet) (opened : PortSet) (file : Contents × NetworkProtocol) :
    PortSet :=
  match file.1 with
  | none => opened
  | some text => ((textLines text).drop 1).foldl (scanPort required file.2) opened

def probePorts (required : PortSet) (tables : NetTables Contents) : Except String PortSet :=
  .ok (tables.files.foldl (scanTable required) ∅)

/-- The ports that the lines of a table report. -/
def tablePorts (file : Contents × NetworkProtocol) : List (NetworkProtocol × UInt16) :=
  (file.1.map fun text => (textLines text).drop 1).getD [] |>.filterMap (portLine file.2)

/-- Whatever is required, these ports count as open. -/
def listeningPorts (tables : NetTables Contents) : PortSet :=
  (tables.files.flatMap tablePorts).toFinset

def hexDigit (n : ℕ) : Char := if n < 10 then Char.ofNat (48 + n) else Char.ofNat (55 + n)

/-- `%04X`. -/
def hexPort (port : UInt16) : List Char :=
  [port.toNat / 4096, port.toNat / 256 % 16, port.toNat / 16 % 16, port.toNat % 16].map hexDigit

/-- `%02X`. -/
def hexByte (byte : UInt8) : List Char := [byte.toNat / 16, byte.toNat % 16].map hexDigit

/-- A socket as the kernel lists it: the local address in hexadecimal, then the
local port, the remote end, the state, and counters that the probe does not read. -/
structure SocketRecord where
  indent : ℕ
  slot : String
  localAddress : String
  localPort : UInt16
  remote : String
  state : UInt8
  rest : String

namespace SocketRecord

def fields (socket : SocketRecord) : List (ℕ × List Char) :=
  [(socket.indent, socket.slot.toList),
    (0, socket.localAddress.toList ++ ':' :: hexPort socket.localPort),
    (0, socket.remote.toList), (0, hexByte socket.state)]

def line (socket : SocketRecord) : List Char := paddedLine socket.fields socket.rest.toList

structure WellFormed (socket : SocketRecord) : Prop where
  slot : IsWord socket.slot
  localAddress : IsWord socket.localAddress
  remote : IsWord socket.remote
  newline : '\n' ∉ socket.rest.toList
  ending : socket.rest.toList.getLast? ≠ some '\r'

end SocketRecord

theorem hexDigit_isWhitespace : ∀ n < 16, isWhitespace (hexDigit n) = false := by decide +kernel

namespace SocketRecord

variable {socket : SocketRecord}

theorem hexPort_isWhitespace (port : UInt16) : ∀ ch ∈ hexPort port, isWhitespace ch = false := by
  have hlt : port.toNat < 65536 := port.toNat_lt
  intro ch hch
  obtain ⟨n, hn, rfl⟩ := List.mem_map.mp hch
  refine hexDigit_isWhitespace n ?_
  simp only [List.mem_cons, List.not_mem_nil, or_false] at hn
  omega

theorem WellFormed.fields (h : socket.WellFormed) :
    ∀ field ∈ socket.fields, Words.IsWord isWhitespace field.2 := by
  have hlt : socket.state.toNat < 256 := socket.state.toNat_lt
  intro field hfield
  simp only [SocketRecord.fields, List.mem_cons, List.not_mem_nil, or_false] at hfield
  rcases hfield with rfl | rfl | rfl | rfl
  · exact h.slot
  · refine ⟨by simp, fun ch hch => ?_⟩
    rcases List.mem_append.mp hch with haddress | hport
    · exact h.localAddress.2 ch haddress
    · rcases List.mem_cons.mp hport with rfl | hdigit
      · decide +kernel
      · exact hexPort_isWhitespace _ ch hdigit
  · exact h.remote
  · refine ⟨by simp [hexByte], fun ch hch => ?_⟩
    obtain ⟨n, hn, rfl⟩ := List.mem_map.mp hch
    refine hexDigit_isWhitespace n ?_
    simp only [List.mem_cons, List.not_mem_nil, or_false] at hn
    omega

end SocketRecord

end Kovert
