import Kovert.ControlSocket

/-!
# Exchanges over the control socket

Whatever the interleaving of connections, timeouts, sensor events and restarts,
the process behaves towards its store like a run of the daemon alone, a
connection's request is carried out at most once, and what a connection is sent
is either a refusal of its own bytes or the runtime's answer to its own request.
-/

namespace Kovert

open Session

/-! ## Steps of the system -/

namespace System

variable {env : Environment} {wire : WireFormat} {system next : System}

/-- A step of the daemon leaves the connections; the channels stay as long as the
runtime does, and are empty without it. -/
theorem advance_cases {op : DaemonOp} (h : system.advance env op = some next) :
    ∃ daemon, system.daemon.step env op = some daemon ∧
      ((daemon.runtime.isSome = true ∧
          next = { system with daemon := daemon, steps := system.steps ++ [op] }) ∨
        (daemon.runtime.isSome = false ∧
          next = { system with
            daemon := daemon
            steps := system.steps ++ [op]
            control := .empty controlBuffer
            events := .empty system.events.capacity })) := by
  obtain ⟨daemon, hdaemon, rfl⟩ := Option.map_eq_some_iff.mp h
  refine ⟨daemon, hdaemon, ?_⟩
  unfold hangUp
  split
  · next hruntime => exact Or.inl ⟨hruntime, rfl⟩
  · next hruntime => exact Or.inr ⟨Bool.eq_false_iff.mpr hruntime, rfl⟩

theorem step_start {situation : Situation} {maxRecords : ℕ} {verifyOnStart : Bool}
    (h : system.step env wire (.start situation maxRecords verifyOnStart) = some next) :
    system.alive = false ∧ ∃ middle,
      system.advance env (.start situation maxRecords verifyOnStart) = some middle ∧
        next = middle.openChannels := by
  simp only [step] at h
  split at h
  · cases h
  · next halive =>
    obtain ⟨middle, hmiddle, rfl⟩ := Option.map_eq_some_iff.mp h
    exact ⟨by simpa using halive, middle, hmiddle, rfl⟩

theorem step_connect {peerUid : ℕ} (h : system.step env wire (.connect peerUid) = some next) :
    system.alive = true ∧ ((system.permits = 0 ∧ next = system) ∨
      (0 < system.permits ∧ next = { system with
        permits := system.permits - 1
        clients := system.clients ++ [.connected peerUid] })) := by
  simp only [step] at h
  split at h
  · cases h
  · next halive =>
    refine ⟨by simpa using halive, ?_⟩
    split at h
    · next hnone => exact Or.inl ⟨hnone, (Option.some.inj h).symm⟩
    · next hsome => exact Or.inr ⟨Nat.pos_of_ne_zero hsome, (Option.some.inj h).symm⟩

theorem step_move {k : ℕ} {clientMove : ClientMove}
    (h : system.step env wire (.move k clientMove) = some next) :
    ∃ client after, system.clients[k]? = some client ∧
      client.move wire system.listening clientMove = some after ∧
      next = { system with
        clients := system.clients.set k after
        permits := if after.active then system.permits else system.permits + 1 } := by
  simp only [step, Option.bind_eq_bind, Option.bind_eq_some_iff] at h
  obtain ⟨client, hclient, after, hafter, hnext⟩ := h
  exact ⟨client, after, hclient, hafter, (Option.some.inj hnext).symm⟩

theorem step_enqueue {k : ℕ} (h : system.step env wire (.enqueue k) = some next) :
    ∃ client request control, system.clients[k]? = some client ∧
      client.stage = .sending request ∧ system.listening = true ∧
      system.control.post ⟨k, request⟩ = some control ∧
      next = { system with
        control := control
        clients := system.clients.set k { client with stage := .awaiting } } := by
  simp only [step, Option.bind_eq_bind, Option.bind_eq_some_iff] at h
  obtain ⟨client, hclient, h⟩ := h
  split at h
  · next request hstage =>
    split at h
    · next hlistening =>
      obtain ⟨control, hcontrol, rfl⟩ := Option.map_eq_some_iff.mp h
      exact ⟨client, request, control, hclient, hstage, hlistening, hcontrol, rfl⟩
    · cases h
  · cases h

/-- The state in which the runtime works on a message it has taken. -/
def received (env : Environment) (situation : Situation) (message : ControlMessage)
    (control : Mailbox ControlMessage) (runtime : Runtime) (system : System) : System :=
  let response := answer env situation message.request runtime system.daemon
  { system with
    control := control
    clients := system.clients.modify message.client (Client.respond response)
    exchanges := system.exchanges ++ [⟨message, situation, response, system.steps.length⟩] }

theorem step_serve {situation : Situation}
    (h : system.step env wire (.serve situation) = some next) :
    ∃ runtime message control, system.daemon.runtime = some runtime ∧
      system.control.take = some (message, control) ∧
      (system.received env situation message control runtime).advance env
        (.control situation message.request) = some next := by
  simp only [step, Option.bind_eq_bind, Option.bind_eq_some_iff] at h
  obtain ⟨runtime, hruntime, ⟨message, control⟩, htake, hnext⟩ := h
  exact ⟨runtime, message, control, hruntime, htake, hnext⟩

theorem step_handle {host : Host} (h : system.step env wire (.handle host) = some next) :
    ∃ event events, system.events.take = some (event, events) ∧
      advance env (.event host event) { system with events := events } = some next := by
  simp only [step, Option.bind_eq_bind, Option.bind_eq_some_iff] at h
  obtain ⟨⟨event, events⟩, htake, hnext⟩ := h
  exact ⟨event, events, htake, hnext⟩

/-- Sensors only touch the event channel. -/
theorem step_send {event : Event} (h : system.step env wire (.send event) = some next) :
    system.listening = true ∧ ∃ events, system.events.post event = some events ∧
      next = { system with events := events } := by
  simp only [step] at h
  split at h
  · next hlistening =>
    obtain ⟨events, hevents, rfl⟩ := Option.map_eq_some_iff.mp h
    exact ⟨hlistening, events, hevents, rfl⟩
  · cases h

theorem step_offer {event : Event} (h : system.step env wire (.offer event) = some next) :
    system.listening = true ∧
      next = { system with events := (system.events.post event).getD system.events } := by
  simp only [step] at h
  split at h
  · next hlistening => exact ⟨hlistening, (Option.some.inj h).symm⟩
  · cases h

theorem step_exit (h : system.step env wire .exit = some next) :
    system.alive = true ∧ ∃ middle, system.advance env .kill = some middle ∧
      next = { middle with alive := false, clients := middle.clients.map Client.lose } := by
  simp only [step] at h
  split at h
  · next halive =>
    obtain ⟨middle, hmiddle, rfl⟩ := Option.map_eq_some_iff.mp h
    exact ⟨halive, middle, hmiddle, rfl⟩
  · cases h

end System

/-! ## Messages and connections -/

namespace Client

variable {wire : WireFormat} {listening : Bool} {client next : Client}

/-- The connection has read bytes that hold this request. -/
def Accepted (wire : WireFormat) (client : Client) (request : Request) : Prop :=
  ∃ input, client.input = some input ∧ admission wire client.peerUid input = .accepted request

/-- The connection has read bytes that are answered with this response straight away. -/
def Refused (wire : WireFormat) (client : Client) (response : Response) : Prop :=
  ∃ input error, client.input = some input ∧
    admission wire client.peerUid input = .refused response error

/-- A connection reads, writes or ends. -/
theorem move_cases {clientMove : ClientMove}
    (h : client.move wire listening clientMove = some next) :
    (client.stage = .reading ∧ ∃ sent, next = client.receive wire sent) ∨
    (∃ response error result, client.stage = .writing response error ∧
      next = client.finish wire response error result) ∨
    (client.active = true ∧ ∃ ending, next = client.close ending) := by
  cases clientMove with
  | receive sent =>
      simp only [move] at h
      split at h
      · next hstage =>
        cases h
        exact Or.inr (Or.inr ⟨by rw [active, hstage], _, rfl⟩)
      · next bytes hstage =>
        cases h
        exact Or.inl ⟨hstage, bytes, rfl⟩
      · cases h
  | write result =>
      simp only [move] at h
      split at h
      · next response error hstage =>
        cases h
        exact Or.inr (Or.inl ⟨response, error, result, hstage, rfl⟩)
      · cases h
  | expire =>
      simp only [move] at h
      split at h
      · next hactive =>
        cases h
        exact Or.inr (Or.inr ⟨hactive, _, rfl⟩)
      · cases h
  | abandon =>
      simp only [move] at h
      split at h
      · next hstage =>
        cases h
        exact Or.inr (Or.inr ⟨by rw [active, hstage], _, rfl⟩)
      · next hstage =>
        cases h
        exact Or.inr (Or.inr ⟨by rw [active, hstage], _, rfl⟩)
      · cases h

/-- Writing ends the connection, with the response written in full or not at all. -/
theorem finish_cases (wire : WireFormat) (client : Client) (response : Response)
    (error : Option String) (result : Except String Unit) :
    (∃ ending, client.finish wire response error result = client.close ending) ∨
    (∃ ending body, wire.writeResponse response = .ok body ∧
      client.finish wire response error result =
        { client with output := some (body ++ [10]), stage := .closed ending }) := by
  unfold finish
  split
  · exact Or.inl ⟨_, rfl⟩
  · exact Or.inl ⟨_, rfl⟩
  · next body _ hbody => exact Or.inr ⟨_, body, hbody, rfl⟩

theorem active_of_move {clientMove : ClientMove}
    (h : client.move wire listening clientMove = some next) : client.active = true := by
  rcases move_cases h with ⟨hstage, _⟩ | ⟨_, _, _, hstage, _⟩ | ⟨hactive, _⟩
  · rw [active, hstage]
  · rw [active, hstage]
  · exact hactive

/-- The bytes behind a request that has been handed over do not change any more. -/
structure Continues (client next : Client) : Prop where
  peerUid : next.peerUid = client.peerUid
  preparing : client.preparing = false → next.preparing = false
  input : client.preparing = false → next.input = client.input

theorem Continues.accepted (h : Continues client next) (hpreparing : client.preparing = false)
    {request : Request} (haccepted : client.Accepted wire request) :
    next.Accepted wire request := by
  obtain ⟨input, hinput, hadmission⟩ := haccepted
  exact ⟨input, (h.input hpreparing).trans hinput, h.peerUid ▸ hadmission⟩

theorem continues_close (ending : Ending) : Continues client (client.close ending) :=
  ⟨rfl, fun _ => rfl, fun _ => rfl⟩

theorem continues_move {clientMove : ClientMove}
    (h : client.move wire listening clientMove = some next) : Continues client next := by
  rcases move_cases h with ⟨hstage, sent, rfl⟩ | ⟨response, error, result, _, rfl⟩ |
    ⟨_, ending, rfl⟩
  · have hpreparing : client.preparing = true := by rw [preparing, hstage]
    refine ⟨rfl, fun hnot => ?_, fun hnot => ?_⟩
    · rw [hpreparing] at hnot
      cases hnot
    · rw [hpreparing] at hnot
      cases hnot
  · rcases finish_cases wire client response error result with
      ⟨ending, heq⟩ | ⟨ending, body, _, heq⟩
    · rw [heq]
      exact continues_close ending
    · rw [heq]
      exact ⟨rfl, fun _ => rfl, fun _ => rfl⟩
  · exact continues_close ending

theorem continues_respond (response : Option Response) :
    Continues client (client.respond response) := by
  unfold respond
  split
  · exact ⟨rfl, fun _ => rfl, fun _ => rfl⟩
  · exact ⟨rfl, fun h => h, fun _ => rfl⟩

theorem continues_lose : Continues client client.lose := by
  unfold lose
  split
  · exact continues_close _
  · exact ⟨rfl, fun h => h, fun _ => rfl⟩

end Client

/-- The response is a refusal of the connection's own bytes, or the runtime's
answer to a message of this connection. -/
def Justified (wire : WireFormat) (exchanges : List Exchange) (k : ℕ) (client : Client)
    (response : Response) : Prop :=
  client.Refused wire response ∨
    ∃ exchange ∈ exchanges, exchange.client = k ∧ exchange.response = some response

/-- What the stage of a connection says about its bytes and its responses. -/
structure Client.Sound (wire : WireFormat) (exchanges : List Exchange) (k : ℕ)
    (client : Client) : Prop where
  fresh : client.stage = .reading → client.output = none
  sending : ∀ request, client.stage = .sending request → client.Accepted wire request
  writing : ∀ response error, client.stage = .writing response error →
    Justified wire exchanges k client response
  written : ∀ bytes, client.output = some bytes → ∃ response body,
    Justified wire exchanges k client response ∧ wire.writeResponse response = .ok body ∧
      bytes = body ++ [10]

namespace Client.Sound

variable {wire : WireFormat} {exchanges : List Exchange} {k : ℕ} {client : Client}

theorem grows (h : client.Sound wire exchanges k) (more : List Exchange) :
    client.Sound wire (exchanges ++ more) k := by
  have hjustified : ∀ response, Justified wire exchanges k client response →
      Justified wire (exchanges ++ more) k client response := by
    rintro response (hrefused | ⟨exchange, hmem, hexchange⟩)
    · exact Or.inl hrefused
    · exact Or.inr ⟨exchange, List.mem_append_left _ hmem, hexchange⟩
  refine ⟨h.fresh, h.sending, fun response error hstage =>
    hjustified response (h.writing response error hstage), fun bytes hbytes => ?_⟩
  obtain ⟨response, body, hresponse, hbody⟩ := h.written bytes hbytes
  exact ⟨response, body, hjustified response hresponse, hbody⟩

theorem connected (peerUid : ℕ) : (Client.connected peerUid).Sound wire exchanges k :=
  ⟨fun _ => rfl, fun _ h => (by cases h), fun _ _ h => (by cases h), fun _ h => (by cases h)⟩

theorem close (h : client.Sound wire exchanges k) (ending : Ending) :
    (client.close ending).Sound wire exchanges k :=
  ⟨fun hstage => (by cases hstage), fun _ hstage => (by cases hstage),
    fun _ _ hstage => (by cases hstage), h.written⟩

theorem lose (h : client.Sound wire exchanges k) : client.lose.Sound wire exchanges k := by
  unfold Client.lose
  split
  · exact h.close _
  · exact h

theorem receive (h : client.Sound wire exchanges k) (hstage : client.stage = .reading)
    (sent : List UInt8) : (client.receive wire sent).Sound wire exchanges k := by
  have hinput : (client.receive wire sent).input = some (sent.take (maxRequestSize + 1)) := rfl
  have houtput : (client.receive wire sent).output = none := h.fresh hstage
  cases hadmission : admission wire client.peerUid (sent.take (maxRequestSize + 1)) with
  | accepted request =>
      have hsending : (client.receive wire sent).stage = .sending request := by
        simp only [Client.receive, hadmission]
      refine ⟨fun hnext => ?_, fun other hnext => ?_, fun _ _ hnext => ?_, fun _ hbytes => ?_⟩
      · rw [hsending] at hnext
        cases hnext
      · rw [hsending] at hnext
        cases hnext
        exact ⟨_, hinput, hadmission⟩
      · rw [hsending] at hnext
        cases hnext
      · rw [houtput] at hbytes
        cases hbytes
  | refused response error =>
      have hwriting : (client.receive wire sent).stage = .writing response error := by
        simp only [Client.receive, hadmission]
      refine ⟨fun hnext => ?_, fun _ hnext => ?_, fun _ _ hnext => ?_, fun _ hbytes => ?_⟩
      · rw [hwriting] at hnext
        cases hnext
      · rw [hwriting] at hnext
        cases hnext
      · rw [hwriting] at hnext
        cases hnext
        exact Or.inl ⟨_, _, hinput, hadmission⟩
      · rw [houtput] at hbytes
        cases hbytes
  | failed message =>
      have hclosed : (client.receive wire sent).stage = .closed (.failed message) := by
        simp only [Client.receive, hadmission]
      refine ⟨fun hnext => ?_, fun _ hnext => ?_, fun _ _ hnext => ?_, fun _ hbytes => ?_⟩
      · rw [hclosed] at hnext
        cases hnext
      · rw [hclosed] at hnext
        cases hnext
      · rw [hclosed] at hnext
        cases hnext
      · rw [houtput] at hbytes
        cases hbytes

theorem finish (h : client.Sound wire exchanges k) {response : Response} {error : Option String}
    (hstage : client.stage = .writing response error) (result : Except String Unit) :
    (client.finish wire response error result).Sound wire exchanges k := by
  rcases Client.finish_cases wire client response error result with
    ⟨ending, heq⟩ | ⟨ending, body, hbody, heq⟩
  · rw [heq]
    exact h.close ending
  · rw [heq]
    refine ⟨fun hnext => (by cases hnext), fun _ hnext => (by cases hnext),
      fun _ _ hnext => (by cases hnext), fun bytes hbytes => ?_⟩
    exact ⟨response, body, h.writing response error hstage, hbody, (Option.some.inj hbytes).symm⟩

theorem move {listening : Bool} {clientMove : ClientMove} {next : Client}
    (h : client.Sound wire exchanges k)
    (hmove : client.move wire listening clientMove = some next) : next.Sound wire exchanges k := by
  rcases Client.move_cases hmove with ⟨hstage, sent, rfl⟩ | ⟨response, error, result, hstage, rfl⟩ |
    ⟨_, ending, rfl⟩
  · exact h.receive hstage sent
  · exact h.finish hstage result
  · exact h.close ending

/-- The runtime's answer reaches the connection whose message it took. -/
theorem respond (h : client.Sound wire exchanges k) {exchange : Exchange}
    (hmem : exchange ∈ exchanges) (hclient : exchange.client = k) :
    (client.respond exchange.response).Sound wire exchanges k := by
  unfold Client.respond
  split
  · next response hstage hresponse =>
    refine ⟨fun hnext => (by cases hnext), fun _ hnext => (by cases hnext),
      fun _ _ hnext => ?_, h.written⟩
    cases hnext
    exact Or.inr ⟨exchange, hmem, hclient, hresponse⟩
  · exact h

end Client.Sound

/-! ## The invariant of the messages -/

/-- The message holds what its connection has read. -/
def Handed (wire : WireFormat) (clients : List Client) (message : ControlMessage) : Prop :=
  ∃ client, clients[message.client]? = some client ∧ client.preparing = false ∧
    client.Accepted wire message.request

/-- `handed` lists the messages the runtime has taken or has still to take. -/
structure Messages (wire : WireFormat) (clients : List Client) (handed : List ControlMessage)
    (exchanges : List Exchange) : Prop where
  once : (handed.map ControlMessage.client).Nodup
  origin : ∀ message ∈ handed, Handed wire clients message
  sound : ∀ (k : ℕ) (client : Client), clients[k]? = some client → client.Sound wire exchanges k

namespace Messages

variable {wire : WireFormat} {clients : List Client} {handed : List ControlMessage}
  {exchanges : List Exchange}

theorem connect (h : Messages wire clients handed exchanges) (peerUid : ℕ) :
    Messages wire (clients ++ [.connected peerUid]) handed exchanges := by
  refine ⟨h.once, fun message hmem => ?_, fun k client hclient => ?_⟩
  · obtain ⟨client, hclient, hrest⟩ := h.origin message hmem
    refine ⟨client, ?_, hrest⟩
    rw [List.getElem?_append_left (List.getElem?_eq_some_iff.mp hclient).1]
    exact hclient
  · by_cases hlt : k < clients.length
    · rw [List.getElem?_append_left hlt] at hclient
      exact h.sound k client hclient
    · rw [List.getElem?_append_right (Nat.le_of_not_lt hlt)] at hclient
      obtain rfl : client = .connected peerUid := by
        simpa using List.mem_of_getElem? hclient
      exact .connected peerUid

/-- One connection changes. -/
theorem change (h : Messages wire clients handed exchanges) {k : ℕ} {client next : Client}
    (hclient : clients[k]? = some client) (hcontinues : client.Continues next)
    (hsound : next.Sound wire exchanges k) :
    Messages wire (clients.set k next) handed exchanges := by
  have hlt := (List.getElem?_eq_some_iff.mp hclient).1
  refine ⟨h.once, fun message hmem => ?_, fun j other hother => ?_⟩
  · obtain ⟨sender, hsender, hpreparing, haccepted⟩ := h.origin message hmem
    by_cases heq : k = message.client
    · subst heq
      obtain rfl : client = sender := Option.some.inj (hclient.symm.trans hsender)
      refine ⟨next, List.getElem?_set_self hlt, hcontinues.preparing hpreparing, ?_⟩
      exact hcontinues.accepted hpreparing haccepted
    · exact ⟨sender, by rw [List.getElem?_set_ne heq]; exact hsender, hpreparing, haccepted⟩
  · by_cases heq : k = j
    · subst heq
      rw [List.getElem?_set_self hlt] at hother
      cases hother
      exact hsound
    · rw [List.getElem?_set_ne heq] at hother
      exact h.sound j other hother

/-- A connection hands its request over. -/
theorem handOver (h : Messages wire clients handed exchanges) {k : ℕ} {client : Client}
    {request : Request} (hclient : clients[k]? = some client)
    (hstage : client.stage = .sending request) :
    Messages wire (clients.set k { client with stage := .awaiting }) (handed ++ [⟨k, request⟩])
      exchanges := by
  have hsound := h.sound k client hclient
  have hpreparing : client.preparing = true := by rw [Client.preparing, hstage]
  have hchanged : Messages wire (clients.set k { client with stage := .awaiting }) handed
      exchanges := by
    refine h.change hclient ⟨rfl, fun _ => rfl, fun _ => rfl⟩ ?_
    exact ⟨fun hnext => (by cases hnext), fun _ hnext => (by cases hnext),
      fun _ _ hnext => (by cases hnext), hsound.written⟩
  refine ⟨?_, fun message hmem => ?_, hchanged.sound⟩
  · rw [List.map_append, List.nodup_append]
    refine ⟨h.once, List.nodup_singleton _, ?_⟩
    intro j hj j' hj' heq
    obtain ⟨message, hmem, rfl⟩ := List.mem_map.mp hj
    obtain rfl : j' = k := by simpa using hj'
    -- a connection in this stage has no message on the way
    obtain ⟨sender, hsender, hsent, _⟩ := h.origin message hmem
    rw [heq, hclient] at hsender
    cases hsender
    rw [hpreparing] at hsent
    cases hsent
  · rcases List.mem_append.mp hmem with hmem | hmem
    · exact hchanged.origin message hmem
    · obtain rfl : message = ⟨k, request⟩ := List.mem_singleton.mp hmem
      have hlt := (List.getElem?_eq_some_iff.mp hclient).1
      exact ⟨_, List.getElem?_set_self hlt, rfl, hsound.sending request hstage⟩

/-- The runtime takes a message and answers it. -/
theorem exchange (h : Messages wire clients handed exchanges) (done : Exchange) :
    Messages wire (clients.modify done.client (Client.respond done.response)) handed
      (exchanges ++ [done]) := by
  have hgrown : Messages wire clients handed (exchanges ++ [done]) :=
    ⟨h.once, h.origin, fun k client hclient => (h.sound k client hclient).grows [done]⟩
  cases hclient : clients[done.client]? with
  | none =>
      rw [List.modify_eq_self (List.getElem?_eq_none_iff.mp hclient)]
      exact hgrown
  | some client =>
      rw [List.modify_eq_set_getElem?, hclient]
      refine hgrown.change hclient (Client.continues_respond _) ?_
      refine (hgrown.sound _ client hclient).respond ?_ rfl
      exact List.mem_append_right _ (List.mem_singleton_self done)

theorem drop (h : Messages wire clients handed exchanges) {less : List ControlMessage}
    (hless : less.Sublist handed) : Messages wire clients less exchanges :=
  ⟨h.once.sublist (hless.map _), fun message hmem => h.origin message (hless.subset hmem), h.sound⟩

theorem lose (h : Messages wire clients handed exchanges) :
    Messages wire (clients.map Client.lose) handed exchanges := by
  refine ⟨h.once, fun message hmem => ?_, fun k client hclient => ?_⟩
  · obtain ⟨client, hclient, hpreparing, haccepted⟩ := h.origin message hmem
    refine ⟨client.lose, by rw [List.getElem?_map, hclient]; rfl, ?_, ?_⟩
    · exact Client.continues_lose.preparing hpreparing
    · exact Client.continues_lose.accepted hpreparing haccepted
  · rw [List.getElem?_map] at hclient
    obtain ⟨before, hbefore, rfl⟩ := Option.map_eq_some_iff.mp hclient
    exact (h.sound k before hbefore).lose

end Messages

namespace System

variable {env : Environment} {wire : WireFormat} {system next : System}

/-- The messages handed over so far, but for those dropped with a process. -/
def handed (system : System) : List ControlMessage :=
  system.exchanges.map Exchange.toControlMessage ++ system.control.queue

def Tracked (wire : WireFormat) (system : System) : Prop :=
  Messages wire system.clients system.handed system.exchanges

theorem advance_tracked {op : DaemonOp} (h : system.Tracked wire)
    (hadvance : system.advance env op = some next) : next.Tracked wire := by
  obtain ⟨daemon, _, ⟨_, rfl⟩ | ⟨_, rfl⟩⟩ := advance_cases hadvance
  · exact h
  · exact h.drop (List.Sublist.append_left (List.nil_sublist _) _)

theorem openChannels_tracked (h : system.Tracked wire) : system.openChannels.Tracked wire := by
  unfold openChannels
  split
  · exact h
  · exact h.drop (List.Sublist.append_left (List.nil_sublist _) _)

theorem step_tracked {op : SystemOp} (h : system.Tracked wire)
    (hs : system.step env wire op = some next) : next.Tracked wire := by
  cases op with
  | start situation maxRecords verifyOnStart =>
      obtain ⟨_, middle, hmiddle, rfl⟩ := step_start hs
      exact openChannels_tracked (advance_tracked h hmiddle)
  | connect peerUid =>
      obtain ⟨_, ⟨_, rfl⟩ | ⟨_, rfl⟩⟩ := step_connect hs
      · exact h
      · exact h.connect peerUid
  | move k clientMove =>
      obtain ⟨client, after, hclient, hmove, rfl⟩ := step_move hs
      exact h.change hclient (Client.continues_move hmove) ((h.sound k client hclient).move hmove)
  | enqueue k =>
      obtain ⟨client, request, control, hclient, hstage, _, hpost, rfl⟩ := step_enqueue hs
      have hhanded := h.handOver hclient hstage
      obtain ⟨_, _, hqueue, _⟩ := Mailbox.post_eq_some hpost
      rw [Tracked, handed, hqueue, ← List.append_assoc]
      exact hhanded
  | serve situation =>
      obtain ⟨runtime, message, control, _, htake, hadvance⟩ := step_serve hs
      refine advance_tracked ?_ hadvance
      obtain ⟨_, hqueue, _⟩ := Mailbox.take_eq_some htake
      -- the message moves from the queue to the exchanges
      have hsame : (system.received env situation message control runtime).handed =
          system.handed := by
        rw [handed, handed, hqueue, received, List.map_append, List.append_assoc]
        rfl
      rw [Tracked, hsame]
      exact h.exchange ⟨message, situation, _, _⟩
  | send event =>
      obtain ⟨_, events, _, rfl⟩ := step_send hs
      exact h
  | offer event =>
      obtain ⟨_, rfl⟩ := step_offer hs
      exact h
  | handle host =>
      obtain ⟨event, events, _, hadvance⟩ := step_handle hs
      have hsame : ({ system with events := events } : System).Tracked wire := h
      exact advance_tracked hsame hadvance
  | shutdown => exact advance_tracked h hs
  | exit =>
      obtain ⟨_, middle, hmiddle, rfl⟩ := step_exit hs
      exact (advance_tracked h hmiddle).lose

theorem run_tracked {store : DaemonStore} {ops : List SystemOp}
    (hrun : Execution.run (step env wire) (initial store) ops = some system) :
    system.Tracked wire := by
  refine Execution.run_invariant (C := fun _ _ => True) (P := Tracked wire) ?_ ?_ hrun
    (fun _ _ _ _ => trivial)
  · exact ⟨List.nodup_nil, fun _ hmem => (by cases hmem), fun _ _ hclient => (by cases hclient)⟩
  · intro before op after _ h hs
    exact step_tracked h hs

/-! ## The daemon under the system -/

/-- The control requests among the daemon's steps, with their positions. -/
def controls (steps : List DaemonOp) : List (ℕ × Request) :=
  steps.zipIdx.filterMap (fun (op, n) =>
    match op with
    | .control _ request => some (n, request)
    | _ => none)

theorem controls_snoc (steps : List DaemonOp) (op : DaemonOp) :
    controls (steps ++ [op]) = controls steps ++
      (match op with
      | .control _ request => [(steps.length, request)]
      | _ => []) := by
  rw [controls, List.zipIdx_append, List.filterMap_append]
  cases op <;> simp [controls]

/-- The daemon answered the message of this exchange at its step `position`. -/
def AnsweredBy (env : Environment) (store : DaemonStore) (steps : List DaemonOp)
    (exchange : Exchange) : Prop :=
  ∃ before runtime, Execution.Visits (Daemon.step env) (Daemon.down store) steps
      exchange.position before (.control exchange.situation exchange.request) ∧
    before.runtime = some runtime ∧
    exchange.response = answer env exchange.situation exchange.request runtime before

/-- The history follows a run of the daemon, and its control requests are the exchanges. -/
structure Follows (env : Environment) (store : DaemonStore) (system : System) : Prop where
  run : Execution.run (Daemon.step env) (Daemon.down store) system.steps = some system.daemon
  controls_eq : controls system.steps =
    system.exchanges.map (fun exchange => (exchange.position, exchange.request))
  answered : ∀ exchange ∈ system.exchanges, AnsweredBy env store system.steps exchange

theorem AnsweredBy.snoc {store : DaemonStore} {steps : List DaemonOp} {exchange : Exchange}
    (h : AnsweredBy env store steps exchange) (op : DaemonOp) :
    AnsweredBy env store (steps ++ [op]) exchange := by
  obtain ⟨before, runtime, hvisits, hrest⟩ := h
  exact ⟨before, runtime, Execution.visits_snoc.mpr (Or.inl hvisits), hrest⟩

/-- A step of the daemon that is not a control request. -/
theorem Follows.advance {store : DaemonStore} {op : DaemonOp} (h : system.Follows env store)
    (hop : ∀ situation request, op ≠ .control situation request)
    (hadvance : system.advance env op = some next) : next.Follows env store := by
  obtain ⟨daemon, hdaemon, hnext⟩ := advance_cases hadvance
  have hsteps : next.daemon = daemon ∧ next.steps = system.steps ++ [op] ∧
      next.exchanges = system.exchanges := by
    rcases hnext with ⟨_, rfl⟩ | ⟨_, rfl⟩ <;> exact ⟨rfl, rfl, rfl⟩
  obtain ⟨rfl, hsteps, hexchanges⟩ := hsteps
  refine ⟨?_, ?_, ?_⟩
  · rw [hsteps, Execution.run_snoc_eq_some]
    exact ⟨system.daemon, h.run, hdaemon⟩
  · rw [hsteps, hexchanges, controls_snoc, h.controls_eq]
    cases op with
    | control situation request => exact absurd rfl (hop situation request)
    | _ => exact List.append_nil _
  · rw [hsteps, hexchanges]
    exact fun exchange hmem => (h.answered exchange hmem).snoc op

theorem Follows.serve {store : DaemonStore} {situation : Situation} {runtime : Runtime}
    {message : ControlMessage} {control : Mailbox ControlMessage} (h : system.Follows env store)
    (hruntime : system.daemon.runtime = some runtime)
    (hadvance : (system.received env situation message control runtime).advance env
      (.control situation message.request) = some next) : next.Follows env store := by
  obtain ⟨daemon, hdaemon, hnext⟩ := advance_cases hadvance
  let done : Exchange := ⟨message, situation,
    answer env situation message.request runtime system.daemon, system.steps.length⟩
  have hsteps : next.daemon = daemon ∧
      next.steps = system.steps ++ [.control situation message.request] ∧
      next.exchanges = system.exchanges ++ [done] := by
    rcases hnext with ⟨_, rfl⟩ | ⟨_, rfl⟩ <;> exact ⟨rfl, rfl, rfl⟩
  obtain ⟨rfl, hsteps, hexchanges⟩ := hsteps
  refine ⟨?_, ?_, ?_⟩
  · rw [hsteps, Execution.run_snoc_eq_some]
    exact ⟨system.daemon, h.run, hdaemon⟩
  · rw [hsteps, hexchanges, controls_snoc, h.controls_eq, List.map_append]
    rfl
  · rw [hsteps, hexchanges]
    intro exchange hmem
    rcases List.mem_append.mp hmem with hmem | hmem
    · exact (h.answered exchange hmem).snoc _
    · obtain rfl : exchange = done := List.mem_singleton.mp hmem
      refine ⟨system.daemon, runtime, ?_, hruntime, rfl⟩
      exact Execution.visits_snoc_last.mpr ⟨rfl, h.run⟩

theorem openChannels_follows {store : DaemonStore} (h : system.Follows env store) :
    system.openChannels.Follows env store := by
  unfold openChannels
  split
  · exact h
  · exact ⟨h.run, h.controls_eq, h.answered⟩

theorem step_follows {store : DaemonStore} {op : SystemOp} (h : system.Follows env store)
    (hs : system.step env wire op = some next) : next.Follows env store := by
  cases op with
  | start situation maxRecords verifyOnStart =>
      obtain ⟨_, middle, hmiddle, rfl⟩ := step_start hs
      exact openChannels_follows (h.advance (by intro _ _ heq; cases heq) hmiddle)
  | connect peerUid =>
      obtain ⟨_, ⟨_, rfl⟩ | ⟨_, rfl⟩⟩ := step_connect hs
      · exact h
      · exact ⟨h.run, h.controls_eq, h.answered⟩
  | move k clientMove =>
      obtain ⟨client, after, _, _, rfl⟩ := step_move hs
      exact ⟨h.run, h.controls_eq, h.answered⟩
  | enqueue k =>
      obtain ⟨client, request, control, _, _, _, _, rfl⟩ := step_enqueue hs
      exact ⟨h.run, h.controls_eq, h.answered⟩
  | serve situation =>
      obtain ⟨runtime, message, control, hruntime, _, hadvance⟩ := step_serve hs
      exact h.serve hruntime hadvance
  | send event =>
      obtain ⟨_, events, _, rfl⟩ := step_send hs
      exact ⟨h.run, h.controls_eq, h.answered⟩
  | offer event =>
      obtain ⟨_, rfl⟩ := step_offer hs
      exact ⟨h.run, h.controls_eq, h.answered⟩
  | handle host =>
      obtain ⟨event, events, _, hadvance⟩ := step_handle hs
      have hsame : ({ system with events := events } : System).Follows env store :=
        ⟨h.run, h.controls_eq, h.answered⟩
      exact hsame.advance (by intro _ _ heq; cases heq) hadvance
  | shutdown => exact h.advance (by intro _ _ heq; cases heq) hs
  | exit =>
      obtain ⟨_, middle, hmiddle, rfl⟩ := step_exit hs
      have hkilled := h.advance (by intro _ _ heq; cases heq) hmiddle
      exact ⟨hkilled.run, hkilled.controls_eq, hkilled.answered⟩

theorem run_follows {store : DaemonStore} {ops : List SystemOp}
    (hrun : Execution.run (step env wire) (initial store) ops = some system) :
    system.Follows env store := by
  refine Execution.run_invariant (C := fun _ _ => True) (P := Follows env store) ?_ ?_ hrun
    (fun _ _ _ _ => trivial)
  · exact ⟨rfl, rfl, fun _ hmem => (by cases hmem)⟩
  · intro before op after _ h hs
    exact step_follows h hs

end System

/-! ## Main results -/

/-- One byte for an envelope: its version, around a request to verify the chain. -/
def sampleWire : WireFormat where
  writeRequest := fun envelope => .ok [UInt8.ofNat envelope.version]
  readRequest := fun bytes =>
    match bytes with
    | [version] => .ok ⟨version.toNat, .verifyAudit⟩
    | _ => .error "EOF while parsing a value"
  writeResponse := fun response => .ok (utf8 response.message)
  readResponse := fun _ => .error "expected value"

/-- Two connections, of which the second speaks version 2. -/
def socketRun : List SystemOp :=
  [.start (sampleSituation (liveConfig [] [])) 0 false, .connect 1000, .connect 1001,
    .move 0 (.receive (.ok [1])), .move 1 (.receive (.ok [2])), .enqueue 0,
    .serve (sampleSituation (liveConfig [] [])), .move 1 (.write (.ok ())),
    .move 0 (.write (.ok ()))]

/-- Both connections get a response, and one request reaches the runtime. -/
theorem exists_socketRun : ∃ system,
    Execution.run (System.step (sampleEnv []) sampleWire) (.initial emptyStore) socketRun =
      some system ∧ system.exchanges.length = 1 ∧
      system.clients.map (fun client => client.output.isSome) = [true, true] := by
  have hrun : (Execution.run (System.step (sampleEnv []) sampleWire) (.initial emptyStore)
      socketRun).map (fun system => (system.exchanges.length,
        system.clients.map (fun client => client.output.isSome))) = some (1, [true, true]) := by
    decide +kernel
  obtain ⟨system, hsystem, hvalues⟩ := Option.map_eq_some_iff.mp hrun
  obtain ⟨hexchanges, houtputs⟩ := Prod.ext_iff.mp hvalues
  exact ⟨system, hsystem, hexchanges, houtputs⟩

/-- What `handle_connection` passes on is a complete envelope of the daemon's version. -/
theorem admission_accepted {wire : WireFormat} {peerUid : ℕ} {input : List UInt8} {request : Request}
    (h : admission wire peerUid input = .accepted request) :
    input.length ≤ maxRequestSize ∧ wire.readRequest input = .ok (.new request) := by
  unfold admission at h
  split at h
  · cases h
  · next hsize =>
    refine ⟨Nat.le_of_not_lt hsize, ?_⟩
    split at h
    · cases h
    · next envelope hread =>
      split at h
      · cases h
      · next hversion =>
        cases h
        rw [hread, RequestEnvelope.new, ← Decidable.not_not.mp hversion]

variable {env : Environment} {wire : WireFormat} {store : DaemonStore} {ops : List SystemOp}
  {system : System}

/-- The process is the daemon with requests: its history is a run of the daemon's
own steps, and the control requests among them are the messages taken from the
socket, each answered by the runtime as it was at that step. -/
theorem process_follows_daemon
    (hrun : Execution.run (System.step env wire) (.initial store) ops = some system) :
    Execution.run (Daemon.step env) (Daemon.down store) system.steps = some system.daemon ∧
      System.controls system.steps =
        system.exchanges.map (fun exchange => (exchange.position, exchange.request)) ∧
      ∀ exchange ∈ system.exchanges, System.AnsweredBy env store system.steps exchange := by
  have hfollows := System.run_follows hrun
  exact ⟨hfollows.run, hfollows.controls_eq, hfollows.answered⟩

theorem process_follows_daemon_sample : ∃ system,
    Execution.run (System.step (sampleEnv []) sampleWire) (.initial emptyStore) socketRun =
      some system ∧ system.exchanges.length = 1 ∧
      Execution.run (Daemon.step (sampleEnv [])) (Daemon.down emptyStore) system.steps =
        some system.daemon ∧
      System.controls system.steps =
        system.exchanges.map (fun exchange => (exchange.position, exchange.request)) ∧
      ∀ exchange ∈ system.exchanges,
        System.AnsweredBy (sampleEnv []) emptyStore system.steps exchange := by
  obtain ⟨system, hrun, hexchanges, _⟩ := exists_socketRun
  exact ⟨system, hrun, hexchanges, process_follows_daemon hrun⟩

/-- Only a complete request of version 1 that fits the limit reaches the runtime,
and no connection's request reaches it twice. -/
theorem request_taken_once
    (hrun : Execution.run (System.step env wire) (.initial store) ops = some system) :
    (system.exchanges.map (fun exchange => exchange.client)).Nodup ∧
      ∀ exchange ∈ system.exchanges, ∃ client input,
        system.clients[exchange.client]? = some client ∧ client.input = some input ∧
          input.length ≤ maxRequestSize ∧
          wire.readRequest input = .ok (.new exchange.request) := by
  have htracked := System.run_tracked hrun
  constructor
  · have hnodup := htracked.once
    rw [System.handed, List.map_append, List.map_map] at hnodup
    exact hnodup.of_append_left
  · intro exchange hmem
    have hhanded : exchange.toControlMessage ∈ system.handed :=
      List.mem_append_left _ (List.mem_map_of_mem hmem)
    obtain ⟨client, hclient, _, input, hinput, hadmission⟩ := htracked.origin _ hhanded
    exact ⟨client, input, hclient, hinput, admission_accepted hadmission⟩

theorem request_taken_once_sample : ∃ system,
    Execution.run (System.step (sampleEnv []) sampleWire) (.initial emptyStore) socketRun =
      some system ∧ system.exchanges.length = 1 ∧
      (system.exchanges.map (fun exchange => exchange.client)).Nodup ∧
      ∀ exchange ∈ system.exchanges, ∃ client input,
        system.clients[exchange.client]? = some client ∧ client.input = some input ∧
          input.length ≤ maxRequestSize ∧
          sampleWire.readRequest input = .ok (.new exchange.request) := by
  obtain ⟨system, hrun, hexchanges, _⟩ := exists_socketRun
  exact ⟨system, hrun, hexchanges, request_taken_once hrun⟩

/-- The only exchange of a connection. -/
theorem filter_exchanges (htracked : system.Tracked wire) {exchange : Exchange}
    (hmem : exchange ∈ system.exchanges) :
    system.exchanges.filter (fun other => other.client == exchange.client) = [exchange] := by
  have hnodup : (system.exchanges.map (fun other => other.client)).Nodup := by
    have honce := htracked.once
    rw [System.handed, List.map_append, List.map_map] at honce
    exact honce.of_append_left
  obtain ⟨before, rest, hsplit⟩ := List.append_of_mem hmem
  rw [hsplit, List.map_append, List.map_cons, List.nodup_append] at hnodup
  obtain ⟨_, hrest, hdisjoint⟩ := hnodup
  have hbefore : before.filter (fun other => other.client == exchange.client) = [] := by
    rw [List.filter_eq_nil_iff]
    intro other hother heq
    exact hdisjoint _ (List.mem_map_of_mem hother) _ List.mem_cons_self (by simpa using heq)
  have hafter : rest.filter (fun other => other.client == exchange.client) = [] := by
    rw [List.filter_eq_nil_iff]
    intro other hother heq
    refine (List.nodup_cons.mp hrest).1 ?_
    rw [← (show other.client = exchange.client by simpa using heq)]
    exact List.mem_map_of_mem (f := fun other : Exchange => other.client) hother
  rw [hsplit, List.filter_append, hbefore, List.filter_cons_of_pos (by simp), hafter]
  rfl

/-- A justified response is a refusal with nothing passed on, or it belongs to the
one message of the connection. -/
theorem justified_cases (htracked : system.Tracked wire) {k : ℕ} {client : Client}
    {response : Response} (hclient : system.clients[k]? = some client)
    (hjustified : Justified wire system.exchanges k client response) :
    (client.Refused wire response ∧ ∀ exchange ∈ system.exchanges, exchange.client ≠ k) ∨
      ∃ exchange ∈ system.exchanges, client.Accepted wire exchange.request ∧
        exchange.response = some response ∧
        system.exchanges.filter (fun other => other.client == k) = [exchange] := by
  -- a message of this connection holds the request in its bytes
  have horigin : ∀ exchange ∈ system.exchanges, exchange.client = k →
      client.Accepted wire exchange.request := by
    intro exchange hmem hk
    have hhanded : exchange.toControlMessage ∈ system.handed :=
      List.mem_append_left _ (List.mem_map_of_mem hmem)
    obtain ⟨sender, hsender, _, haccepted⟩ := htracked.origin _ hhanded
    rw [hk, hclient] at hsender
    cases hsender
    exact haccepted
  rcases hjustified with ⟨input, error, hinput, hadmission⟩ | ⟨exchange, hmem, hk, hresponse⟩
  · refine Or.inl ⟨⟨input, error, hinput, hadmission⟩, ?_⟩
    intro exchange hmem hk
    obtain ⟨other, hother, haccepted⟩ := horigin exchange hmem hk
    rw [hinput] at hother
    cases hother
    rw [hadmission] at haccepted
    cases haccepted
  · refine Or.inr ⟨exchange, hmem, horigin exchange hmem hk, hresponse, ?_⟩
    rw [← hk]
    exact filter_exchanges htracked hmem

/-- What a connection is sent in full is a refusal of its own bytes, with nothing
passed on, or what the runtime answered to its own request when it took it. -/
theorem response_answers_own_request
    (hrun : Execution.run (System.step env wire) (.initial store) ops = some system) {k : ℕ}
    {client : Client} {bytes : List UInt8} (hclient : system.clients[k]? = some client)
    (houtput : client.output = some bytes) :
    ∃ input response body, client.input = some input ∧ wire.writeResponse response = .ok body ∧
      bytes = body ++ [10] ∧
      ((∃ error, admission wire client.peerUid input = .refused response error ∧
          ∀ exchange ∈ system.exchanges, exchange.client ≠ k) ∨
        ∃ exchange, wire.readRequest input = .ok (.new exchange.request) ∧
          exchange.response = some response ∧
          System.AnsweredBy env store system.steps exchange ∧
          system.exchanges.filter (fun other => other.client == k) = [exchange]) := by
  have htracked := System.run_tracked hrun
  obtain ⟨response, body, hjustified, hbody, hbytes⟩ :=
    (htracked.sound k client hclient).written bytes houtput
  rcases justified_cases htracked hclient hjustified with
    ⟨⟨input, error, hinput, hadmission⟩, hnone⟩ |
    ⟨exchange, hmem, ⟨input, hinput, hadmission⟩, hresponse, honly⟩
  · exact ⟨input, response, body, hinput, hbody, hbytes, Or.inl ⟨error, hadmission, hnone⟩⟩
  · refine ⟨input, response, body, hinput, hbody, hbytes, Or.inr ⟨exchange, ?_, hresponse, ?_,
      honly⟩⟩
    · exact (admission_accepted hadmission).2
    · exact (System.run_follows hrun).answered exchange hmem

theorem response_answers_own_request_sample : ∃ system client bytes,
    Execution.run (System.step (sampleEnv []) sampleWire) (.initial emptyStore) socketRun =
      some system ∧ system.clients[0]? = some client ∧ client.output = some bytes ∧
      ∃ input response body, client.input = some input ∧
        sampleWire.writeResponse response = .ok body ∧ bytes = body ++ [10] ∧
        ((∃ error, admission sampleWire client.peerUid input = .refused response error ∧
            ∀ exchange ∈ system.exchanges, exchange.client ≠ 0) ∨
          ∃ exchange, sampleWire.readRequest input = .ok (.new exchange.request) ∧
            exchange.response = some response ∧
            System.AnsweredBy (sampleEnv []) emptyStore system.steps exchange ∧
            system.exchanges.filter (fun other => other.client == 0) = [exchange]) := by
  obtain ⟨system, hrun, _, houtputs⟩ := exists_socketRun
  have houtput : (system.clients[0]?).map (fun client => client.output.isSome) = some true := by
    rw [← List.getElem?_map, houtputs]
    rfl
  obtain ⟨client, hclient, hsome⟩ := Option.map_eq_some_iff.mp houtput
  obtain ⟨bytes, hbytes⟩ := Option.isSome_iff_exists.mp hsome
  exact ⟨system, client, bytes, hrun, hclient, hbytes,
    response_answers_own_request hrun hclient hbytes⟩

end Kovert
