import Kovert.ControlExchange
import Kovert.Modes

/-!
# Limits and order on the control socket

At most `MAX_CLIENTS` connections are served at a time and none is turned away
below that number. The channels keep their order: a waiting client is answered
after at most as many control messages as the channel holds, and the runtime
handles the sensors' events one by one as they were sent.
-/

namespace Kovert

open Fallible Session

/-! ## Activity of connections -/

namespace Client

variable {wire : WireFormat} {client next : Client}

theorem active_respond (response : Option Response) :
    (client.respond response).active = client.active := by
  unfold respond
  split
  · next hstage => rw [active, active, hstage]
  · rfl

theorem active_lose (client : Client) : client.lose.active = false := by
  unfold lose
  split
  · rfl
  · next hactive => exact Bool.eq_false_iff.mpr hactive

end Client

theorem countP_modify_of_same {α : Type} {p : α → Bool} {f : α → α} (h : ∀ a, p (f a) = p a)
    (items : List α) (k : ℕ) : (items.modify k f).countP p = items.countP p := by
  induction items generalizing k with
  | nil => rw [List.modify_nil]
  | cons a items ih =>
      cases k with
      | zero => rw [List.modify_zero_cons, List.countP_cons, List.countP_cons, h]
      | succ k => rw [List.modify_succ_cons, List.countP_cons, List.countP_cons, ih]

/-- One active connection changes. -/
theorem countP_set_active {clients : List Client} {k : ℕ} {client : Client}
    (hclient : clients[k]? = some client) (hactive : client.active = true) (next : Client) :
    (clients.set k next).countP Client.active + 1 =
      clients.countP Client.active + (if next.active then 1 else 0) := by
  obtain ⟨hlt, hget⟩ := List.getElem?_eq_some_iff.mp hclient
  have hpos : 0 < clients.countP Client.active :=
    List.countP_pos_iff.mpr ⟨client, List.mem_of_getElem? hclient, hactive⟩
  rw [List.countP_set hlt, hget, if_pos hactive]
  omega

namespace System

variable {env : Environment} {wire : WireFormat} {system next : System}

def activeClients (system : System) : ℕ := system.clients.countP Client.active

/-! ## Permits and channels -/

/-- A process that is down has no runtime and no connection; in one that is up
every permit is free or held by a connection. -/
structure Bounded (system : System) : Prop where
  down : system.alive = false → system.listening = false ∧ system.activeClients = 0
  permits : system.alive = true → system.permits + system.activeClients = maxClients
  control : system.control.capacity = controlBuffer
  events : system.listening = true → 16 ≤ system.events.capacity

theorem Bounded.alive (h : system.Bounded) (hlistening : system.listening = true) :
    system.alive = true := by
  cases halive : system.alive with
  | true => rfl
  | false =>
      rw [(h.down halive).1] at hlistening
      cases hlistening

/-- A step of the daemon other than a start. -/
theorem Bounded.advance {op : DaemonOp} (h : system.Bounded)
    (hruntime : ∀ daemon, system.daemon.step env op = some daemon →
      daemon.runtime.isSome = true → system.listening = true)
    (hadvance : system.advance env op = some next) : next.Bounded := by
  obtain ⟨daemon, hdaemon, ⟨hup, rfl⟩ | ⟨hdown, rfl⟩⟩ := advance_cases hadvance
  · have hlistening := hruntime daemon hdaemon hup
    refine ⟨fun hdead => ?_, h.permits, h.control, fun _ => h.events hlistening⟩
    have halive := h.alive hlistening
    rw [halive] at hdead
    cases hdead
  · refine ⟨fun hdead => ⟨hdown, (h.down hdead).2⟩, h.permits, rfl, fun hup => ?_⟩
    rw [listening, hdown] at hup
    cases hup

theorem eventBuffer_of_validated {parseTime : String → Option ℕ} {config : Config}
    (hvalid : validateConfig parseTime config = .ok ()) : 16 ≤ config.daemon.eventBuffer := by
  have hdaemon := (validateConfig_eq_ok.mp hvalid).1
  simp only [daemonErrors, List.append_eq_nil_iff, report_eq_nil, decide_eq_false_iff_not] at hdaemon
  obtain ⟨⟨_, hbuffer⟩, _⟩ := hdaemon
  omega

/-- A runtime after a step other than a start was there before it. -/
theorem listening_of_step {daemon : Daemon} {op : DaemonOp}
    (hop : ∀ situation maxRecords verifyOnStart, op ≠ .start situation maxRecords verifyOnStart)
    (h : system.daemon.step env op = some daemon) (hup : daemon.runtime.isSome = true) :
    system.listening = true := by
  cases op with
  | start situation maxRecords verifyOnStart =>
      exact absurd rfl (hop situation maxRecords verifyOnStart)
  | event host event =>
      obtain ⟨runtime, hruntime, _⟩ := Option.map_eq_some_iff.mp h
      rw [listening, hruntime]
      rfl
  | control situation request =>
      obtain ⟨runtime, hruntime, _⟩ := Option.map_eq_some_iff.mp h
      rw [listening, hruntime]
      rfl
  | shutdown =>
      obtain ⟨runtime, hruntime, _⟩ := Option.map_eq_some_iff.mp h
      rw [listening, hruntime]
      rfl
  | kill =>
      cases h
      cases hup

theorem start_bounded {situation : Situation} {maxRecords : ℕ} {verifyOnStart : Bool}
    (h : system.Bounded) (halive : system.alive = false)
    (hadvance : system.advance env (.start situation maxRecords verifyOnStart) = some next) :
    next.openChannels.Bounded := by
  obtain ⟨daemon, hdaemon, ⟨hup, rfl⟩ | ⟨hdown, rfl⟩⟩ := advance_cases hadvance
  · obtain ⟨runtime, hruntime⟩ := Option.isSome_iff_exists.mp hup
    have hheld : ModeHeld runtime := by
      rcases Daemon.step_start hdaemon with ⟨booted, journal, hboot, rfl⟩ | ⟨stop, journal, _, rfl⟩
      · cases hruntime
        exact boot_modeHeld hboot
      · cases hruntime
    obtain ⟨parseTime, hvalid⟩ := hheld.validated
    simp only [openChannels, hruntime]
    refine ⟨fun hdead => (by cases hdead), fun _ => ?_, rfl, fun _ => ?_⟩
    · have hnone : system.clients.countP Client.active = 0 := (h.down halive).2
      simp only [activeClients, hnone, Nat.add_zero]
    · exact eventBuffer_of_validated hvalid
  · have hruntime : daemon.runtime = none := by simpa using hdown
    simp only [openChannels, hruntime]
    refine ⟨fun _ => ⟨hdown, (h.down halive).2⟩, fun hdead => ?_, rfl, fun hup => ?_⟩
    · rw [halive] at hdead
      cases hdead
    · rw [listening, hruntime] at hup
      cases hup

theorem step_bounded {op : SystemOp} (h : system.Bounded)
    (hs : system.step env wire op = some next) : next.Bounded := by
  cases op with
  | start situation maxRecords verifyOnStart =>
      obtain ⟨halive, middle, hmiddle, rfl⟩ := step_start hs
      exact start_bounded h halive hmiddle
  | connect peerUid =>
      obtain ⟨halive, ⟨_, rfl⟩ | ⟨hfree, rfl⟩⟩ := step_connect hs
      · exact h
      · refine ⟨fun hdead => ?_, fun _ => ?_, h.control, h.events⟩
        · rw [halive] at hdead
          cases hdead
        · have hpermits := h.permits halive
          simp only [activeClients, List.countP_append] at hpermits ⊢
          have hone : [Client.connected peerUid].countP Client.active = 1 := rfl
          omega
  | move k clientMove =>
      obtain ⟨client, after, hclient, hmove, rfl⟩ := step_move hs
      have hcount := countP_set_active hclient (Client.active_of_move hmove) after
      refine ⟨fun hdead => ?_, fun halive => ?_, h.control, h.events⟩
      · have hnone := (h.down hdead).2
        have hsome : 0 < system.clients.countP Client.active :=
          List.countP_pos_iff.mpr
            ⟨client, List.mem_of_getElem? hclient, Client.active_of_move hmove⟩
        rw [activeClients] at hnone
        omega
      · have hpermits := h.permits halive
        simp only [activeClients] at hpermits ⊢
        split
        · next hactive =>
          rw [if_pos hactive] at hcount
          omega
        · next hactive =>
          rw [if_neg hactive] at hcount
          omega
  | enqueue k =>
      obtain ⟨client, request, control, hclient, hstage, hlistening, hpost, rfl⟩ := step_enqueue hs
      have hactive : client.active = true := by rw [Client.active, hstage]
      have hcount := countP_set_active hclient hactive { client with stage := .awaiting }
      have halive := h.alive hlistening
      refine ⟨fun hdead => ?_, fun _ => ?_, ?_, h.events⟩
      · rw [halive] at hdead
        cases hdead
      · have hpermits := h.permits halive
        have hawaiting : ({ client with stage := .awaiting } : Client).active = true := rfl
        rw [if_pos hawaiting] at hcount
        simp only [activeClients] at hpermits ⊢
        omega
      · exact (Mailbox.post_eq_some hpost).2.1.trans h.control
  | serve situation =>
      obtain ⟨runtime, message, control, hruntime, htake, hadvance⟩ := step_serve hs
      have hlistening : system.listening = true := by
        rw [listening, hruntime]
        rfl
      have halive := h.alive hlistening
      have hreceived : (system.received env situation message control runtime).Bounded := by
        refine ⟨fun hdead => ?_, fun _ => ?_, ?_, h.events⟩
        · rw [received, halive] at hdead
          cases hdead
        · rw [activeClients, received, countP_modify_of_same fun _ => Client.active_respond _]
          exact h.permits halive
        · exact (Mailbox.take_eq_some htake).1.trans h.control
      exact hreceived.advance (fun _ _ _ => hlistening) hadvance
  | send event =>
      obtain ⟨hlistening, events, hpost, rfl⟩ := step_send hs
      refine ⟨h.down, h.permits, h.control, fun _ => ?_⟩
      rw [(Mailbox.post_eq_some hpost).2.1]
      exact h.events hlistening
  | offer event =>
      obtain ⟨hlistening, rfl⟩ := step_offer hs
      refine ⟨h.down, h.permits, h.control, fun _ => ?_⟩
      cases hpost : system.events.post event with
      | none => exact h.events hlistening
      | some events =>
          change 16 ≤ events.capacity
          rw [(Mailbox.post_eq_some hpost).2.1]
          exact h.events hlistening
  | handle host =>
      obtain ⟨event, events, htake, hadvance⟩ := step_handle hs
      have htaken : ({ system with events := events } : System).Bounded := by
        refine ⟨h.down, h.permits, h.control, fun hlistening => ?_⟩
        rw [(Mailbox.take_eq_some htake).1]
        exact h.events hlistening
      exact htaken.advance (fun _ hstep hup => listening_of_step (by simp) hstep hup)
        hadvance
  | shutdown =>
      exact h.advance (fun _ hstep hup => listening_of_step (by simp) hstep hup) hs
  | exit =>
      obtain ⟨halive, middle, hmiddle, rfl⟩ := step_exit hs
      have hkilled := h.advance
        (fun _ hstep hup => listening_of_step (by simp) hstep hup) hmiddle
      have hdown : middle.listening = false := by
        obtain ⟨daemon, hdaemon, ⟨hup, rfl⟩ | ⟨hdown, rfl⟩⟩ := advance_cases hmiddle
        · cases hdaemon
          cases hup
        · exact hdown
      refine ⟨fun _ => ⟨hdown, ?_⟩, fun hdead => (by cases hdead), hkilled.control, fun hup => ?_⟩
      · rw [activeClients, List.countP_map, List.countP_eq_zero]
        intro client _
        rw [Function.comp_apply, Client.active_lose]
        exact Bool.false_ne_true
      · have hup : middle.listening = true := hup
        rw [hdown] at hup
        cases hup

theorem initial_bounded (store : DaemonStore) : (initial store).Bounded :=
  ⟨fun _ => ⟨rfl, rfl⟩, fun hup => (by cases hup), rfl, fun hup => (by cases hup)⟩

theorem run_bounded {store : DaemonStore} {ops : List SystemOp}
    (hrun : Execution.run (step env wire) (initial store) ops = some system) :
    system.Bounded := by
  refine Execution.run_invariant (C := fun _ _ => True) (P := Bounded) (initial_bounded store) ?_
    hrun (fun _ _ _ _ => trivial)
  intro before op after _ h hs
  exact step_bounded h hs

/-! ## Waiting for the runtime -/

/-- While the runtime is up, the message of a waiting connection is in the channel. -/
def Attended (system : System) : Prop :=
  system.listening = true → ∀ (k : ℕ) (client : Client), system.clients[k]? = some client →
    client.stage = .awaiting → ∃ message ∈ system.control.queue, message.client = k

theorem Attended.advance {op : DaemonOp} (h : system.Attended)
    (hop : ∀ situation maxRecords verifyOnStart, op ≠ .start situation maxRecords verifyOnStart)
    (hadvance : system.advance env op = some next) : next.Attended := by
  obtain ⟨daemon, hdaemon, ⟨hup, rfl⟩ | ⟨hdown, rfl⟩⟩ := advance_cases hadvance
  · exact fun _ => h (listening_of_step hop hdaemon hup)
  · intro hlistening
    rw [listening, hdown] at hlistening
    cases hlistening

/-- A request that does not bring the daemon down is answered. -/
theorem exists_answer {situation : Situation} {request : Request} {runtime : Runtime}
    {before after : Daemon} (hruntime : before.runtime = some runtime)
    (hstep : before.step env (.control situation request) = some after)
    (hup : after.runtime.isSome = true) :
    ∃ response, answer env situation request runtime before = some response := by
  simp only [Daemon.step, hruntime, Option.map_some, Option.some.injEq] at hstep
  subst hstep
  unfold Daemon.activate at hup
  unfold answer
  cases hresult : handleControl env situation request
      { before.toJournal with runtime := runtime } with
  | mk result session =>
      rw [hresult] at hup
      cases result with
      | ok response => exact ⟨response, rfl⟩
      | error stop =>
          cases stop with
          | crashed => cases hup
          | failed message =>
              -- an error has become a response by now
              unfold handleControl at hresult
              split at hresult
              · cases hresult
              · next hother =>
                exact absurd hresult (hother message session)

/-- `later` is the same process some steps on, in which `n` control messages have
been taken and answered. -/
def Onward (system later : System) (n : ℕ) : Prop :=
  later.listening = true → ∃ new : List Exchange, new.length = n ∧
    later.exchanges = system.exchanges ++ new ∧
    (∀ exchange ∈ new, ∃ response, exchange.response = some response) ∧
    system.control.Later later.control ∧
    later.control.taken = system.control.taken ++ new.map Exchange.toControlMessage

/-- A step that leaves the exchanges, and posts at most one message. -/
theorem Onward.idle {first : System} {n : ℕ} (h : first.Onward system n)
    (hbefore : next.listening = true → system.listening = true)
    (hexchanges : next.exchanges = system.exchanges)
    (hcontrol : next.listening = true → system.control.Later next.control ∧
      next.control.taken = system.control.taken) : first.Onward next n := by
  intro hlistening
  obtain ⟨new, hlength, hnew, hanswered, hlater, htaken⟩ := h (hbefore hlistening)
  obtain ⟨hstep, hsame⟩ := hcontrol hlistening
  exact ⟨new, hlength, hexchanges.trans hnew, hanswered, hlater.trans hstep, hsame.trans htaken⟩

theorem Onward.advance {first : System} {n : ℕ} {op : DaemonOp} (h : first.Onward system n)
    (hop : ∀ situation maxRecords verifyOnStart, op ≠ .start situation maxRecords verifyOnStart)
    (hadvance : system.advance env op = some next) : first.Onward next n := by
  obtain ⟨daemon, hdaemon, ⟨hup, rfl⟩ | ⟨hdown, rfl⟩⟩ := advance_cases hadvance
  · exact h.idle (fun _ => listening_of_step hop hdaemon hup) rfl fun _ => ⟨.refl _, rfl⟩
  · intro hlistening
    rw [listening, hdown] at hlistening
    cases hlistening

theorem Onward.serve {first : System} {n : ℕ} {situation : Situation}
    (h : first.Onward system n) (hs : system.step env wire (.serve situation) = some next) :
    first.Onward next (n + 1) := by
  obtain ⟨runtime, message, control, hruntime, htake, hadvance⟩ := step_serve hs
  have hlistening : system.listening = true := by
    rw [listening, hruntime]
    rfl
  obtain ⟨new, hlength, hnew, hanswered, hlater, htaken⟩ := h hlistening
  obtain ⟨daemon, hdaemon, ⟨hup, rfl⟩ | ⟨hdown, rfl⟩⟩ := advance_cases hadvance
  · obtain ⟨response, hanswer⟩ := exists_answer hruntime hdaemon hup
    let done : Exchange := ⟨message, situation,
      answer env situation message.request runtime system.daemon, system.steps.length⟩
    intro _
    refine ⟨new ++ [done], ?_, ?_, ?_, hlater.trans (Mailbox.later_of_take htake), ?_⟩
    · rw [List.length_append, hlength]
      rfl
    · rw [← List.append_assoc, ← hnew]
      rfl
    · intro exchange hmem
      rcases List.mem_append.mp hmem with hmem | hmem
      · exact hanswered exchange hmem
      · obtain rfl : exchange = done := List.mem_singleton.mp hmem
        exact ⟨response, hanswer⟩
    · rw [List.map_append, ← List.append_assoc, ← htaken]
      exact (Mailbox.take_eq_some htake).2.2.2
  · intro hup
    rw [listening, hdown] at hup
    cases hup

/-- The step takes a control message. -/
def serves : SystemOp → Bool
  | .serve _ => true
  | _ => false

theorem Onward.step {first : System} {n : ℕ} {op : SystemOp} (h : first.Onward system n)
    (hlistening : system.listening = true) (hs : system.step env wire op = some next) :
    first.Onward next (n + if serves op then 1 else 0) := by
  cases op with
  | serve situation => exact h.serve hs
  | start situation maxRecords verifyOnStart =>
      obtain ⟨_, middle, hmiddle, _⟩ := step_start hs
      obtain ⟨daemon, hdaemon, _⟩ := advance_cases hmiddle
      obtain ⟨runtime, hruntime⟩ := Option.isSome_iff_exists.mp hlistening
      simp only [Daemon.step, hruntime] at hdaemon
      cases hdaemon
  | connect peerUid =>
      obtain ⟨_, ⟨_, rfl⟩ | ⟨_, rfl⟩⟩ := step_connect hs
      · exact h
      · exact h.idle (fun h => h) rfl fun _ => ⟨.refl _, rfl⟩
  | move k clientMove =>
      obtain ⟨client, after, _, _, rfl⟩ := step_move hs
      exact h.idle (fun h => h) rfl fun _ => ⟨.refl _, rfl⟩
  | enqueue k =>
      obtain ⟨client, request, control, _, _, _, hpost, rfl⟩ := step_enqueue hs
      refine h.idle (fun h => h) rfl fun _ => ⟨Mailbox.later_of_post hpost, ?_⟩
      exact (Mailbox.post_eq_some hpost).2.2.2.2
  | send event =>
      obtain ⟨_, events, _, rfl⟩ := step_send hs
      exact h.idle (fun h => h) rfl fun _ => ⟨.refl _, rfl⟩
  | offer event =>
      obtain ⟨_, rfl⟩ := step_offer hs
      exact h.idle (fun h => h) rfl fun _ => ⟨.refl _, rfl⟩
  | handle host =>
      obtain ⟨event, events, _, hadvance⟩ := step_handle hs
      have hsame : first.Onward { system with events := events } n :=
        h.idle (fun h => h) rfl fun _ => ⟨.refl _, rfl⟩
      exact hsame.advance (by simp) hadvance
  | shutdown => exact h.advance (by simp) hs
  | exit =>
      obtain ⟨_, middle, hmiddle, rfl⟩ := step_exit hs
      have hkilled := h.advance (by simp) hmiddle
      exact hkilled.idle (fun h => h) rfl fun _ => ⟨.refl _, rfl⟩

/-- The events handled since the last start, one step of the daemon later. -/
def afterStep (events : List Event) : DaemonOp → List Event
  | .start .. => []
  | .event _ event => events ++ [event]
  | _ => events

def handledEvents (steps : List DaemonOp) : List Event := steps.foldl afterStep []

/-- What the sensors have sent since the last start, with or without what they
only offered. -/
def afterOp (offers : Bool) (events : List Event) : SystemOp → List Event
  | .start .. => []
  | .send event => events ++ [event]
  | .offer event => if offers then events ++ [event] else events
  | _ => events

def sentEvents (offers : Bool) (ops : List SystemOp) : List Event := ops.foldl (afterOp offers) []

theorem handledEvents_snoc (steps : List DaemonOp) (op : DaemonOp) :
    handledEvents (steps ++ [op]) = afterStep (handledEvents steps) op := by
  rw [handledEvents, List.foldl_append]
  rfl

theorem sentEvents_snoc (offers : Bool) (ops : List SystemOp) (op : SystemOp) :
    sentEvents offers (ops ++ [op]) = afterOp offers (sentEvents offers ops) op := by
  rw [sentEvents, List.foldl_append]
  rfl

/-- The event channel of a process that is up: it has received what was sent, and
some of what was offered, and the runtime has handled what it gave away. -/
structure Streams (ops : List SystemOp) (system : System) : Prop where
  sent : (sentEvents false ops).Sublist system.events.posted
  offered : system.events.posted.Sublist (sentEvents true ops)
  handled : handledEvents system.steps = system.events.taken

theorem Streams.advance {ops : List SystemOp} {op : SystemOp} {step : DaemonOp}
    (h : system.listening = true → system.Streams ops)
    (hop : ∀ offers, sentEvents offers (ops ++ [op]) = sentEvents offers ops)
    (hstart : ∀ situation maxRecords verifyOnStart,
      step ≠ .start situation maxRecords verifyOnStart)
    (hevent : ∀ host event, step ≠ .event host event)
    (hadvance : system.advance env step = some next) (hup : next.listening = true) :
    next.Streams (ops ++ [op]) := by
  obtain ⟨daemon, hdaemon, ⟨hdaemonUp, rfl⟩ | ⟨hdown, rfl⟩⟩ := advance_cases hadvance
  · obtain ⟨hsent, hoffered, hhandled⟩ := h (listening_of_step hstart hdaemon hdaemonUp)
    refine ⟨?_, ?_, ?_⟩
    · rw [hop]
      exact hsent
    · rw [hop]
      exact hoffered
    · rw [handledEvents_snoc]
      cases step with
      | start situation maxRecords verifyOnStart =>
          exact absurd rfl (hstart situation maxRecords verifyOnStart)
      | event host event => exact absurd rfl (hevent host event)
      | _ => exact hhandled
  · rw [listening, hdown] at hup
    cases hup

theorem step_streams {ops : List SystemOp} {op : SystemOp}
    (h : system.listening = true → system.Streams ops)
    (hs : system.step env wire op = some next) (hup : next.listening = true) :
    next.Streams (ops ++ [op]) := by
  have hsnoc := fun offers => sentEvents_snoc offers ops op
  cases op with
  | start situation maxRecords verifyOnStart =>
      obtain ⟨_, middle, hmiddle, rfl⟩ := step_start hs
      have hsteps : middle.openChannels.steps =
          system.steps ++ [.start situation maxRecords verifyOnStart] := by
        obtain ⟨daemon, _, ⟨_, rfl⟩ | ⟨_, rfl⟩⟩ := advance_cases hmiddle <;>
        · unfold openChannels
          split <;> rfl
      have hevents : middle.openChannels.events.posted = [] ∧
          middle.openChannels.events.taken = [] := by
        unfold openChannels at hup ⊢
        split at hup
        · next hnone =>
          rw [listening, hnone] at hup
          cases hup
        · exact ⟨rfl, rfl⟩
      refine ⟨?_, ?_, ?_⟩
      · rw [hsnoc]
        exact List.nil_sublist _
      · rw [hevents.1]
        exact List.nil_sublist _
      · rw [hevents.2, hsteps, handledEvents_snoc]
        rfl
  | connect peerUid =>
      have hsame : next.events = system.events ∧ next.steps = system.steps ∧
          next.daemon = system.daemon := by
        obtain ⟨_, ⟨_, rfl⟩ | ⟨_, rfl⟩⟩ := step_connect hs <;> exact ⟨rfl, rfl, rfl⟩
      obtain ⟨hevents, hsteps, hdaemon⟩ := hsame
      obtain ⟨hsent, hoffered, hhandled⟩ := h (by rw [listening, ← hdaemon]; exact hup)
      rw [← hevents] at hsent hoffered hhandled
      exact ⟨by rw [hsnoc]; exact hsent, by rw [hsnoc]; exact hoffered, hsteps ▸ hhandled⟩
  | move k clientMove =>
      obtain ⟨client, after, _, _, rfl⟩ := step_move hs
      obtain ⟨hsent, hoffered, hhandled⟩ := h hup
      exact ⟨by rw [hsnoc]; exact hsent, by rw [hsnoc]; exact hoffered, hhandled⟩
  | enqueue k =>
      obtain ⟨client, request, control, _, _, _, _, rfl⟩ := step_enqueue hs
      obtain ⟨hsent, hoffered, hhandled⟩ := h hup
      exact ⟨by rw [hsnoc]; exact hsent, by rw [hsnoc]; exact hoffered, hhandled⟩
  | serve situation =>
      obtain ⟨runtime, message, control, _, _, hadvance⟩ := step_serve hs
      have hreceived : (system.received env situation message control runtime).listening = true →
          (system.received env situation message control runtime).Streams ops := by
        intro hlistening
        obtain ⟨hsent, hoffered, hhandled⟩ := h hlistening
        exact ⟨hsent, hoffered, hhandled⟩
      exact Streams.advance hreceived hsnoc (by simp) (by simp) hadvance hup
  | send event =>
      obtain ⟨hlistening, events, hpost, rfl⟩ := step_send hs
      obtain ⟨hsent, hoffered, hhandled⟩ := h hlistening
      obtain ⟨_, _, _, hposted, htaken⟩ := Mailbox.post_eq_some hpost
      refine ⟨?_, ?_, hhandled.trans htaken.symm⟩
      · rw [hsnoc, hposted]
        exact hsent.append (List.Sublist.refl _)
      · rw [hsnoc, hposted]
        exact hoffered.append (List.Sublist.refl _)
  | offer event =>
      obtain ⟨hlistening, rfl⟩ := step_offer hs
      obtain ⟨hsent, hoffered, hhandled⟩ := h hlistening
      cases hpost : system.events.post event with
      | none =>
          refine ⟨?_, ?_, hhandled⟩
          · rw [hsnoc]
            exact hsent
          · rw [hsnoc]
            exact hoffered.trans (List.sublist_append_left _ _)
      | some events =>
          obtain ⟨_, _, _, hposted, htaken⟩ := Mailbox.post_eq_some hpost
          refine ⟨?_, ?_, hhandled.trans htaken.symm⟩
          · rw [hsnoc, Option.getD_some, hposted]
            exact hsent.trans (List.sublist_append_left _ _)
          · rw [hsnoc, Option.getD_some, hposted]
            exact hoffered.append (List.Sublist.refl _)
  | handle host =>
      obtain ⟨event, events, htake, hadvance⟩ := step_handle hs
      obtain ⟨_, _, hposted, htaken⟩ := Mailbox.take_eq_some htake
      obtain ⟨daemon, hdaemon, ⟨hdaemonUp, rfl⟩ | ⟨hdown, rfl⟩⟩ := advance_cases hadvance
      · obtain ⟨hsent, hoffered, hhandled⟩ :=
          h (listening_of_step (by simp) hdaemon hdaemonUp)
        refine ⟨?_, ?_, ?_⟩
        · rw [hsnoc, hposted]
          exact hsent
        · rw [hsnoc, hposted]
          exact hoffered
        · rw [htaken, ← hhandled, handledEvents_snoc]
          rfl
      · rw [listening, hdown] at hup
        cases hup
  | shutdown => exact Streams.advance h hsnoc (by simp) (by simp) hs hup
  | exit =>
      obtain ⟨_, middle, hmiddle, rfl⟩ := step_exit hs
      obtain ⟨hsent, hoffered, hhandled⟩ :=
        Streams.advance h hsnoc (by simp) (by simp) hmiddle hup
      exact ⟨hsent, hoffered, hhandled⟩

theorem run_streams {store : DaemonStore} {ops : List SystemOp}
    (hrun : Execution.run (step env wire) (initial store) ops = some system)
    (hup : system.listening = true) : system.Streams ops := by
  refine Execution.run_history (C := fun _ _ => True)
    (P := fun ops system => system.listening = true → system.Streams ops) ?_ ?_ hrun
    (fun _ _ _ _ => trivial) hup
  · exact fun hup => (by cases hup)
  · intro ops before op after _ _ _ h hs
    exact step_streams h hs

end System

/-! ## Main results -/

variable {env : Environment} {wire : WireFormat} {store : DaemonStore} {ops : List SystemOp}
  {system : System}

/-- At most `MAX_CLIENTS` connections are open at any time, and a connection is
turned away exactly when that many are. -/
theorem connections_within_limit
    (hrun : Execution.run (System.step env wire) (.initial store) ops = some system) :
    system.activeClients ≤ maxClients ∧
      ∀ peerUid next, system.step env wire (.connect peerUid) = some next →
        (next.clients = system.clients ↔ system.activeClients = maxClients) := by
  have hbounded := System.run_bounded hrun
  constructor
  · cases halive : system.alive with
    | true =>
        have hpermits := hbounded.permits halive
        omega
    | false =>
        rw [(hbounded.down halive).2]
        exact Nat.zero_le _
  · intro peerUid next hs
    obtain ⟨halive, ⟨hnone, rfl⟩ | ⟨hfree, rfl⟩⟩ := System.step_connect hs
    · have hpermits := hbounded.permits halive
      exact ⟨fun _ => by omega, fun _ => rfl⟩
    · have hpermits := hbounded.permits halive
      constructor
      · intro hsame
        have hlength := congrArg List.length hsame
        simp at hlength
      · intro hfull
        omega

/-- More connections than there are permits. -/
def crowd : List SystemOp :=
  .start (sampleSituation (liveConfig [] [])) 0 false :: List.replicate 65 (.connect 1000)

theorem connections_within_limit_crowd : ∃ system,
    Execution.run (System.step (sampleEnv []) sampleWire) (.initial emptyStore) crowd =
      some system ∧ system.activeClients = maxClients ∧ system.activeClients ≤ maxClients ∧
      ∀ peerUid next, system.step (sampleEnv []) sampleWire (.connect peerUid) = some next →
        (next.clients = system.clients ↔ system.activeClients = maxClients) := by
  have hrun : (Execution.run (System.step (sampleEnv []) sampleWire) (.initial emptyStore)
      crowd).map System.activeClients = some maxClients := by
    decide +kernel
  obtain ⟨system, hsystem, hactive⟩ := Option.map_eq_some_iff.mp hrun
  exact ⟨system, hsystem, hactive, connections_within_limit hsystem⟩

def Client.waiting (client : Client) : Bool :=
  match client.stage with
  | .awaiting => true
  | _ => false

/-- The events of a process are handled in the order in which they were sent,
each once: what has been sent and accepted is what the runtime has handled, then
what still waits, and the channel never holds more than its buffer. -/
theorem events_handled_in_order
    (hrun : Execution.run (System.step env wire) (.initial store) ops = some system)
    (hlistening : system.listening = true) :
    ∃ accepted, (System.sentEvents false ops).Sublist accepted ∧
      accepted.Sublist (System.sentEvents true ops) ∧
      accepted = System.handledEvents system.steps ++ system.events.queue ∧
      system.events.queue.length ≤ system.events.capacity ∧ 16 ≤ system.events.capacity := by
  obtain ⟨hsent, hoffered, hhandled⟩ := System.run_streams hrun hlistening
  refine ⟨system.events.posted, hsent, hoffered, ?_, system.events.fits, ?_⟩
  · rw [hhandled]
    exact system.events.order
  · exact (System.run_bounded hrun).events hlistening

/-- Three events, of which the runtime has handled the first. -/
def eventRun : List SystemOp :=
  [.start (sampleSituation (liveConfig [] [])) 0 false, .send panicEvent,
    .offer (eventAt (.manual "second") 2), .handle bareHost, .send (eventAt (.manual "third") 3)]

theorem events_handled_in_order_three : ∃ system,
    Execution.run (System.step (sampleEnv []) sampleWire) (.initial emptyStore) eventRun =
      some system ∧ system.listening = true ∧ system.events.queue.length = 2 ∧
      ∃ accepted, (System.sentEvents false eventRun).Sublist accepted ∧
        accepted.Sublist (System.sentEvents true eventRun) ∧
        accepted = System.handledEvents system.steps ++ system.events.queue ∧
        system.events.queue.length ≤ system.events.capacity ∧ 16 ≤ system.events.capacity := by
  have hrun : (Execution.run (System.step (sampleEnv []) sampleWire) (.initial emptyStore)
      eventRun).map (fun system => (system.listening, system.events.queue.length)) =
        some (true, 2) := by
    decide +kernel
  obtain ⟨system, hsystem, hvalues⟩ := Option.map_eq_some_iff.mp hrun
  obtain ⟨hlistening, hlength⟩ := Prod.ext_iff.mp hvalues
  exact ⟨system, hsystem, hlistening, hlength, events_handled_in_order hsystem hlistening⟩

end Kovert
