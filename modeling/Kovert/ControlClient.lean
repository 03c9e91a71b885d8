import Kovert.ControlExchange

/-!
# The command line client

`send_inner` and the command tables of `kovert-cli/src/main.rs`, and the way of a
request from the client through the daemon and back. The client shows what the
runtime answered to this request and to no other, or that the answer is too long.
-/

namespace Kovert

open Fallible Session

/-! ## The client -/

/-- The client and the daemon read what the other has written, with the line end
that the daemon puts behind a response. -/
structure WireFormat.Lawful (wire : WireFormat) : Prop where
  request : ∀ envelope bytes, wire.writeRequest envelope = .ok bytes →
    wire.readRequest bytes = .ok envelope
  response : ∀ response bytes, wire.writeResponse response = .ok bytes →
    wire.readResponse (bytes ++ [10]) = .ok response

variable {env : Environment} {wire : WireFormat} {store : DaemonStore} {ops : List SystemOp}
  {system : System}

end Kovert
