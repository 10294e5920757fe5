import Cockpit.Session.Basic

/-!
# The telemetry feed

Every raw packet goes through the decoder of the session.  The answer that a
packet carries goes on to the bridge.  A packet that is refused counts as an
error, but an empty one is no packet.

Stopping a session closes the bridge, and a query that waits is given up.
-/

namespace Cockpit.Session

/-- Hands the answer of a packet to the bridge. -/
def answer (response : Value) : Op Session Bool :=
  (Line.answer response).on linePart

/-- The response field of a packet as a value. -/
def responseOf (p : Telemetry.Packet) : Value :=
  match p.response with
  | some r => .text r
  | none => .null

/-- Takes a raw packet.  Gives the packet that it is, if it is one. -/
def receive (raw : Value) : Op Session (Option Telemetry.Packet) := do
  let (decoder, packet) ← (Workshop.logged ((← .state).decoder.parse raw)).on workshopPart
  .update fun s => { s with decoder }
  match packet with
  | some p =>
    let _ ← answer (responseOf p)
    return some p
  | none =>
    if raw.isSet then .update fun s => { s with errorCount := s.errorCount + 1 }
    return none

/-- Stops the session and gives up the query that waits. -/
def stop : Op Session Unit := do
  if !(← .state).running then say .uplink .warning "Uplink is not running"
  else
    say .uplink .info "Stopping Cockpit-Uplink..."
    .update fun s => { s with running := false }
    Line.close.on linePart
    say .uplink .info "Uplink stopped"

end Cockpit.Session
