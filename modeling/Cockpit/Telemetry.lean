import Cockpit.Json.Reader
import Cockpit.Log
import Cockpit.Value.Convert

/-!
# Telemetry

The simulation reports its state in packets, which are JSON objects.  A packet
has twelve known fields.  A field that is present and not null is kept as text,
whatever its type was.

A decoder turns raw packets into packets and keeps count.  It refuses a packet
that is too long, not JSON or not an object.  A refused packet changes nothing
but the error count.  A value that is not a text at all is no packet but a
mistake of the caller, and so are numerals and nesting beyond what the JSON
reader takes.
-/

namespace Cockpit.Telemetry

/-- The most characters that a raw packet may have. -/
def lengthLimit : Nat := 8192

/-- One report of the simulation. -/
structure Packet where
  /-- The active airframe. -/
  model : Option String := none
  /-- The marker that the command stream has reached. -/
  marker : Option String := none
  latitude : Option String := none
  longitude : Option String := none
  elevation : Option String := none
  upload : Option String := none
  increment : Option String := none
  decrement : Option String := none
  «show» : Option String := none
  hide : Option String := none
  toggle : Option String := none
  /-- The answer to a query. -/
  response : Option String := none
  deriving DecidableEq, Repr, Inhabited

namespace Packet

/-- The text of a field, nothing if it is absent or null. -/
def fieldOf (es : Entries) (key : String) : Option String :=
  match es.get? key with
  | none => none
  | some .null => none
  | some v => some v.toText

/-- The packet that an object describes. -/
def ofEntries (es : Entries) : Packet where
  model := fieldOf es "Model"
  marker := fieldOf es "Marker"
  latitude := fieldOf es "Latitude"
  longitude := fieldOf es "Longitude"
  elevation := fieldOf es "Elevation"
  upload := fieldOf es "Upload"
  increment := fieldOf es "Increment"
  decrement := fieldOf es "Decrement"
  «show» := fieldOf es "Show"
  hide := fieldOf es "Hide"
  toggle := fieldOf es "Toggle"
  response := fieldOf es "Response"

/-- Whether a text is there and not empty. -/
def isFilled (t : Option String) : Bool := t.any (· != "")

/-- Whether a packet answers a query. -/
def isAnswer (p : Packet) : Bool := isFilled p.response

end Packet

/-! ## Decoding -/

/-- What a decoder remembers. -/
structure Decoder where
  lastPacket : Option Packet := none
  lastMarker : Option String := none
  packetsParsed : Nat := 0
  errorCount : Nat := 0
  deriving DecidableEq, Repr, Inhabited

namespace Decoder

/-- Whether a packet has arrived. -/
def isFresh (t : Decoder) : Bool := t.packetsParsed != 0

/-- The airframe of the last packet. -/
def model (t : Decoder) : Option String := t.lastPacket.bind Packet.model

/-- The decoder after a refusal. -/
def refuse (t : Decoder) : Decoder := { t with errorCount := t.errorCount + 1 }

/-- The decoder after a packet.  A packet without a marker leaves the last one. -/
def accept (t : Decoder) (p : Packet) : Decoder :=
  { t with
    lastPacket := some p
    lastMarker := if Packet.isFilled p.marker then p.marker else t.lastMarker
    packetsParsed := t.packetsParsed + 1 }

/-- Refuses a packet with a warning. -/
def refuseWith (t : Decoder) (reason : String) : Op Log.Journal (Decoder × Option Packet) := do
  Log.say .telemetry .warning reason
  return (t.refuse, none)

/-- Decodes a text of permitted length. -/
def decode (t : Decoder) (text : String) : Op Log.Journal (Decoder × Option Packet) :=
  match Json.read text with
  | .ok (.object es) =>
    let p := Packet.ofEntries es
    return (t.accept p, some p)
  | .ok v => t.refuseWith s!"Telemetry packet is not an object: {v.typeName}"
  | .error (.syntaxError r n) =>
    t.refuseWith s!"Malformed telemetry packet: {r.message text n}"
  | .error (.numeralTooLong n) => .stop (.numeralTooLong n)
  | .error .tooDeep => .stop .tooDeep

/-- Decodes a raw packet: the decoder after it, and the packet if it is one. -/
def parse (t : Decoder) (raw : Value) : Op Log.Journal (Decoder × Option Packet) := do
  if !raw.isSet then return (t, none)
  else
    let size ← raw.size
    if lengthLimit < size then
      t.refuseWith s!"Telemetry packet too long: {size} chars (max: {lengthLimit})"
    else
      match raw with
      | .text s => t.decode s
      | _ => .stop .wrongType

end Decoder

end Cockpit.Telemetry
