import ChordPad.Usb.Framing

/-! Writing a report to an endpoint, packet by packet, until one is not taken. -/
namespace ChordPad.ReportWriter

/-- A packet that was handed to the endpoint, and whether it was taken. -/
structure Attempt where
  packet : Packet
  taken : Bool
  deriving DecidableEq, Repr

inductive Outcome
  | done
  | failed (error : EndpointError)
  /-- The first of these packets waits for room. -/
  | waiting (left : List Packet)
  /-- The endpoint takes packets of no size at all, so that no report can be cut for it. -/
  | noPacketSize
  deriving DecidableEq, Repr

variable {ε : Type} [Endpoint ε]

def writePackets (e : ε) : List Packet → ε × List Attempt × Outcome
  | [] => (e, [], .done)
  | packet :: rest =>
    match Endpoint.write e packet with
    | (e, .taken) =>
      let (e, attempts, outcome) := writePackets e rest
      (e, ⟨packet, true⟩ :: attempts, outcome)
    | (e, .refused error) => (e, [⟨packet, false⟩], .failed error)
    | (e, .full) => (e, [], .waiting (packet :: rest))

/-- Writes a report of at most `limit` bytes; a longer one is refused as it stands. -/
def write (limit : Nat) (e : ε) (report : List UInt8) : ε × List Attempt × Outcome :=
  if limit < report.length then (e, [], .failed .overflow)
  else if Endpoint.packetSize e = 0 then (e, [], .noPacketSize)
  else writePackets e (Framing.packets limit (Endpoint.packetSize e) report)

end ChordPad.ReportWriter
