/-! Interrupt endpoints: they take packets of bytes on the way to the host. -/
namespace ChordPad

abbrev Packet := List UInt8

inductive EndpointError
  | disabled
  | overflow
  deriving DecidableEq, Repr

inductive PacketResult
  | taken
  | refused (error : EndpointError)
  /-- There is no room now; the packet has to wait. -/
  | full
  deriving DecidableEq, Repr

class Endpoint (ε : Type) where
  packetSize : ε → Nat
  write : ε → Packet → ε × PacketResult

/-- An interrupt endpoint as the host sees it. -/
structure EndpointInfo where
  address : UInt8 := 0x81
  packetSize : UInt16 := 64
  intervalMillis : UInt8 := 1
  deriving DecidableEq, Repr

/-- The number of the interrupt transfers among the kinds of transfers. -/
def EndpointInfo.transferType : UInt8 := 3

/-- An endpoint whose results are written down beforehand; it takes what comes after them. -/
structure Scripted where
  packetSize : Nat := 64
  results : List PacketResult := []

namespace Scripted

instance : Endpoint Scripted where
  packetSize := packetSize
  write e _ := ({ e with results := e.results.drop 1 }, e.results.head?.getD .taken)

end Scripted

/-- An endpoint that keeps packets until they are collected, and has room for 32. -/
structure Mailbox where
  info : EndpointInfo := {}
  /-- How many of the next packets it refuses. -/
  refusals : Nat := 0
  /-- The packets kept, oldest first. -/
  packets : List Packet := []

namespace Mailbox

def room : Nat := 32

instance : Endpoint Mailbox where
  packetSize m := m.info.packetSize.toNat
  write m packet :=
    match m.refusals with
    | refusals + 1 => ({ m with refusals }, .refused .disabled)
    | 0 =>
      if m.packets.length < room then ({ m with packets := m.packets ++ [packet] }, .taken)
      else (m, .full)

def collect (m : Mailbox) : Mailbox × List Packet := ({ m with packets := [] }, m.packets)

end Mailbox
end ChordPad
