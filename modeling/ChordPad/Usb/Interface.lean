import ChordPad.Usb.Setup

/-! The control requests of a keyboard interface: its descriptors for the host, and the few requests
of its class. It speaks the report protocol only. -/
namespace ChordPad

structure Interface where
  number : UInt8
  reportDescriptor : List UInt8
  deriving DecidableEq, Repr

inductive OutReply
  | accepted
  | rejected
  deriving DecidableEq, Repr

inductive InReply
  | data (bytes : List UInt8)
  | rejected
  /-- The answer needs a byte of the buffer, which has none. -/
  | noBuffer
  deriving DecidableEq, Repr

namespace Interface

def hidDescriptorType : Nat := 0x21
def reportDescriptorType : Nat := 0x22

def getDescriptor : UInt8 := 0x06
def getIdle : UInt8 := 0x02
def getProtocol : UInt8 := 0x03
def setReport : UInt8 := 0x09
def setIdle : UInt8 := 0x0a
def setProtocol : UInt8 := 0x0b

/-- The number of the report protocol. -/
def reportProtocol : UInt8 := 1

/-- The descriptor of the class: version 1.11, no country, and one further descriptor with its
length. -/
def hidDescriptor (i : Interface) : List UInt8 :=
  let length := i.reportDescriptor.length
  [9, .ofNat hidDescriptorType, 0x11, 0x01, 0, 1, .ofNat reportDescriptorType,
    .ofNat (length % 256), .ofNat (length / 256 % 256)]

/-- Answers a request that brings data to the device; none if it is meant for someone else. Reports
are sent on change only, so the idle rate does not matter, and there are no lamps to show. -/
def controlOut (i : Interface) (s : Setup) : Option OutReply :=
  if s.type = .classRequest ∧ s.recipient = .interface ∧ s.index.toNat = i.number.toNat then
    if s.request = setIdle ∨ s.request = setReport then some .accepted
    else if s.request = setProtocol ∧ s.value.toNat = reportProtocol.toNat then some .accepted
    else some .rejected
  else none

/-- Answers a request for data with `room` bytes of buffer; none if it is meant for someone else. -/
def controlIn (i : Interface) (s : Setup) (room : Nat) : Option InReply :=
  let byte (b : UInt8) : InReply := if room = 0 then .noBuffer else .data [b]
  if s.index.toNat ≠ i.number.toNat then none
  else match s.type, s.recipient with
    | .standard, .interface =>
      if s.request ≠ getDescriptor then some .rejected
      else if s.valueHigh = reportDescriptorType then some (.data i.reportDescriptor)
      else if s.valueHigh = hidDescriptorType then some (.data i.hidDescriptor)
      else some .rejected
    | .classRequest, .interface =>
      if s.request = getIdle then some (byte 0)
      else if s.request = getProtocol then some (byte reportProtocol)
      else some .rejected
    | _, _ => none

end Interface
end ChordPad
