/-! Setup packets: the requests of a control transfer. -/
namespace ChordPad

inductive RequestType
  | standard
  | classRequest
  | vendor
  | reserved
  deriving DecidableEq, Repr

inductive Recipient
  | device
  | interface
  | endpoint
  | other
  | reserved
  deriving DecidableEq, Repr

structure Setup where
  toHost : Bool
  type : RequestType
  recipient : Recipient
  request : UInt8
  value : UInt16
  index : UInt16
  length : UInt16
  deriving DecidableEq, Repr

namespace Setup

def typeOf (b : UInt8) : RequestType :=
  match b.toNat / 32 % 4 with
  | 0 => .standard
  | 1 => .classRequest
  | 2 => .vendor
  | _ => .reserved

def recipientOf (b : UInt8) : Recipient :=
  match b.toNat % 32 with
  | 0 => .device
  | 1 => .interface
  | 2 => .endpoint
  | 3 => .other
  | _ => .reserved

/-- A number of two bytes, the less significant one first. -/
def word (lo hi : UInt8) : UInt16 := .ofNat (lo.toNat + 256 * hi.toNat)

/-- Reads the eight bytes of a setup packet. -/
def ofBytes? : List UInt8 → Option Setup
  | [kind, request, v0, v1, i0, i1, l0, l1] => some {
      toHost := 128 ≤ kind
      type := typeOf kind
      recipient := recipientOf kind
      request
      value := word v0 v1
      index := word i0 i1
      length := word l0 l1 }
  | _ => none

/-- The upper byte of the value: the type of a descriptor. -/
def valueHigh (s : Setup) : Nat := s.value.toNat / 256

/-- The lower byte of the value: the index of a descriptor. -/
def valueLow (s : Setup) : Nat := s.value.toNat % 256

end Setup
end ChordPad
