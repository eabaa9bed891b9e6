import ChordPad.Report

/-! Report descriptors: how a host learns where the usages stand in a report. A descriptor is a row
of short items. Global items hold until they are changed, local items up to the next main item, and
each main item for input or output lays a row of fields behind the earlier ones. -/
namespace ChordPad.Descriptor

/-- A short item: its tag and kind, and its data as a number. -/
structure Item where
  /-- The first byte without the two bits that give the length of the data. -/
  tag : Nat
  data : Nat
  deriving DecidableEq, Repr

/-- Reads short items, whose data have 0, 1, 2 or 4 bytes, least significant first. -/
def items? : List UInt8 → Option (List Item)
  | [] => some []
  | head :: rest =>
    let tag := head.toNat / 4
    match head.toNat % 4, rest with
    | 0, rest => (items? rest).map (⟨tag, 0⟩ :: ·)
    | 1, a :: rest => (items? rest).map (⟨tag, a.toNat⟩ :: ·)
    | 2, a :: b :: rest => (items? rest).map (⟨tag, a.toNat + 256 * b.toNat⟩ :: ·)
    | 3, a :: b :: c :: d :: rest =>
      (items? rest).map
        (⟨tag, a.toNat + 256 * (b.toNat + 256 * (c.toNat + 256 * d.toNat))⟩ :: ·)
    | _, _ => none

def usagePage : Nat := 0x01
def reportSize : Nat := 0x1d
def reportId : Nat := 0x21
def reportCount : Nat := 0x25
def usage : Nat := 0x02
def usageMinimum : Nat := 0x06
def usageMaximum : Nat := 0x0a
def input : Nat := 0x20
def output : Nat := 0x24
def collection : Nat := 0x28
def endCollection : Nat := 0x30

/-- A row of equal fields of an input report. -/
structure Fields where
  id : Nat
  page : Nat
  /-- The usages of the fields in order; the last one serves all further fields. -/
  usages : List Nat
  /-- Where the first field begins, in bits after the id. -/
  offset : Nat
  /-- Bits a field. -/
  size : Nat
  count : Nat
  /-- The fields are padding. -/
  isConstant : Bool
  deriving DecidableEq, Repr

structure State where
  page : Nat := 0
  size : Nat := 0
  count : Nat := 0
  id : Nat := 0
  usages : List Nat := []
  minimum : Nat := 0
  /-- Bits that the input fields need so far. -/
  bits : Nat := 0
  inputs : List Fields := []
  deriving DecidableEq, Repr

def State.clearLocals (s : State) : State := { s with usages := [], minimum := 0 }

def State.read (s : State) (item : Item) : State :=
  if item.tag = usagePage then { s with page := item.data }
  else if item.tag = reportSize then { s with size := item.data }
  else if item.tag = reportCount then { s with count := item.data }
  else if item.tag = reportId then { s with id := item.data }
  else if item.tag = usage then { s with usages := s.usages ++ [item.data] }
  else if item.tag = usageMinimum then { s with minimum := item.data }
  else if item.tag = usageMaximum then
    { s with usages := s.usages ++ List.range' s.minimum (item.data + 1 - s.minimum) }
  else if item.tag = input then
    let fields : Fields :=
      ⟨s.id, s.page, s.usages, s.bits, s.size, s.count, item.data % 2 = 1⟩
    { s with inputs := s.inputs ++ [fields], bits := s.bits + s.size * s.count }.clearLocals
  else if item.tag = output ∨ item.tag = collection ∨ item.tag = endCollection then s.clearLocals
  else s

def inputs? (descriptor : List UInt8) : Option (List Fields) :=
  (items? descriptor).map fun items => (items.foldl State.read {}).inputs

/-- A bit of a row of bytes, the least significant of each byte first. -/
def bit (bytes : List UInt8) (i : Nat) : Bool := ((bytes[i / 8]?).getD 0).toNat.testBit (i % 8)

/-- Whether a field of a report is anything but zero. -/
def Fields.isSet (f : Fields) (body : List UInt8) (k : Nat) : Bool :=
  (List.range f.size).any fun i => bit body (f.offset + k * f.size + i)

/-- The page and usage of each field that is set in a report, in the order of the fields. -/
def Fields.down (f : Fields) : List UInt8 → List (Nat × Nat)
  | [] => []
  | id :: body =>
    if f.isConstant ∨ f.id ≠ id.toNat then []
    else ((List.range f.count).filter (f.isSet body)).map fun k =>
      (f.page, (f.usages[k]?).getD (f.usages.getLast?.getD 0))

/-- The bytes that a report with these fields has, with its id. -/
def reportLength (inputs : List Fields) : Nat :=
  1 + (inputs.foldl (fun bits f => bits + f.size * f.count) 0 + 7) / 8

/-- The descriptor of the keyboard: eight modifiers and 255 keys, each one bit, and five lamps. -/
def keyboard : List UInt8 := [
  0x05, 0x01, -- usage page: generic desktop
  0x09, 0x06, -- usage: keyboard
  0xa1, 0x01, -- application collection
  0x85, Report.id,
  0x05, 0x07, -- usage page: keyboard
  0x19, 0xe0, -- usages from left control
  0x29, 0xe7, -- to right gui
  0x15, 0x00, -- values from 0
  0x25, 0x01, -- to 1
  0x95, 0x08, -- eight fields
  0x75, 0x01, -- of one bit
  0x81, 0x02, -- input
  0x05, 0x07, -- usage page: keyboard
  0x19, 0x00, -- usages from 0
  0x29, 0xfe, -- to 0xfe
  0x15, 0x00, -- values from 0
  0x25, 0x01, -- to 1
  0x95, 0xff, -- 255 fields
  0x75, 0x01, -- of one bit
  0x81, 0x02, -- input
  0x05, 0x08, -- usage page: lamps
  0x19, 0x01, -- usages from num lock
  0x29, 0x05, -- to kana
  0x95, 0x05, -- five fields
  0x75, 0x01, -- of one bit
  0x91, 0x02, -- output
  0x95, 0x01, -- one field
  0x75, 0x03, -- of three bits
  0x91, 0x01, -- output, constant
  0xc0]

end ChordPad.Descriptor
