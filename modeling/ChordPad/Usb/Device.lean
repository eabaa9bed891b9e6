import ChordPad.Report.Descriptor
import ChordPad.Usb.Endpoint
import ChordPad.Usb.Interface

/-! The keyboard as a device: who it says it is, its descriptors, and its control transfers. -/
namespace ChordPad

/-- What a device tells the host about itself. The power is in milliamperes. -/
structure DeviceInfo where
  vendor : UInt16
  product : UInt16
  manufacturerName : String
  productName : String
  serialNumber : String
  maxPower : UInt16
  deriving DecidableEq, Repr

structure DeviceConfig extends DeviceInfo where
  controlPacketSize : UInt8 := 64
  deriving DecidableEq, Repr

structure Device where
  config : DeviceConfig
  interface : Interface
  endpoint : EndpointInfo
  deriving DecidableEq, Repr

inductive DeviceError
  /-- The bus gives 500 milliamperes at most. -/
  | tooMuchPower
  /-- A string descriptor does not fit its buffer. -/
  | stringTooLong
  deriving DecidableEq, Repr

/-- Makes one device: its configuration can be taken once. -/
structure Configurator where
  config? : Option DeviceConfig
  packetSize : UInt16
  intervalMillis : UInt8 := 1
  deriving DecidableEq, Repr

def DeviceInfo.configurator (info : DeviceInfo) : Configurator :=
  let config : DeviceConfig := { info with }
  { config? := some config, packetSize := config.controlPacketSize.toUInt16 }

namespace Configurator

/-- Takes the configuration out; there is none the second time. -/
def take (c : Configurator) : Configurator × Option DeviceConfig :=
  ({ c with config? := none }, c.config?)

def device (c : Configurator) (config : DeviceConfig) : Except DeviceError Device :=
  if 500 < config.maxPower then .error .tooMuchPower
  else .ok {
    config
    interface := ⟨0, Descriptor.keyboard⟩
    endpoint := ⟨0x81, c.packetSize, c.intervalMillis⟩ }

end Configurator

namespace Device

/-- The two bytes of a number, the less significant one first. -/
def wordBytes (w : UInt16) : List UInt8 := [.ofNat (w.toNat % 256), .ofNat (w.toNat / 256)]

def deviceDescriptor (d : Device) : List UInt8 :=
  [0x12, 1, 0x10, 0x02, 0xef, 2, 1, d.config.controlPacketSize] ++
    wordBytes d.config.vendor ++ wordBytes d.config.product ++ [0x10, 0x00, 1, 2, 3, 1]

def qualifierDescriptor (d : Device) : List UInt8 :=
  [0x0a, 6, 0x10, 0x02, 0xef, 2, 1, d.config.controlPacketSize, 1, 0]

/-- Everything after the header of the configuration: association, interface, class and endpoint. -/
def configurationBody (d : Device) : List UInt8 :=
  [8, 0x0b, d.interface.number, 1, 3, 1, 1, 0] ++
    [9, 4, d.interface.number, 0, 1, 3, 1, 1, 0] ++
    d.interface.hidDescriptor ++
    [7, 5, d.endpoint.address, EndpointInfo.transferType] ++ wordBytes d.endpoint.packetSize ++ [d.endpoint.intervalMillis]

/-- The configuration, with its whole length and the power in steps of two milliamperes. -/
def configurationDescriptor (d : Device) : List UInt8 :=
  [9, 2] ++ wordBytes (.ofNat (9 + d.configurationBody.length)) ++
    [1, 1, 0, 0x80, .ofNat (d.config.maxPower.toNat / 2)] ++ d.configurationBody

/-- What the device can do besides: it knows link power management. -/
def capabilities : List UInt8 := [7, 0x10, 2, 0, 0, 0, 0]

def bosDescriptor : List UInt8 :=
  [5, 0x0f] ++ wordBytes (.ofNat (5 + capabilities.length)) ++ [1] ++ capabilities

def controlBufferSize : Nat := 128

def units16 (text : List Char) : List UInt16 :=
  text.flatMap fun c =>
    if c.toNat < 0x10000 then [.ofNat c.toNat]
    else
      let n := c.toNat - 0x10000
      [.ofNat (0xd800 + n / 0x400), .ofNat (0xdc00 + n % 0x400)]

/-- A string descriptor; its length has to stay below the size of the buffer. -/
def stringDescriptor (text : String) : Except DeviceError (List UInt8) :=
  let body := (units16 text.toList).flatMap wordBytes
  let length := 2 + body.length
  if length < controlBufferSize then .ok (.ofNat length :: 3 :: body) else .error .stringTooLong

/-- The only language of the strings: English of the United States. -/
def languageDescriptor : List UInt8 := [4, 3, 0x09, 0x04]

/-- The descriptor of a type and an index; none if there is no such descriptor. -/
def descriptor? (d : Device) (type index : Nat) : Except DeviceError (Option (List UInt8)) :=
  match type with
  | 1 => .ok (some d.deviceDescriptor)
  | 2 => .ok (some d.configurationDescriptor)
  | 3 =>
    match index with
    | 0 => .ok (some languageDescriptor)
    | 1 => (stringDescriptor d.config.manufacturerName).map some
    | 2 => (stringDescriptor d.config.productName).map some
    | 3 => (stringDescriptor d.config.serialNumber).map some
    | _ => .ok none
  | 6 => .ok (some d.qualifierDescriptor)
  | 15 => .ok (some bosDescriptor)
  | _ => .ok none

inductive Transfer
  | accepted
  | rejected
  | data (bytes : List UInt8)
  /-- Data were asked for, but no byte of them. -/
  | noData
  deriving DecidableEq, Repr

def interfaceIn (d : Device) (s : Setup) : Option (List UInt8) :=
  match d.interface.controlIn s controlBufferSize with
  | some (.data bytes) => some bytes
  | _ => none

def getStatus : UInt8 := 0x00
def clearFeature : UInt8 := 0x01
def setFeature : UInt8 := 0x03
def setAddress : UInt8 := 0x05
def getConfiguration : UInt8 := 0x08
def setConfiguration : UInt8 := 0x09
def getInterface : UInt8 := 0x0a
def setInterface : UInt8 := 0x0b

/-- The feature of an endpoint that it is halted. -/
def halt : Nat := 0

/-- The feature of a device that it may wake the host. -/
def remoteWakeup : Nat := 1

/-- The number of the only configuration; the number 0 takes it out of use. -/
def onlyConfiguration : Nat := 1

structure Settings where
  wakesHost : Bool := false
  configured : Bool := false
  deriving DecidableEq, Repr

/-- The data that a request asks for; none is a refusal. -/
def reply? (d : Device) (now : Settings) (s : Setup) : Except DeviceError (Option (List UInt8)) :=
  match s.type, s.recipient with
  | .standard, .device =>
    if s.request = Interface.getDescriptor then d.descriptor? s.valueHigh s.valueLow
    else if s.request = getStatus then .ok (some [if now.wakesHost then 2 else 0, 0])
    else if s.request = getConfiguration then
      .ok (some [if now.configured then .ofNat onlyConfiguration else 0])
    else .ok none
  | .standard, .interface =>
    if s.index.toNat ≠ d.interface.number.toNat then .ok none
    else if s.request = getStatus then .ok (some [0, 0])
    else if s.request = getInterface then .ok (some [0])
    else .ok (d.interfaceIn s)
  | .standard, .endpoint => .ok (if s.request = getStatus then some [0, 0] else none)
  | _, _ => .ok (d.interfaceIn s)

/-- What is set after a request that brings data to the device; none is a refusal. A new address takes
the configuration out of use. The interface has one setting only, and the bus keeps no endpoint
halted. -/
def settings? (d : Device) (now : Settings) (s : Setup) : Option Settings :=
  let value := s.value.toNat
  match s.type, s.recipient with
  | .standard, .device =>
    if s.request = setFeature ∧ value = remoteWakeup then some { now with wakesHost := true }
    else if s.request = clearFeature ∧ value = remoteWakeup then some { now with wakesHost := false }
    else if s.request = setAddress ∧ 1 ≤ value ∧ value ≤ 127 then some { now with configured := false }
    else if s.request = setConfiguration ∧ value = onlyConfiguration then
      some { now with configured := true }
    else if s.request = setConfiguration ∧ value = 0 then some { now with configured := false }
    else none
  | .standard, .interface =>
    if s.index.toNat % 256 = d.interface.number.toNat ∧ s.request = setInterface ∧ value % 256 = 0
    then some now else none
  | .standard, .endpoint =>
    if (s.request = setFeature ∨ s.request = clearFeature) ∧ value = halt then some now else none
  | _, _ => if d.interface.controlOut s = some .accepted then some now else none

/-- A control transfer, and what is set after it. Data for the host are cut to the length that was
asked for; data from the host have to fit the buffer. -/
def control (d : Device) (now : Settings) (s : Setup) : Except DeviceError (Settings × Transfer) :=
  if s.toHost then
    (d.reply? now s).map fun
      | some bytes => (now, if s.length = 0 then .noData else .data (bytes.take s.length.toNat))
      | none => (now, .rejected)
  else if controlBufferSize < s.length.toNat then .ok (now, .rejected)
  else match d.settings? now s with
    | some after => .ok (after, .accepted)
    | none => .ok (now, .rejected)

end Device
end ChordPad
