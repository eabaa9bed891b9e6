import ChordPad.KeyCode
import ChordPad.Repetition

/-! Which codes are sent together when a key is pressed. -/
namespace ChordPad

abbrev ChordMap := List (KeyCode × List KeyCode)

namespace ChordMap

/-- The chord of the first entry for a key. -/
def chord? (map : ChordMap) (key : KeyCode) : Option (List KeyCode) :=
  (map.find? (·.1 == key)).map (·.2)

def duplicate? (map : ChordMap) : Option KeyCode :=
  (firstRepeat? (fun _ => true) [] (map.map (·.1))).map (·.2)

/-- Letters, digits, function keys and punctuation, in this order. -/
def typingKeys : List KeyCode :=
  (List.range 26).map (KeyCode.letterA + .ofNat ·) ++
  (List.range 10).map (KeyCode.digit1 + .ofNat ·) ++
  (List.range 12).map (KeyCode.function1 + .ofNat ·) ++
  [0x28, 0x29, 0x2a, 0x2b, 0x2c, 0x2d, 0x2e, 0x2f, 0x30, 0x31, 0x33, 0x34, 0x35, 0x36, 0x37, 0x38]

/-- Every typing key is sent with control, shift and alt held. -/
def ctrlShiftAlt : ChordMap :=
  typingKeys.map fun key => (key, [.leftCtrl, .leftShift, .leftAlt, key])

end ChordMap
end ChordPad
