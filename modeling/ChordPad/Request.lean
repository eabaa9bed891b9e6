import ChordPad.Board
import ChordPad.ChordMap
import ChordPad.Usb.Endpoint

/-! What pressed keys ask for: their chords, in order, between lighting the lamp and putting it out. -/
namespace ChordPad

inductive Request
  | lamp (level : Level)
  | send (chord : List KeyCode)
  deriving DecidableEq, Repr

/-- What can be seen of the work on requests. -/
inductive Event
  | lamp (level : Level) (taken : Bool)
  | chord (codes : List KeyCode)
  | packet (bytes : Packet) (taken : Bool)
  deriving DecidableEq, Repr

namespace Request

/-- What is asked for at the very beginning: that the lamp is out. -/
def initial : List Request := [.lamp .low]

def noted (lampWorks : Bool) : Request → Event
  | .lamp level => .lamp level lampWorks
  | .send chord => .chord chord

end Request

namespace ChordMap

/-- The chords of keys; keys without a chord are passed over. -/
def chords (map : ChordMap) (keys : List KeyCode) : List (List KeyCode) := keys.filterMap map.chord?

/-- How many of the keys are answered with a chord. -/
def sentCount (map : ChordMap) (keys : List KeyCode) : Nat :=
  keys.countP fun key => (map.chord? key).isSome

theorem sentCount_eq_length_chords (map : ChordMap) (keys : List KeyCode) :
    map.sentCount keys = (map.chords keys).length :=
  List.length_filterMap_eq_countP.symm

/-- What the keys of one pass ask for. The lamp is lit when there is any key, and put out in any
case. -/
def requests (map : ChordMap) (keys : List KeyCode) : List Request :=
  (if keys.isEmpty then [] else [.lamp .high]) ++ (map.chords keys).map .send ++ [.lamp .low]

end ChordMap
end ChordPad
