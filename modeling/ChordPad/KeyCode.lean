/-! Codes of the keyboard page: one byte names a key, and zero stands for no key at all. -/
namespace ChordPad

abbrev KeyCode := UInt8

namespace KeyCode

/-- The code of a position without a key. -/
def noKey : KeyCode := 0

def letterA : KeyCode := 0x04
def digit1 : KeyCode := 0x1e
def function1 : KeyCode := 0x3a

/-- Codes below this one report the state of the keyboard, not a key. -/
def firstKey : KeyCode := 0x04

def leftCtrl : KeyCode := 0xe0
def leftShift : KeyCode := 0xe1
def leftAlt : KeyCode := 0xe2
def rightGui : KeyCode := 0xe7

/-- The eight modifiers are the codes from left control to right gui. -/
def isModifier (code : KeyCode) : Bool := leftCtrl ≤ code && code ≤ rightGui

/-- The bit of a modifier in the modifier byte of a report. -/
def modifierBit (code : KeyCode) : UInt8 := 1 <<< (code - leftCtrl)

end KeyCode
end ChordPad
