/-! How a key matrix is scanned: when a contact counts as settled, how the matrix is wired, and how
long a line rests between being selected and being read. Times are in ticks of one microsecond. -/
namespace ChordPad

/-- How long a contact must disagree with its settled state before that state follows. -/
inductive Debounce
  /-- For so many consecutive passes. -/
  | passes (count : UInt8)
  /-- For so many ticks since the disagreement was first seen. -/
  | elapsed (ticks : Nat)
  deriving DecidableEq, Repr

def Debounce.ofMillis (ms : UInt16) : Debounce := .elapsed (1000 * ms.toNat)

structure ScanConfig where
  debounce : Debounce := .ofMillis 5
  /-- The rows of the layout are wired to the driven lines, the columns to the read ones. -/
  rowsDriven : Bool := true
  /-- The pause after a line is selected; there is none when it is zero. -/
  selectPause : Nat := 0
  deriving DecidableEq, Repr

end ChordPad
