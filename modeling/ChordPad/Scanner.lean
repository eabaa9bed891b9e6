import ChordPad.KeyLayout
import ChordPad.Switch

/-! The scanner of a key matrix. It holds a switch for every position of the layout, row after row.
A pass observes all contacts at one time, then settles the switches in order: a release is taken
at once, a press of a key is reported while the list of keys has room, else it stays for later. -/
namespace ChordPad

structure Scanner where
  layout : KeyLayout
  config : ScanConfig
  /-- How many keys a pass can report. -/
  capacity : Nat
  switches : List Switch
  deriving DecidableEq, Repr

/-- The positions of a matrix, row after row. -/
def KeyLayout.positions (layout : KeyLayout) : List (Nat × Nat) :=
  (List.range layout.rows).flatMap fun row => (List.range layout.cols).map fun col => (row, col)

namespace Scanner

/-- A scanner at rest; the layout has to fit the numbers of lines. -/
def make (layout : KeyLayout) (config : ScanConfig) (capacity outputs inputs : Nat) :
    Except LayoutError Scanner :=
  let wired := if config.rowsDriven then (outputs, inputs) else (inputs, outputs)
  if (layout.rows, layout.cols) = wired then
    .ok ⟨layout, config, capacity, List.replicate layout.codes.length {}⟩
  else .error (.dimensions layout.rows layout.cols)

def outputs (s : Scanner) : Nat := if s.config.rowsDriven then s.layout.rows else s.layout.cols

def inputs (s : Scanner) : Nat := if s.config.rowsDriven then s.layout.cols else s.layout.rows

/-- The contact of a position, when the contacts are known by output and input line. -/
def contactAt (rowsDriven : Bool) (closed : Nat → Nat → Bool) : Nat × Nat → Bool
  | (row, col) => if rowsDriven then closed row col else closed col row

def readings (s : Scanner) (closed : Nat → Nat → Bool) : List Bool :=
  s.layout.positions.map (contactAt s.config.rowsDriven closed)

def observe (now : Nat) (contacts : List Bool) (switches : List Switch) : List Switch :=
  List.zipWith (fun contact switch => switch.observe contact now) contacts switches

/-- Settles switches, each with the key of its position, while `room` keys can still be reported.
A press that finds no room is not committed, so it is still confirmed in the next pass. -/
def settle (debounce : Debounce) (now : Nat) :
    (room : Nat) → List (KeyCode × Switch) → List Switch × List KeyCode
  | _, [] => ([], [])
  | room, (key, switch) :: rest =>
    if switch.isConfirmed debounce now then
      if switch.raw && key != .noKey then
        match room with
        | 0 =>
          let (switches, keys) := settle debounce now 0 rest
          (switch :: switches, keys)
        | room + 1 =>
          let (switches, keys) := settle debounce now room rest
          (switch.commit :: switches, key :: keys)
      else
        let (switches, keys) := settle debounce now room rest
        (switch.commit :: switches, keys)
    else
      let (switches, keys) := settle debounce now room rest
      (switch :: switches, keys)

/-- One pass at time `now` over contacts known by output and input line: the keys that became
pressed, row after row. -/
def pass (s : Scanner) (now : Nat) (closed : Nat → Nat → Bool) : Scanner × List KeyCode :=
  let seen := observe now (s.readings closed) s.switches
  let (switches, keys) := settle s.config.debounce now s.capacity (s.layout.codes.zip seen)
  ({ s with switches }, keys)

/-- Passes one after another, each with its time and contacts: the keys of each. -/
def run (s : Scanner) : List (Nat × (Nat → Nat → Bool)) → Scanner × List (List KeyCode)
  | [] => (s, [])
  | (now, closed) :: rest =>
    let (s, keys) := s.pass now closed
    let (s, later) := run s rest
    (s, keys :: later)

/-- The settled state at a position; no position is not pressed. -/
def isPressed (s : Scanner) (row col : Nat) : Bool :=
  if row < s.layout.rows ∧ col < s.layout.cols then
    ((s.switches[row * s.layout.cols + col]?).map (·.pressed)).getD false
  else false

theorem length_settle (debounce : Debounce) (now room : Nat) (slots : List (KeyCode × Switch)) :
    (settle debounce now room slots).1.length = slots.length := by
  fun_induction settle debounce now room slots <;> simp_all

theorem length_settle_keys_le (debounce : Debounce) (now room : Nat)
    (slots : List (KeyCode × Switch)) : (settle debounce now room slots).2.length ≤ room := by
  fun_induction settle debounce now room slots <;> simp_all

theorem pass_layout (s : Scanner) (now : Nat) (closed : Nat → Nat → Bool) :
    (s.pass now closed).1.layout = s.layout := rfl

theorem pass_config (s : Scanner) (now : Nat) (closed : Nat → Nat → Bool) :
    (s.pass now closed).1.config = s.config := rfl

theorem run_append (s : Scanner) (u v : List (Nat × (Nat → Nat → Bool))) :
    s.run (u ++ v) = (((s.run u).1.run v).1, (s.run u).2 ++ ((s.run u).1.run v).2) := by
  induction u generalizing s with
  | nil => rfl
  | cons p u ih => simp [run, ih]

end Scanner
end ChordPad
