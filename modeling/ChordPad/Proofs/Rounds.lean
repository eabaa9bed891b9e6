import ChordPad.Round
import ChordPad.Proofs.Scanner.Passes

/-! The rounds of a keyboard, seen from its scanner: they are passes over what its scans find, whatever
the rest of the keyboard does. -/
namespace ChordPad
variable {β ε : Type} [Board β] [Endpoint ε]

namespace Scanner

/-- Scans a board that is changed before each scan: the scanner after each of them, and its keys. -/
def scans (s : Scanner) (b : β) : List (β → β) → List (Scanner × List KeyCode)
  | [] => []
  | change :: rest =>
    let (s, b, keys) := s.scan (change b)
    (s, keys) :: scans s b rest

/-- What a scan of a board finds: its time, and the contacts that it samples. -/
def sight (s : Scanner) (b : β) : Pass :=
  (Board.now b, Board.contactIn
    (Board.sampleLines s.config.selectPause s.inputs b (List.range s.outputs)).2)

/-- What the scans of a board find that is changed before each of them. -/
def sights (s : Scanner) (b : β) : List (β → β) → List Pass
  | [] => []
  | change :: rest =>
    s.sight (change b) :: sights (s.scan (change b)).1 (s.scan (change b)).2.1 rest

theorem length_sights (s : Scanner) (b : β) (changes : List (β → β)) :
    (s.sights b changes).length = changes.length := by
  induction changes generalizing s b with
  | nil => rfl
  | cons change changes ih => simp only [sights, List.length_cons, ih]

theorem sights_take (s : Scanner) (b : β) (changes : List (β → β)) (t : Nat) :
    s.sights b (changes.take t) = (s.sights b changes).take t := by
  induction changes generalizing s b t with
  | nil => simp [sights]
  | cons change changes ih =>
    cases t with
    | zero => rfl
    | succ t => simp only [List.take_succ_cons, sights, ih]

end Scanner

namespace Round

/-- A keyboard after the first `t` of its rounds. -/
def after (map : ChordMap) (r : Round β ε) (changes : List (Change β ε)) (t : Nat) : Round β ε :=
  (r.run map (changes.take t)).1

/-- The positions that came to be pressed in round `t`, where rounds are counted from 0. -/
def risen (map : ChordMap) (r : Round β ε) (changes : List (Change β ε)) (t : Nat) :
    List (Nat × Nat) :=
  Scanner.risen (r.after map changes t).scanner (r.after map changes (t + 1)).scanner

/-- What the scans of all rounds find. -/
def sights (r : Round β ε) (changes : List (Change β ε)) : List Pass :=
  r.scanner.sights r.board (changes.map (·.board))

omit [Endpoint ε] in
theorem length_sights (r : Round β ε) (changes : List (Change β ε)) :
    (r.sights changes).length = changes.length := by
  rw [sights, Scanner.length_sights, List.length_map]

theorem run_scanner (map : ChordMap) (r : Round β ε) (changes : List (Change β ε)) :
    (r.run map changes).1.scanner = (r.scanner.run (r.sights changes)).1 := by
  induction changes generalizing r with
  | nil => rfl
  | cons c changes ih => exact ih _

theorem after_scanner (map : ChordMap) (r : Round β ε) (changes : List (Change β ε)) (t : Nat) :
    (r.after map changes t).scanner = r.scanner.after (r.sights changes) t := by
  rw [after, run_scanner, Scanner.after, sights, sights, List.map_take, Scanner.sights_take]

end Round
end ChordPad
