import ChordPad.Station

/-! The loop of a keyboard: in each round a pass over the board, and the dispatch of its keys. -/
namespace ChordPad

structure Round (β ε : Type) where
  scanner : Scanner
  board : β
  station : Station ε

/-- What may happen to a keyboard between two rounds: to its switches and clock, to its endpoint,
and to its lamp. -/
structure Change (β ε : Type) where
  board : β → β := id
  endpoint : ε → ε := id
  lampWorks : Bool := true

namespace Round
variable {β ε : Type}

def change (r : Round β ε) (c : Change β ε) : Round β ε :=
  { r with
    board := c.board r.board
    station := { r.station with endpoint := c.endpoint r.station.endpoint, lampWorks := c.lampWorks } }

variable [Board β] [Endpoint ε]

def turn (map : ChordMap) (r : Round β ε) : Round β ε × List Event × Station.Progress :=
  let (scanner, board, keys) := r.scanner.scan r.board
  let (station, events, progress) := r.station.dispatch map keys
  (⟨scanner, board, station⟩, events, progress)

/-- Goes on with tasks that had to wait, or else scans again. -/
def poll (map : ChordMap) (r : Round β ε) : List Task → Round β ε × List Event × Station.Progress
  | [] => r.turn map
  | left =>
    let (station, events, progress) := r.station.perform left
    ({ r with station }, events, progress)

/-- Rounds one after another, each after a change: the events of each. -/
def run (map : ChordMap) (r : Round β ε) : List (Change β ε) → Round β ε × List (List Event)
  | [] => (r, [])
  | c :: rest =>
    let (r, events, _) := (r.change c).turn map
    let (r, later) := run map r rest
    (r, events :: later)

end Round
end ChordPad
