import ChordPad.Board

/-! A board that keeps a record of every access to its lines. -/
namespace ChordPad

/-- What was done to a line, and what came of it. -/
inductive Access
  | drive (output : Nat) (level : Level) (taken : Bool)
  | read (input : Nat) (level : Option Level)
  deriving DecidableEq, Repr

structure Recorded (β : Type) where
  board : β
  /-- The accesses so far, oldest first. A drive has the time at which it was done, a read the time at
  which it began. -/
  accesses : List (Nat × Access) := []

instance {β : Type} [Board β] : Board (Recorded β) where
  now r := Board.now r.board
  drive r output level :=
    let (board, taken) := Board.drive r.board output level
    (⟨board, r.accesses ++ [(Board.now board, .drive output level taken)]⟩, taken)
  read r input :=
    let (board, level) := Board.read r.board input
    (⟨board, r.accesses ++ [(Board.now r.board, .read input level)]⟩, level)
  wait r ticks := { r with board := Board.wait r.board ticks }

end ChordPad
