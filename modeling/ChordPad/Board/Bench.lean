import ChordPad.Board

/-! A bench of pins, with or without a switch matrix between them. Every pin remembers what was
driven onto it. The matrix watches the output pins: when one changes its level, or a switch is set,
every input pin is pulled low or let up again. -/
namespace ChordPad

/-- A pin has no level until one is given to it; reading it then fails. -/
structure Pin where
  level : Option Level := none
  /-- The levels driven onto the pin, oldest first. -/
  history : List Level := []
  deriving DecidableEq, Repr

def Pin.drive (pin : Pin) (level : Level) : Pin := ⟨some level, pin.history ++ [level]⟩

structure Bench where
  inputs : List Pin
  outputs : List Pin
  wired : Bool
  /-- The closed switches, those of one input next to each other. -/
  switches : List Bool
  time : Nat := 1000

namespace Bench

/-- Pins without a level, the inputs pulled up where a matrix joins them. -/
def make (inputs outputs : Nat) (wired : Bool) : Bench where
  inputs := List.replicate inputs { level := if wired then some .high else none }
  outputs := List.replicate outputs {}
  wired
  switches := List.replicate (inputs * outputs) false

/-- Joins the pins by a matrix of open switches. Whatever was driven onto the inputs, they are pulled
up. -/
def wire (bench : Bench) : Bench :=
  { bench with
    inputs := bench.inputs.map fun pin => { pin with level := some .high }
    wired := true
    switches := List.replicate (bench.inputs.length * bench.outputs.length) false }

theorem wire_make (inputs outputs : Nat) :
    (make inputs outputs false).wire = make inputs outputs true := by
  simp [make, wire]

/-- The number of a switch. An output beyond the last one is counted on into the next input. -/
def switchNumber (bench : Bench) (input output : Nat) : Nat := input * bench.outputs.length + output

def isClosed (bench : Bench) (input output : Nat) : Bool :=
  bench.switches[bench.switchNumber input output]? == some true

/-- A closed switch joins the input to an output that is low. -/
def pullsLow (bench : Bench) (input : Nat) : Bool :=
  bench.outputs.zipIdx.any fun (pin, output) =>
    pin.level == some .low && bench.isClosed input output

def refresh (bench : Bench) : Bench :=
  { bench with
    inputs := bench.inputs.mapIdx fun input pin =>
      { pin with level := some (if bench.pullsLow input then .low else .high) } }

def setSwitch (bench : Bench) (input output : Nat) (closed : Bool) : Bench :=
  refresh { bench with switches := bench.switches.set (bench.switchNumber input output) closed }

theorem switchNumber_inj {bench : Bench} {input output i o : Nat}
    (ho : o < bench.outputs.length) (houtput : output < bench.outputs.length) :
    bench.switchNumber i o = bench.switchNumber input output ↔ i = input ∧ o = output := by
  have line {a b : Nat} (hb : b < bench.outputs.length) :
      bench.switchNumber a b / bench.outputs.length = a := by
    rw [switchNumber, Nat.mul_comm, Nat.mul_add_div (by omega), Nat.div_eq_of_lt hb, Nat.add_zero]
  constructor
  · intro h
    have hi : i = input := by rw [← line (a := i) ho, h, line houtput]
    subst hi
    simpa [switchNumber] using h
  · rintro ⟨rfl, rfl⟩
    rfl

theorem isClosed_setSwitch {bench : Bench} {input output i o : Nat} (closed : Bool)
    (hnumber : bench.switchNumber input output < bench.switches.length)
    (houtput : output < bench.outputs.length) (ho : o < bench.outputs.length) :
    (bench.setSwitch input output closed).isClosed i o =
      if i = input ∧ o = output then closed else bench.isClosed i o := by
  have hset : (bench.setSwitch input output closed).isClosed i o =
      ((bench.switches.set (bench.switchNumber input output) closed)[bench.switchNumber i o]? ==
        some true) := rfl
  rw [hset, List.getElem?_set]
  by_cases h : i = input ∧ o = output
  · rw [if_pos ((switchNumber_inj ho houtput).2 h).symm, if_pos hnumber, if_pos h]
    cases closed <;> rfl
  · rw [if_neg (fun hn => h ((switchNumber_inj ho houtput).1 hn.symm)), if_neg h]
    rfl

/-- Drives an input pin. The matrix does not watch it. -/
def driveInput (bench : Bench) (input : Nat) (level : Level) : Bench :=
  { bench with inputs := bench.inputs.modify input (·.drive level) }

/-- Drives an output pin. The matrix is told when the level changes. -/
def driveOutput (bench : Bench) (output : Nat) (level : Level) : Bench :=
  let driven := { bench with outputs := bench.outputs.modify output (·.drive level) }
  let before := (bench.outputs[output]?).bind (·.level)
  if bench.wired ∧ before ≠ some level then driven.refresh else driven

inductive Act
  | setSwitch (input output : Nat) (closed : Bool)
  | driveInput (input : Nat) (level : Level)
  | driveOutput (output : Nat) (level : Level)
  deriving DecidableEq, Repr

/-- The bench has the switch or the pin that this is done to. -/
def Act.fits (bench : Bench) : Act → Bool
  | .setSwitch input output _ => bench.switchNumber input output < bench.switches.length
  | .driveInput input _ => input < bench.inputs.length
  | .driveOutput output _ => output < bench.outputs.length

def act (bench : Bench) : Act → Bench
  | .setSwitch input output closed => bench.setSwitch input output closed
  | .driveInput input level => bench.driveInput input level
  | .driveOutput output level => bench.driveOutput output level

def run : List Act → Bench → Bench
  | [], bench => bench
  | a :: acts, bench => run acts (bench.act a)

instance : Board Bench where
  now bench := bench.time
  drive bench output level := (bench.driveOutput output level, true)
  read bench input := (bench, (bench.inputs[input]?).bind (·.level))
  wait bench ticks := { bench with time := bench.time + ticks }

end Bench
end ChordPad
