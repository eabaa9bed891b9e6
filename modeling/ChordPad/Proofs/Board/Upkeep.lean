import ChordPad.Proofs.Board.Matrix

/-! A bench while its switches are set and its output pins are driven in any order. Each output pin
remembers what was driven onto it, and the input pins always show what the matrix makes of it. -/
namespace ChordPad.Bench
variable {inputs outputs : Nat} {bench : Bench} {input output : Nat} {level : Level}

/-- The level that is driven onto an output pin. -/
def Act.written? (output : Nat) : Act → Option Level
  | .driveOutput o level => if o = output then some level else none
  | .setSwitch _ _ _ | .driveInput _ _ => none

/-- What was driven onto an output pin, oldest first. -/
def written (acts : List Act) (output : Nat) : List Level := acts.filterMap (Act.written? output)

/-- Each output pin has the level that was driven onto it last, and remembers all of them. -/
structure Remembers (outputs : Nat) (acts : List Act) (bench : Bench) : Prop where
  length_outputs : bench.outputs.length = outputs
  pin_eq : ∀ output < outputs,
    bench.outputs[output]? = some ⟨(written acts output).getLast?, written acts output⟩

/-! The output pins. -/

theorem getElem?_outputs_act (bench : Bench) (a : Act) (output : Nat) :
    (bench.act a).outputs[output]? =
      (bench.outputs[output]?).map fun pin => (a.written? output).elim pin pin.drive := by
  cases a with
  | setSwitch i o closed => exact Option.map_id'.symm
  | driveInput i level => exact Option.map_id'.symm
  | driveOutput o level =>
    rw [act, outputs_driveOutput, List.getElem?_modify, Act.written?]
    split <;> rfl

theorem length_outputs_act (bench : Bench) (a : Act) :
    (bench.act a).outputs.length = bench.outputs.length := by
  cases a with
  | setSwitch i o closed => rfl
  | driveInput i level => rfl
  | driveOutput o level => exact length_outputs_driveOutput

theorem written_concat (acts : List Act) (a : Act) (output : Nat) :
    written (acts ++ [a]) output = written acts output ++ (a.written? output).toList := by
  rw [written, List.filterMap_append]
  cases h : a.written? output with
  | none => rw [List.filterMap_cons_none h]; rfl
  | some level => rw [List.filterMap_cons_some h]; rfl

theorem remembers_make (inputs outputs : Nat) (wired : Bool) :
    (make inputs outputs wired).Remembers outputs [] := by
  refine ⟨List.length_replicate, ?_⟩
  intro output houtput
  rw [make, List.getElem?_replicate, if_pos houtput]
  rfl

theorem Remembers.act {acts : List Act} (h : bench.Remembers outputs acts) (a : Act) :
    (bench.act a).Remembers outputs (acts ++ [a]) := by
  refine ⟨(length_outputs_act bench a).trans h.length_outputs, ?_⟩
  intro output houtput
  rw [getElem?_outputs_act, h.pin_eq output houtput, Option.map_some, written_concat]
  cases a.written? output with
  | none => rw [Option.toList_none, List.append_nil]; rfl
  | some level => rw [Option.toList_some, List.getLast?_concat]; rfl

theorem Remembers.run {before acts : List Act} (h : bench.Remembers outputs before) :
    (bench.run acts).Remembers outputs (before ++ acts) := by
  induction acts generalizing bench before with
  | nil => rwa [List.append_nil]
  | cons a acts ih =>
    have hrun := ih (h.act a)
    rwa [List.append_assoc] at hrun

theorem Remembers.wire {acts : List Act} (h : bench.Remembers outputs acts) :
    bench.wire.Remembers outputs acts := ⟨h.length_outputs, h.pin_eq⟩

theorem Remembers.levelOf_eq {acts : List Act} (h : bench.Remembers outputs acts)
    (houtput : output < outputs) : bench.levelOf output = (written acts output).getLast? := by
  rw [levelOf, h.pin_eq output houtput, Option.bind_some]

/-! The input pins. -/

theorem length_inputs_act (bench : Bench) (a : Act) :
    (bench.act a).inputs.length = bench.inputs.length := by
  cases a with
  | setSwitch i o closed => exact List.length_mapIdx
  | driveInput i level => exact List.length_modify ..
  | driveOutput o level => exact length_inputs_driveOutput

theorem length_inputs_run (bench : Bench) (acts : List Act) :
    (bench.run acts).inputs.length = bench.inputs.length := by
  induction acts generalizing bench with
  | nil => rfl
  | cons a acts ih => exact (ih (bench.act a)).trans (length_inputs_act bench a)

/-- Pins that are up to date are not changed by another refresh. -/
theorem UpToDate.refresh_eq (h : bench.UpToDate) : bench.refresh = bench := by
  have hinputs : (bench.inputs.mapIdx fun input pin =>
      { pin with level := some (if bench.pullsLow input then Level.low else Level.high) }) =
      bench.inputs := by
    refine List.ext_getElem List.length_mapIdx ?_
    intro input _ hinput
    have hlevel : bench.inputs[input].level =
        some (if bench.pullsLow input then Level.low else Level.high) := by
      rw [← h.read_eq input hinput]
      simp [Board.read, hinput]
    rw [List.getElem_mapIdx, ← hlevel]
  rw [refresh, hinputs]

/-- It does not matter that a level which does not change is not followed by a refresh. -/
theorem UpToDate.driveOutput_eq (h : bench.UpToDate) (houtput : output < bench.outputs.length)
    (level : Level) : bench.driveOutput output level =
      refresh { bench with outputs := bench.outputs.modify output (·.drive level) } := by
  obtain hdrive | ⟨hdrive, -⟩ := driveOutput_cases bench output level
  · exact hdrive
  · rw [← hdrive, (h.driveOutput houtput).refresh_eq]

theorem lt_length_of_levelOf (h : bench.levelOf output = some level) :
    output < bench.outputs.length := by
  obtain ⟨pin, hpin, -⟩ := Option.bind_eq_some_iff.1 h
  exact (List.getElem?_eq_some_iff.1 hpin).1

theorem Joins.reads_low_or_high {closed : Nat → Nat → Bool} (h : bench.Joins inputs outputs closed)
    (hinput : input < inputs) :
    (Board.read bench input).2 = some .low ∨ (Board.read bench input).2 = some .high := by
  rw [h.upToDate.read_eq input (by rwa [h.length_inputs])]
  cases bench.pullsLow input with
  | false => exact .inr rfl
  | true => exact .inl rfl

theorem Joins.reads_low_iff {closed : Nat → Nat → Bool} (h : bench.Joins inputs outputs closed)
    (hinput : input < inputs) : (Board.read bench input).2 = some .low ↔
      ∃ output < outputs, bench.levelOf output = some .low ∧ closed input output = true := by
  have hread : (Board.read bench input).2 = some .low ↔ bench.pullsLow input = true := by
    rw [h.upToDate.read_eq input (by rwa [h.length_inputs])]
    cases bench.pullsLow input <;> decide
  rw [hread, pullsLow_iff]
  constructor
  · intro hlow
    obtain ⟨output, hlevel, hclosed⟩ := hlow
    have houtput : output < outputs := h.length_outputs ▸ lt_length_of_levelOf hlevel
    exact ⟨output, houtput, hlevel, h.isClosed_eq input hinput output houtput ▸ hclosed⟩
  · intro hlow
    obtain ⟨output, houtput, hlevel, hclosed⟩ := hlow
    exact ⟨output, hlevel, h.isClosed_eq input hinput output houtput ▸ hclosed⟩

/-! The matrix at any time. -/

theorem remembers_wire_run (inputs : Nat) (early : List Act) :
    ((make inputs outputs false).run early).wire.Remembers outputs early :=
  (remembers_make inputs outputs false).run.wire

theorem joins_wire_run (early : List Act) :
    ((make inputs outputs false).run early).wire.Joins inputs outputs (closedAfter []) := by
  have hinputs : ((make inputs outputs false).run early).inputs.length = inputs :=
    (length_inputs_run _ early).trans List.length_replicate
  have houtputs : ((make inputs outputs false).run early).outputs.length = outputs :=
    (remembers_wire_run inputs early).length_outputs
  have hwire := joins_wire ((make inputs outputs false).run early)
  rwa [hinputs, houtputs] at hwire

/-- Pins are joined by a matrix, whatever was done to them before. After any settings of its switches
and writes to its output pins, an input pin reads low exactly when some output pin was driven low last
and the switch between the two was closed last, and else high; every output pin remembers what was
driven onto it; and to refresh the matrix at a level that does not change would change nothing. -/
theorem inputs_always_up_to_date {early acts : List Act} (hacts : ∀ a ∈ acts, a.Works inputs outputs) :
    let bench := ((make inputs outputs false).run early).wire.run acts
    let past := early ++ acts
    (∀ input < inputs,
      ((Board.read bench input).2 = some .low ↔ ∃ output < outputs,
        (written past output).getLast? = some .low ∧ closedAfter acts input output = true) ∧
      ((Board.read bench input).2 = some .low ∨ (Board.read bench input).2 = some .high)) ∧
    (∀ output < outputs,
      bench.outputs[output]? = some ⟨(written past output).getLast?, written past output⟩) ∧
    ∀ output < outputs, ∀ level, bench.driveOutput output level =
      refresh { bench with outputs := bench.outputs.modify output (·.drive level) } := by
  intro bench past
  have hpast : bench.Remembers outputs past := (remembers_wire_run inputs early).run
  have hjoins : bench.Joins inputs outputs (closedAfter acts) := (joins_wire_run early).run hacts
  refine ⟨?_, hpast.pin_eq, ?_⟩
  · intro input hinput
    refine ⟨?_, hjoins.reads_low_or_high hinput⟩
    rw [hjoins.reads_low_iff hinput]
    refine exists_congr fun output => and_congr_right fun houtput => ?_
    rw [hpast.levelOf_eq houtput]
  · intro output houtput level
    exact hjoins.upToDate.driveOutput_eq (by rwa [hjoins.length_outputs]) level

/-- One output pin was low before there was a matrix, both are low together for a while, and one of them
is driven low twice. An input pin had been driven low too. -/
theorem inputs_always_up_to_date_bothLow :
    let early : List Act := [.driveOutput 1 .low, .driveInput 1 .low]
    let acts : List Act := [.setSwitch 0 1 true, .driveOutput 0 .low, .setSwitch 1 0 true,
      .driveOutput 0 .low, .setSwitch 0 0 true, .setSwitch 1 0 false, .driveOutput 1 .high]
    let bench := ((make 2 2 false).run early).wire.run acts
    (∀ a ∈ acts, a.Works 2 2) ∧
    (Board.read bench 0).2 = some .low ∧ (Board.read bench 1).2 = some .high ∧
    bench.outputs[0]? = some ⟨some .low, [.low, .low]⟩ ∧
    bench.outputs[1]? = some ⟨some .high, [.low, .high]⟩ ∧
    bench.driveOutput 0 .low =
      refresh { bench with outputs := bench.outputs.modify 0 (·.drive .low) } := by
  intro early acts bench
  have hacts : ∀ a ∈ acts, a.Works 2 2 := by decide
  obtain ⟨hreads, hpins, hdrives⟩ := @inputs_always_up_to_date 2 2 early acts hacts
  have hlow := (hreads 0 (by decide)).1.2 ⟨0, by decide, rfl, rfl⟩
  have hhigh := (hreads 1 (by decide)).2.resolve_left (mt (hreads 1 (by decide)).1.1 (by decide))
  exact ⟨hacts, hlow, hhigh, hpins 0 (by decide), hpins 1 (by decide), hdrives 0 (by decide) .low⟩

end ChordPad.Bench
