import ChordPad.Board.Bench
import ChordPad.Proofs.Board.Scanning

/-! The switch matrix of a bench. Its input pins always show its switches and the levels of its
output pins, since it refreshes them whenever one of either changes. A scan holds one output pin low
at a time, so what it reads is the state of the switches of that pin. -/
namespace ChordPad.Bench

/-- The level of an output pin. -/
def levelOf (bench : Bench) (output : Nat) : Option Level :=
  (bench.outputs[output]?).bind (·.level)

/-- The input pins show what the output pins and the switches make of them. -/
structure UpToDate (bench : Bench) : Prop where
  wired : bench.wired = true
  length_switches : bench.switches.length = bench.inputs.length * bench.outputs.length
  read_eq : ∀ input < bench.inputs.length,
    (Board.read bench input).2 = some (if bench.pullsLow input then .low else .high)

section Operations
variable {bench : Bench} {input output other : Nat} {level : Level}

theorem pullsLow_iff : bench.pullsLow input = true ↔
    ∃ output, bench.levelOf output = some .low ∧ bench.isClosed input output = true := by
  simp only [pullsLow, List.any_eq_true, Bool.and_eq_true, beq_iff_eq, levelOf,
    Option.bind_eq_some_iff]
  constructor
  · rintro ⟨⟨pin, output⟩, hmem, hlevel, hclosed⟩
    exact ⟨output, ⟨pin, List.mem_zipIdx_iff_getElem?.1 hmem, hlevel⟩, hclosed⟩
  · rintro ⟨output, ⟨pin, hpin, hlevel⟩, hclosed⟩
    exact ⟨(pin, output), List.mem_zipIdx_iff_getElem?.2 hpin, hlevel, hclosed⟩

theorem pullsLow_congr {after : Bench} (hlevels : ∀ o, after.levelOf o = bench.levelOf o)
    (hclosed : ∀ o, after.isClosed input o = bench.isClosed input o) :
    after.pullsLow input = bench.pullsLow input := by
  rw [Bool.eq_iff_iff, pullsLow_iff, pullsLow_iff]
  simp only [hlevels, hclosed]

theorem upToDate_refresh (hwired : bench.wired = true)
    (hlength : bench.switches.length = bench.inputs.length * bench.outputs.length) :
    bench.refresh.UpToDate := by
  have hinputs : bench.refresh.inputs.length = bench.inputs.length := List.length_mapIdx
  refine ⟨hwired, by rw [hinputs]; exact hlength, ?_⟩
  intro input hinput
  rw [hinputs] at hinput
  have hpin : (bench.refresh.inputs[input]?).bind (·.level) =
      some (if bench.pullsLow input then .low else .high) := by
    rw [refresh, List.getElem?_mapIdx, List.getElem?_eq_getElem hinput]
    rfl
  exact hpin

theorem UpToDate.setSwitch (h : bench.UpToDate) (input output : Nat) (closed : Bool) :
    (bench.setSwitch input output closed).UpToDate :=
  upToDate_refresh h.wired (by rw [List.length_set]; exact h.length_switches)

theorem driveOutput_cases (bench : Bench) (output : Nat) (level : Level) :
    let driven := { bench with outputs := bench.outputs.modify output (·.drive level) }
    bench.driveOutput output level = driven.refresh ∨
      bench.driveOutput output level = driven ∧
        (bench.wired = false ∨ bench.levelOf output = some level) := by
  intro driven
  rw [driveOutput]
  split
  · exact .inl rfl
  · rename_i hkept
    refine .inr ⟨rfl, ?_⟩
    rw [levelOf]
    cases hwired : bench.wired with
    | false => exact .inl rfl
    | true => exact .inr (by simpa [hwired] using hkept)

theorem outputs_driveOutput : (bench.driveOutput output level).outputs =
    bench.outputs.modify output (·.drive level) := by
  obtain h | ⟨h, -⟩ := driveOutput_cases bench output level
  · rw [h]; rfl
  · rw [h]

theorem levelOf_driveOutput (houtput : output < bench.outputs.length) :
    (bench.driveOutput output level).levelOf other =
      if output = other then some level else bench.levelOf other := by
  rw [levelOf, outputs_driveOutput, List.getElem?_modify, levelOf]
  by_cases hother : output = other
  · subst hother
    simp [Pin.drive, houtput]
  · simp [hother]

theorem length_outputs_driveOutput :
    (bench.driveOutput output level).outputs.length = bench.outputs.length := by
  rw [outputs_driveOutput, List.length_modify]

theorem length_inputs_driveOutput :
    (bench.driveOutput output level).inputs.length = bench.inputs.length := by
  rcases driveOutput_cases bench output level with h | ⟨h, -⟩
  · rw [h]; exact List.length_mapIdx
  · rw [h]

theorem switches_driveOutput :
    (bench.driveOutput output level).switches = bench.switches := by
  rcases driveOutput_cases bench output level with h | ⟨h, -⟩
  · rw [h]; rfl
  · rw [h]

theorem isClosed_driveOutput :
    (bench.driveOutput output level).isClosed input other = bench.isClosed input other := by
  rw [isClosed, isClosed, switchNumber, switchNumber, length_outputs_driveOutput,
    switches_driveOutput]

/-- A level that does not change needs no refresh. -/
theorem UpToDate.driveOutput (h : bench.UpToDate) (houtput : output < bench.outputs.length) :
    (bench.driveOutput output level).UpToDate := by
  have hlength : (bench.driveOutput output level).switches.length =
      (bench.driveOutput output level).inputs.length *
        (bench.driveOutput output level).outputs.length := by
    rw [switches_driveOutput, length_inputs_driveOutput, length_outputs_driveOutput]
    exact h.length_switches
  rcases driveOutput_cases bench output level with hdrive | ⟨hdrive, hkept⟩
  · rw [hdrive]
    exact upToDate_refresh h.wired (by rw [List.length_modify]; exact h.length_switches)
  · have hlevel : bench.levelOf output = some level :=
      hkept.resolve_left (by rw [h.wired]; decide)
    refine ⟨by rw [hdrive]; exact h.wired, hlength, ?_⟩
    have hlevels (o : Nat) : (bench.driveOutput output level).levelOf o = bench.levelOf o := by
      rw [levelOf_driveOutput houtput]
      split
      · rename_i hsame
        rw [← hsame, hlevel]
      · rfl
    intro input hinput
    rw [length_inputs_driveOutput] at hinput
    rw [pullsLow_congr hlevels fun o => isClosed_driveOutput, ← h.read_eq input hinput, hdrive]
    rfl

theorem isClosed_wire (bench : Bench) (input output : Nat) :
    bench.wire.isClosed input output = false := by
  simp [isClosed, wire, List.getElem?_replicate]

/-- With all switches open no input is pulled down, whatever was driven onto the output pins. -/
theorem upToDate_wire (bench : Bench) : bench.wire.UpToDate := by
  refine ⟨rfl, by simp [wire], ?_⟩
  intro input hinput
  have hlow : bench.wire.pullsLow input = false := by
    rw [← Bool.not_eq_true, pullsLow_iff]
    simp [isClosed_wire]
  have hinput : input < bench.inputs.length := by simpa [wire] using hinput
  have hpin : (bench.wire.inputs[input]?).bind (·.level) = some .high := by
    simp [wire, hinput]
  rw [hlow]
  exact hpin

end Operations

/-- A matrix of this size, with these switches closed. -/
structure Joins (inputs outputs : Nat) (closed : Nat → Nat → Bool) (bench : Bench) : Prop where
  upToDate : bench.UpToDate
  length_inputs : bench.inputs.length = inputs
  length_outputs : bench.outputs.length = outputs
  isClosed_eq : ∀ input < inputs, ∀ output < outputs,
    bench.isClosed input output = closed input output

/-- Between scans all output pins are high. -/
structure AtRest (inputs outputs : Nat) (closed : Nat → Nat → Bool) (bench : Bench) : Prop extends
    bench.Joins inputs outputs closed where
  level_eq : ∀ output < outputs, bench.levelOf output = some .high

/-- One of the switches is set, and nothing else happens. -/
def Act.SetsSwitch (inputs outputs : Nat) : Act → Prop
  | .setSwitch input output _ => input < inputs ∧ output < outputs
  | .driveInput _ _ | .driveOutput _ _ => False

instance (inputs outputs : Nat) : (a : Act) → Decidable (a.SetsSwitch inputs outputs)
  | .setSwitch input output _ => inferInstanceAs (Decidable (input < inputs ∧ output < outputs))
  | .driveInput _ _ | .driveOutput _ _ => inferInstanceAs (Decidable False)

/-- One of the switches is set, or one of the output pins is driven. -/
def Act.Works (inputs outputs : Nat) : Act → Prop
  | .setSwitch input output _ => input < inputs ∧ output < outputs
  | .driveOutput output _ => output < outputs
  | .driveInput _ _ => False

instance (inputs outputs : Nat) : (a : Act) → Decidable (a.Works inputs outputs)
  | .setSwitch input output _ => inferInstanceAs (Decidable (input < inputs ∧ output < outputs))
  | .driveOutput output _ => inferInstanceAs (Decidable (output < outputs))
  | .driveInput _ _ => inferInstanceAs (Decidable False)

theorem Act.SetsSwitch.works {inputs outputs : Nat} {a : Act} (h : a.SetsSwitch inputs outputs) :
    a.Works inputs outputs := by
  cases a with
  | setSwitch input output closed => exact h
  | driveInput input level => exact h.elim
  | driveOutput output level => exact h.elim

/-- Whether a switch is closed after something was done. -/
def Act.closes (input output : Nat) (before : Bool) : Act → Bool
  | .setSwitch i o closed => if input = i ∧ output = o then closed else before
  | .driveInput _ _ | .driveOutput _ _ => before

/-- A switch is as it was set last, and open at first. -/
def closedAfter (acts : List Act) (input output : Nat) : Bool :=
  acts.foldl (Act.closes input output) false

/-- Things are done to the bench, and then its clock shows a time. -/
def handle (time : Nat) (acts : List Act) (bench : Bench) : Bench := { run acts bench with time }

section Joined
variable {inputs outputs : Nat} {closed : Nat → Nat → Bool} {bench : Bench} {input output : Nat}

theorem joins_wire (bench : Bench) :
    bench.wire.Joins bench.inputs.length bench.outputs.length (closedAfter []) :=
  ⟨upToDate_wire bench, List.length_map _, rfl, fun _ _ _ _ => isClosed_wire bench _ _⟩

theorem joins_make (inputs outputs : Nat) :
    (make inputs outputs true).Joins inputs outputs (closedAfter []) := by
  have hwire := joins_wire (make inputs outputs false)
  have hinputs : (make inputs outputs false).inputs.length = inputs := List.length_replicate
  have houtputs : (make inputs outputs false).outputs.length = outputs := List.length_replicate
  rwa [wire_make, hinputs, houtputs] at hwire

theorem Joins.driveOutput (h : bench.Joins inputs outputs closed) (level : Level)
    (houtput : output < outputs) :
    (bench.driveOutput output level).Joins inputs outputs closed where
  upToDate := h.upToDate.driveOutput (by rwa [h.length_outputs])
  length_inputs := length_inputs_driveOutput.trans h.length_inputs
  length_outputs := length_outputs_driveOutput.trans h.length_outputs
  isClosed_eq i hi o ho := isClosed_driveOutput.trans (h.isClosed_eq i hi o ho)

theorem Joins.act (h : bench.Joins inputs outputs closed) {a : Act}
    (ha : a.Works inputs outputs) :
    (bench.act a).Joins inputs outputs fun i o => a.closes i o (closed i o) := by
  cases a with
  | setSwitch i o shut =>
    obtain ⟨hi, ho⟩ := ha
    rw [← h.length_outputs] at ho
    have hnumber : bench.switchNumber i o < bench.switches.length := by
      rw [h.upToDate.length_switches, h.length_inputs]
      exact KeyLayout.slot_lt_mul hi ho
    refine ⟨h.upToDate.setSwitch i o shut, ?_, h.length_outputs, ?_⟩
    · exact List.length_mapIdx.trans h.length_inputs
    · intro input hinput output houtput
      have hswitch := isClosed_setSwitch (i := input) (o := output) shut hnumber ho
        (by rwa [h.length_outputs])
      rw [h.isClosed_eq input hinput output houtput] at hswitch
      exact hswitch
  | driveInput i level => exact ha.elim
  | driveOutput o level => exact h.driveOutput level ha

theorem Joins.run {acts before : List Act} (h : bench.Joins inputs outputs (closedAfter before))
    (hacts : ∀ a ∈ acts, a.Works inputs outputs) :
    (bench.run acts).Joins inputs outputs (closedAfter (before ++ acts)) := by
  induction acts generalizing bench before with
  | nil => rwa [List.append_nil]
  | cons a acts ih =>
    obtain ⟨ha, hacts⟩ := List.forall_mem_cons.1 hacts
    have hact := h.act ha
    have hclosed : (fun i o => a.closes i o (closedAfter before i o)) =
        closedAfter (before ++ [a]) := by
      funext i o
      rw [closedAfter, closedAfter, List.foldl_append]
      rfl
    rw [hclosed] at hact
    have hrun := ih hact hacts
    rwa [List.append_assoc] at hrun

theorem Joins.handle {acts before : List Act} (h : bench.Joins inputs outputs (closedAfter before))
    (hacts : ∀ a ∈ acts, a.SetsSwitch inputs outputs) (time : Nat) :
    (bench.handle time acts).Joins inputs outputs (closedAfter (before ++ acts)) := by
  obtain ⟨hup, hinputs, houtputs, hclosed⟩ := h.run fun a ha => (hacts a ha).works
  exact ⟨⟨hup.wired, hup.length_switches, hup.read_eq⟩, hinputs, houtputs, hclosed⟩

theorem levelOf_run {acts : List Act} (hacts : ∀ a ∈ acts, a.SetsSwitch inputs outputs) :
    (bench.run acts).levelOf output = bench.levelOf output := by
  induction acts generalizing bench with
  | nil => rfl
  | cons a acts ih =>
    obtain ⟨ha, hacts⟩ := List.forall_mem_cons.1 hacts
    have hact : (bench.act a).levelOf output = bench.levelOf output := by
      cases a with
      | setSwitch i o shut => rfl
      | driveInput i level => exact ha.elim
      | driveOutput o level => exact ha.elim
    exact (ih hacts).trans hact

theorem AtRest.handle {acts before : List Act}
    (h : bench.AtRest inputs outputs (closedAfter before))
    (hacts : ∀ a ∈ acts, a.SetsSwitch inputs outputs) (time : Nat) :
    (bench.handle time acts).AtRest inputs outputs (closedAfter (before ++ acts)) :=
  ⟨h.toJoins.handle hacts time, fun o ho => (levelOf_run hacts).trans (h.level_eq o ho)⟩

theorem Joins.release (h : bench.Joins inputs outputs closed) {lines : List Nat}
    (hlines : ∀ line ∈ lines, line < outputs) :
    (Board.release bench lines).Joins inputs outputs closed ∧
      ∀ output, (Board.release bench lines).levelOf output =
        if output ∈ lines then some .high else bench.levelOf output := by
  induction lines generalizing bench with
  | nil => exact ⟨h, fun _ => rfl⟩
  | cons line lines ih =>
    obtain ⟨hline, hlines⟩ := List.forall_mem_cons.1 hlines
    obtain ⟨hjoins, hlevel⟩ := ih (h.driveOutput .high hline) hlines
    refine ⟨hjoins, ?_⟩
    intro output
    refine (hlevel output).trans ?_
    rw [levelOf_driveOutput (by rwa [h.length_outputs])]
    by_cases hmem : output ∈ lines
    · simp [hmem]
    · simp [hmem, eq_comm]

theorem Joins.atRest_release (h : bench.Joins inputs outputs closed) :
    (Board.release bench (List.range outputs)).AtRest inputs outputs closed := by
  obtain ⟨hjoins, hlevels⟩ := h.release fun _ hline => List.mem_range.1 hline
  refine ⟨hjoins, ?_⟩
  intro o ho
  rw [hlevels, if_pos (List.mem_range.2 ho)]

theorem AtRest.level_ne_low (h : bench.AtRest inputs outputs closed) :
    bench.levelOf output ≠ some .low := by
  by_cases houtput : output < outputs
  · rw [h.level_eq output houtput]
    decide
  · rw [levelOf, List.getElem?_eq_none (by rw [h.length_outputs]; omega)]
    decide

/-- No line is low, so no closed switch pulls an input down. -/
theorem AtRest.read_eq (h : bench.AtRest inputs outputs closed) (hinput : input < inputs) :
    (Board.read bench input).2 = some .high := by
  have hlow : bench.pullsLow input = false := by
    rw [← Bool.not_eq_true, pullsLow_iff]
    rintro ⟨output, hlevel, -⟩
    exact h.level_ne_low hlevel
  rw [h.upToDate.read_eq input (by rwa [h.length_inputs]), hlow]
  rfl

/-- While one line is low, its switches alone decide. -/
theorem AtRest.pullsLow_selected (h : bench.AtRest inputs outputs closed) (hinput : input < inputs)
    (houtput : output < outputs) :
    (bench.driveOutput output .low).pullsLow input = closed input output := by
  have hlevel (o : Nat) : (bench.driveOutput output .low).levelOf o =
      if output = o then some .low else bench.levelOf o :=
    levelOf_driveOutput (by rwa [h.length_outputs])
  rw [← h.isClosed_eq input hinput output houtput, Bool.eq_iff_iff, pullsLow_iff]
  constructor
  · rintro ⟨o, hlow, hclosed⟩
    rw [hlevel] at hlow
    rw [isClosed_driveOutput] at hclosed
    split at hlow
    · rename_i hsame
      rwa [hsame]
    · exact absurd hlow h.level_ne_low
  · intro hclosed
    exact ⟨output, by rw [hlevel, if_pos rfl], by rwa [isClosed_driveOutput]⟩

end Joined

section Sampling
variable {inputs outputs : Nat} {closed : Nat → Nat → Bool} {bench : Bench} {input output : Nat}

theorem readInputs_eq (bench : Bench) (lines : List Nat) :
    Board.readInputs bench lines =
      (bench, lines.map fun input => (Board.read bench input).2 == some .low) := by
  induction lines with
  | nil => rfl
  | cons line lines ih =>
    rw [Board.readInputs]
    change (let (b, contacts) := Board.readInputs bench lines
      (b, ((Board.read bench line).2 == some Level.low) :: contacts)) = _
    rw [ih]
    rfl

theorem sampleLine_eq (bench : Bench) (inputs output : Nat) :
    Board.sampleLine 0 inputs bench output =
      ((bench.driveOutput output .low).driveOutput output .high,
        (List.range inputs).map fun input =>
          (Board.read (bench.driveOutput output .low) input).2 == some .low) := by
  have hread := readInputs_eq (bench.driveOutput output .low) (List.range inputs)
  rw [Board.sampleLine]
  change (let (b, contacts) :=
      Board.readInputs (bench.driveOutput output .low) (List.range inputs)
    ((Board.drive b output .high).1, contacts)) = _
  rw [hread]
  rfl

/-- Sampling a line finds its switches and puts the matrix to rest again. -/
theorem AtRest.sampleLine (h : bench.AtRest inputs outputs closed) (houtput : output < outputs) :
    (Board.sampleLine 0 inputs bench output).1.AtRest inputs outputs closed ∧
      (Board.sampleLine 0 inputs bench output).2 =
        (List.range inputs).map fun input => closed input output := by
  have hlow := h.toJoins.driveOutput .low houtput
  rw [sampleLine_eq]
  refine ⟨⟨hlow.driveOutput .high houtput, ?_⟩, List.map_congr_left ?_⟩
  · intro o ho
    rw [levelOf_driveOutput (by rwa [hlow.length_outputs]),
      levelOf_driveOutput (by rwa [h.length_outputs]), h.level_eq o ho]
    split <;> rfl
  · intro i hi
    have hi := List.mem_range.1 hi
    rw [hlow.upToDate.read_eq i (by rwa [hlow.length_inputs]), h.pullsLow_selected hi houtput]
    cases closed i output <;> rfl

theorem AtRest.sampleLines (h : bench.AtRest inputs outputs closed) {lines : List Nat}
    (hlines : ∀ line ∈ lines, line < outputs) :
    (Board.sampleLines 0 inputs bench lines).1.AtRest inputs outputs closed ∧
      (Board.sampleLines 0 inputs bench lines).2 =
        lines.map fun output => (List.range inputs).map fun input => closed input output := by
  induction lines generalizing bench with
  | nil => exact ⟨h, rfl⟩
  | cons line lines ih =>
    obtain ⟨hline, hlines⟩ := List.forall_mem_cons.1 hlines
    obtain ⟨hnext, hcontacts⟩ := h.sampleLine hline
    obtain ⟨hlast, hsamples⟩ := ih hnext hlines
    refine ⟨hlast, ?_⟩
    rw [List.map_cons, ← hcontacts, ← hsamples]
    rfl

theorem contactIn_map_range (hinput : input < inputs) (houtput : output < outputs) :
    Board.contactIn ((List.range outputs).map fun output =>
      (List.range inputs).map fun input => closed input output) output input =
      closed input output := by
  simp [Board.contactIn, hinput, houtput]

end Sampling
end ChordPad.Bench

namespace ChordPad.Scanner
open Bench

section Scans
variable {s : Scanner} {bench : Bench} {inputs outputs : Nat} {closed : Nat → Nat → Bool}

/-- A scan without a pause keeps what the switches are. -/
theorem scan_atRest (hs : s.Sound) (hpause : s.config.selectPause = 0) (hinputs : s.inputs = inputs)
    (houtputs : s.outputs = outputs) (h : bench.AtRest inputs outputs closed) :
    (s.scan bench).2.1.AtRest inputs outputs closed ∧
      ∀ output < outputs, ∀ input < inputs,
        ((s.scan bench).1.switchOn output input).raw = closed input output := by
  obtain ⟨hrest, hsamples⟩ := h.sampleLines fun _ hline => List.mem_range.1 hline
  constructor
  · rwa [scan_board, hpause, hinputs, houtputs]
  · intro output houtput input hinput
    rw [raw_switchOn_scan hs bench (by rwa [houtputs]) (by rwa [hinputs]), hpause, hinputs,
      houtputs, hsamples, contactIn_map_range hinput houtput]

theorem watch_atRest {history : List (Nat × List Act)} {before : List Act} (hs : s.Sound)
    (hpause : s.config.selectPause = 0) (hinputs : s.inputs = inputs)
    (houtputs : s.outputs = outputs)
    (h : bench.AtRest inputs outputs (closedAfter before))
    (hacts : ∀ a ∈ history.flatMap (·.2), a.SetsSwitch inputs outputs) :
    (s.watch bench (history.map fun (time, acts) => Bench.handle time acts)).2.AtRest inputs outputs
      (closedAfter (before ++ history.flatMap (·.2))) := by
  induction history generalizing s bench before with
  | nil => rwa [List.flatMap_nil, List.append_nil]
  | cons visit history ih =>
    obtain ⟨time, acts⟩ := visit
    rw [List.flatMap_cons] at hacts ⊢
    obtain ⟨hfirst, hrest⟩ := List.forall_mem_append.1 hacts
    have hscan := (scan_atRest hs hpause hinputs houtputs (h.handle hfirst time)).1
    have hwatch := ih (hs.scan (bench.handle time acts)) hpause hinputs houtputs hscan hrest
    rw [List.append_assoc] at hwatch
    exact hwatch

end Scans

/-- On a matrix whose switches are set at will between the scans, a scanner without a pause finds
each switch as it is, whichever others are closed. Between the scans all pins are high. -/
theorem scans_true_matrix {rows : List (List KeyCode)} {width : Nat} {layout : KeyLayout}
    (hrows : ∀ row ∈ rows, row.length = width) (hlayout : KeyLayout.ofRows rows = .ok layout)
    {config : ScanConfig} (hpause : config.selectPause = 0) {outputs inputs : Nat}
    (hfits : (layout.rows, layout.cols) =
      if config.rowsDriven then (outputs, inputs) else (inputs, outputs))
    (capacity : Nat) {early : List Act} (hearly : ∀ a ∈ early, a.SetsSwitch inputs outputs) :
    ∃ s bench, start layout config capacity outputs inputs
        ((Bench.make inputs outputs true).run early) = .ok (s, bench) ∧
      ∀ (history : List (Nat × List Act)) (time : Nat) (acts : List Act),
        let past := history.flatMap (·.2) ++ acts
        (∀ a ∈ past, a.SetsSwitch inputs outputs) →
        let rest := s.watch bench (history.map fun (time, acts) => Bench.handle time acts)
        let bench := rest.2.handle time acts
        (∀ output < outputs, bench.levelOf output = some .high) ∧
        (∀ input < inputs, (Board.read bench input).2 = some .high) ∧
        ∀ output < outputs, ∀ input < inputs,
          ((rest.1.scan bench).1.switchOn output input).raw =
            closedAfter (early ++ past) input output := by
  obtain ⟨s, hstart, hs, hconfig, houtputs, hinputs⟩ :=
    exists_start hrows hlayout hfits capacity ((Bench.make inputs outputs true).run early)
  refine ⟨s, _, hstart, ?_⟩
  intro history time acts past hpast rest bench
  obtain ⟨hhistory, hacts⟩ := List.forall_mem_append.1 hpast
  have hfirst := ((joins_make inputs outputs).run fun a ha => (hearly a ha).works).atRest_release
  have hquiet := watch_atRest hs (by rw [hconfig, hpause]) hinputs houtputs hfirst hhistory
  have hrest := hquiet.handle hacts time
  rw [List.append_assoc] at hrest
  refine ⟨hrest.level_eq, fun _ hinput => hrest.read_eq hinput, ?_⟩
  have hsound : rest.1.Sound := hs.watch _ _
  refine (scan_atRest hsound ?_ ?_ ?_ hrest).2
  · rw [watch_config, hconfig, hpause]
  · rw [inputs_watch, hinputs]
  · rw [outputs_watch, houtputs]

/-- Three of four switches are closed. The fourth one was closed before the first scan. -/
theorem scans_true_matrix_threeClosed :
    let rows : List (List KeyCode) := [[0x04, 0x05], [0x06, 0x00]]
    let layout : KeyLayout := ⟨rows.flatten, 2⟩
    let config : ScanConfig := ⟨.passes 2, true, 0⟩
    let early : List Act := [.setSwitch 0 0 true, .setSwitch 0 1 true]
    let history : List (Nat × List Act) := [(1001, [.setSwitch 1 0 true, .setSwitch 0 1 false])]
    (∀ row ∈ rows, row.length = 2) ∧ KeyLayout.ofRows rows = .ok layout ∧
    config.selectPause = 0 ∧
    (layout.rows, layout.cols) = (if config.rowsDriven then (2, 2) else (2, 2)) ∧
    (∀ a ∈ early ++ history.flatMap (·.2) ++ [.setSwitch 1 1 true], a.SetsSwitch 2 2) ∧
    ∃ s bench, start layout config 8 2 2 ((Bench.make 2 2 true).run early) = .ok (s, bench) ∧
      let rest := s.watch bench (history.map fun (time, acts) => Bench.handle time acts)
      let bench := rest.2.handle 1002 [.setSwitch 1 1 true]
      (∀ output < 2, bench.levelOf output = some .high) ∧
      (∀ input < 2, (Board.read bench input).2 = some .high) ∧
      ((rest.1.scan bench).1.switchOn 0 0).raw = true ∧
      ((rest.1.scan bench).1.switchOn 0 1).raw = true ∧
      ((rest.1.scan bench).1.switchOn 1 0).raw = false ∧
      ((rest.1.scan bench).1.switchOn 1 1).raw = true := by
  intro rows layout config early history
  have hrows : ∀ row ∈ rows, row.length = 2 := by decide
  have hlayout : KeyLayout.ofRows rows = .ok layout := rfl
  have hfits : (layout.rows, layout.cols) = (if config.rowsDriven then (2, 2) else (2, 2)) := by
    decide
  have hearly : ∀ a ∈ early, a.SetsSwitch 2 2 := by decide
  have hacts : ∀ a ∈ history.flatMap (·.2) ++ [.setSwitch 1 1 true], a.SetsSwitch 2 2 := by decide
  obtain ⟨s, bench, hstart, hruns⟩ := scans_true_matrix hrows hlayout rfl hfits 8 hearly
  obtain ⟨hlevels, hreads, hraw⟩ := hruns history 1002 [.setSwitch 1 1 true] hacts
  exact ⟨hrows, hlayout, rfl, hfits, by decide, s, bench, hstart, hlevels, hreads,
    hraw 0 (by decide) 0 (by decide), hraw 0 (by decide) 1 (by decide),
    hraw 1 (by decide) 0 (by decide), hraw 1 (by decide) 1 (by decide)⟩

end ChordPad.Scanner
