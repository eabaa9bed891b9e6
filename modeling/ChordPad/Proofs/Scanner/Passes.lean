import ChordPad.Proofs.Scanner.Settling

/-! Runs of a scanner: its state between the passes, the keys of each pass, and what one pass does
at one position. -/
namespace ChordPad

/-- A pass: its time, and its contacts by output and input line. -/
abbrev Pass := Nat × (Nat → Nat → Bool)

/-- A pass that finds these contacts closed. -/
def Pass.touching (now : Nat) (closed : List (Nat × Nat)) : Pass :=
  (now, fun output input => closed.contains (output, input))

/-- How many of the keys sit at positions before this one. -/
def KeyLayout.countBefore (layout : KeyLayout) (keys : List KeyCode) (row col : Nat) : Nat :=
  keys.countP fun key => layout.codes.idxOf key < row * layout.cols + col

namespace Scanner

/-- A scanner that has made no pass, on a layout that was accepted. -/
structure Fresh (s : Scanner) : Prop where
  accepted : ∃ rows cols, (∀ row ∈ rows, row.length = cols) ∧ KeyLayout.ofRows rows = .ok s.layout
  made : ∃ outputs inputs, make s.layout s.config s.capacity outputs inputs = .ok s

/-- What every pass keeps. -/
structure Sound (s : Scanner) : Prop where
  proper : s.layout.Proper
  length_switches : s.switches.length = s.layout.codes.length

/-- The scanner after the first `t` passes. -/
def after (s : Scanner) (passes : List Pass) (t : Nat) : Scanner := (s.run (passes.take t)).1

/-- The keys of pass `t`, where passes are counted from 0. -/
def reported (s : Scanner) (passes : List Pass) (t : Nat) : List KeyCode :=
  ((s.run passes).2[t]?).getD []

/-- The contact of a position in pass `t`. -/
def reading (s : Scanner) (passes : List Pass) (t row col : Nat) : Bool :=
  (passes[t]?).any fun pass => contactAt s.config.rowsDriven pass.2 (row, col)

/-- The time of pass `t`. -/
def timeOf (passes : List Pass) (t : Nat) : Nat := (passes[t]?).elim 0 (·.1)

/-- The positions that are pressed later but not earlier, row after row. -/
def risen (earlier later : Scanner) : List (Nat × Nat) :=
  later.layout.positions.filter fun (row, col) =>
    !earlier.isPressed row col && later.isPressed row col

def switchAt (s : Scanner) (row col : Nat) : Switch :=
  (s.switches[row * s.layout.cols + col]?).getD {}

theorem eq_of_make {layout : KeyLayout} {config : ScanConfig} {capacity outputs inputs : Nat}
    {s : Scanner} (h : make layout config capacity outputs inputs = .ok s) :
    s = ⟨layout, config, capacity, List.replicate layout.codes.length {}⟩ := by
  simp only [make] at h
  generalize (if config.rowsDriven = true then (outputs, inputs) else (inputs, outputs)) = wired
    at h
  split at h
  · exact (Except.ok.inj h).symm
  · cases h

theorem make_eq_ok {layout : KeyLayout} {config : ScanConfig} {capacity outputs inputs : Nat}
    (h : (layout.rows, layout.cols) =
      if config.rowsDriven then (outputs, inputs) else (inputs, outputs)) :
    make layout config capacity outputs inputs =
      .ok ⟨layout, config, capacity, List.replicate layout.codes.length {}⟩ :=
  if_pos h

theorem Fresh.eq {s : Scanner} (h : s.Fresh) :
    s.switches = List.replicate s.layout.codes.length {} := by
  obtain ⟨outputs, inputs, hmade⟩ := h.made
  exact congrArg switches (eq_of_make hmade)

/-- Two rows of two positions; the last one has no key. -/
def twoByTwo (debounce : Debounce) (capacity : Nat) : Scanner :=
  ⟨⟨[0x04, 0x05, 0x06, .noKey], 2⟩, { debounce }, capacity, List.replicate 4 {}⟩

theorem fresh_twoByTwo (debounce : Debounce) (capacity : Nat) : (twoByTwo debounce capacity).Fresh :=
  ⟨⟨[[0x04, 0x05], [0x06, .noKey]], 2, by decide, rfl⟩, 2, 2,
    by simp [make, twoByTwo, KeyLayout.rows, List.replicate]⟩

theorem Fresh.sound {s : Scanner} (h : s.Fresh) : s.Sound := by
  obtain ⟨rows, cols, hrows, hlayout⟩ := h.accepted
  exact ⟨KeyLayout.proper_of_ofRows hrows hlayout, by rw [h.eq, List.length_replicate]⟩

/-- The switch of a position as a pass observes it, before the switches settle. -/
def sighted (s : Scanner) (now : Nat) (closed : Nat → Nat → Bool) (row col : Nat) : Switch :=
  (s.switchAt row col).observe (contactAt s.config.rowsDriven closed (row, col)) now

def slots (s : Scanner) (now : Nat) (closed : Nat → Nat → Bool) : List (KeyCode × Switch) :=
  s.layout.codes.zip (observe now (s.readings closed) s.switches)

theorem pass_eq_settle (s : Scanner) (now : Nat) (closed : Nat → Nat → Bool) :
    s.pass now closed =
      ({ s with switches := (settle s.config.debounce now s.capacity (s.slots now closed)).1 },
        (settle s.config.debounce now s.capacity (s.slots now closed)).2) := rfl

theorem length_observe {s : Scanner} (h : s.Sound) (now : Nat) (closed : Nat → Nat → Bool) :
    (observe now (s.readings closed) s.switches).length = s.layout.codes.length := by
  rw [observe, List.length_zipWith, readings, List.length_map,
    KeyLayout.length_positions h.proper, h.length_switches, Nat.min_self]

theorem Sound.pass {s : Scanner} (h : s.Sound) (now : Nat) (closed : Nat → Nat → Bool) :
    (s.pass now closed).1.Sound := by
  refine ⟨h.proper, ?_⟩
  rw [pass_eq_settle, length_settle, slots, List.length_zip, length_observe h, Nat.min_self]

theorem observe_getElem {s : Scanner} (h : s.Sound) (now : Nat) (closed : Nat → Nat → Bool)
    {i : Nat} (hi : i < (observe now (s.readings closed) s.switches).length)
    (hs : i < s.switches.length) :
    (observe now (s.readings closed) s.switches)[i] =
      (s.switches[i]).observe (contactAt s.config.rowsDriven closed
        (i / s.layout.cols, i % s.layout.cols)) now := by
  simp only [observe, readings, List.getElem_zipWith, List.getElem_map,
    KeyLayout.positions_getElem h.proper]

theorem run_sound {s : Scanner} (h : s.Sound) (passes : List Pass) : (s.run passes).1.Sound := by
  induction passes generalizing s with
  | nil => exact h
  | cons pass passes ih => exact ih (h.pass pass.1 pass.2)

theorem run_eq (s : Scanner) (passes : List Pass) :
    (s.run passes).1 = { s with switches := (s.run passes).1.switches } := by
  induction passes generalizing s with
  | nil => rfl
  | cons pass passes ih => exact ih _

theorem length_run (s : Scanner) (passes : List Pass) :
    (s.run passes).2.length = passes.length := by
  induction passes generalizing s with
  | nil => rfl
  | cons pass passes ih => simp only [run, List.length_cons, ih]

theorem run_keys_eq_map_reported (s : Scanner) (passes : List Pass) :
    (s.run passes).2 = (List.range passes.length).map (s.reported passes) := by
  apply List.ext_getElem
  · rw [length_run, List.length_map, List.length_range]
  · intro t ht _
    rw [List.getElem_map, List.getElem_range, reported, List.getElem?_eq_getElem ht]
    rfl

theorem after_zero (s : Scanner) (passes : List Pass) : s.after passes 0 = s := rfl

theorem after_sound {s : Scanner} (h : s.Sound) (passes : List Pass) (t : Nat) :
    (s.after passes t).Sound := run_sound h _

theorem after_layout (s : Scanner) (passes : List Pass) (t : Nat) :
    (s.after passes t).layout = s.layout := by
  rw [after, run_eq]

theorem after_config (s : Scanner) (passes : List Pass) (t : Nat) :
    (s.after passes t).config = s.config := by
  rw [after, run_eq]

theorem after_capacity (s : Scanner) (passes : List Pass) (t : Nat) :
    (s.after passes t).capacity = s.capacity := by
  rw [after, run_eq]

theorem after_succ {s : Scanner} {passes : List Pass} {t : Nat} (ht : t < passes.length) :
    s.after passes (t + 1) = ((s.after passes t).pass passes[t].1 passes[t].2).1 := by
  simp only [after, List.take_succ_eq_append_getElem ht, run_append, run]

theorem reported_eq_pass {s : Scanner} {passes : List Pass} {t : Nat} (ht : t < passes.length) :
    s.reported passes t = ((s.after passes t).pass passes[t].1 passes[t].2).2 := by
  have hlen : (s.run (passes.take t)).2.length = t := by
    rw [length_run, List.length_take, Nat.min_eq_left (Nat.le_of_lt ht)]
  have hsplit : passes = passes.take t ++ passes[t] :: passes.drop (t + 1) := by
    rw [List.getElem_cons_drop, List.take_append_drop]
  have hrun := s.run_append (passes.take t) (passes[t] :: passes.drop (t + 1))
  rw [← hsplit] at hrun
  rw [reported, hrun, List.getElem?_append_right (by omega), hlen, Nat.sub_self]
  rfl

theorem reading_eq {s : Scanner} {passes : List Pass} {t row col : Nat} (ht : t < passes.length) :
    s.reading passes t row col = contactAt s.config.rowsDriven passes[t].2 (row, col) := by
  simp [reading, ht]

theorem timeOf_eq {passes : List Pass} {t : Nat} (ht : t < passes.length) :
    timeOf passes t = passes[t].1 := by
  simp [timeOf, ht]

theorem isPressed_eq {s : Scanner} {row col : Nat} (hrow : row < s.layout.rows)
    (hcol : col < s.layout.cols) : s.isPressed row col = (s.switchAt row col).pressed := by
  rw [isPressed, if_pos ⟨hrow, hcol⟩, switchAt]
  cases s.switches[row * s.layout.cols + col]? with
  | none => rfl
  | some switch => rfl

/-! One pass at one position. -/

theorem slots_getElem? {s : Scanner} (h : s.Sound) (now : Nat) (closed : Nat → Nat → Bool)
    {row col : Nat} (hrow : row < s.layout.rows) (hcol : col < s.layout.cols) :
    (s.slots now closed)[row * s.layout.cols + col]? =
      some ((s.layout.key? row col).getD KeyCode.noKey, s.sighted now closed row col) := by
  have hslot := KeyLayout.slot_lt h.proper hrow hcol
  have hi : row * s.layout.cols + col < (observe now (s.readings closed) s.switches).length := by
    rw [length_observe h]; exact hslot
  have hs : row * s.layout.cols + col < s.switches.length := by
    rw [h.length_switches]; exact hslot
  have hswitch : s.switchAt row col = s.switches[row * s.layout.cols + col] := by
    rw [switchAt, List.getElem?_eq_getElem hs]; rfl
  rw [slots, List.getElem?_zip_eq_some]
  refine ⟨KeyLayout.getElem?_eq_key? h.proper hrow hcol, ?_⟩
  rw [List.getElem?_eq_getElem hi, observe_getElem h now closed hi hs, KeyLayout.slot_div hcol,
    KeyLayout.slot_mod hcol, sighted, hswitch]

theorem length_slots {s : Scanner} (h : s.Sound) (now : Nat) (closed : Nat → Nat → Bool) :
    (s.slots now closed).length = s.layout.codes.length := by
  rw [slots, List.length_zip, length_observe h, Nat.min_self]

theorem slots_eq_map_positions {s : Scanner} (h : s.Sound) (now : Nat)
    (closed : Nat → Nat → Bool) :
    s.slots now closed = s.layout.positions.map fun p =>
      ((s.layout.key? p.1 p.2).getD KeyCode.noKey, s.sighted now closed p.1 p.2) := by
  apply List.ext_getElem
  · rw [length_slots h, List.length_map, KeyLayout.length_positions h.proper]
  · intro i hi hpos
    have hcode : i < s.layout.codes.length := length_slots h now closed ▸ hi
    have hslot := slots_getElem? h now closed (KeyLayout.div_lt_rows h.proper hcode)
      (Nat.mod_lt i h.proper.cols_pos)
    rw [Nat.mul_comm, Nat.div_add_mod, List.getElem?_eq_getElem hi, Option.some_inj] at hslot
    rw [List.getElem_map, KeyLayout.positions_getElem h.proper, hslot]

theorem switches_eq_map_positions {s : Scanner} (h : s.Sound) :
    s.switches = s.layout.positions.map fun p => s.switchAt p.1 p.2 := by
  apply List.ext_getElem
  · rw [h.length_switches, List.length_map, KeyLayout.length_positions h.proper]
  · intro i hi hpos
    rw [List.getElem_map, KeyLayout.positions_getElem h.proper, switchAt, Nat.mul_comm,
      Nat.div_add_mod, List.getElem?_eq_getElem hi]
    rfl

theorem map_fst_slots {s : Scanner} (h : s.Sound) (now : Nat) (closed : Nat → Nat → Bool) :
    (s.slots now closed).map (·.1) = s.layout.codes :=
  List.map_fst_zip (Nat.le_of_eq (length_observe h now closed).symm)

theorem idxOf_lt_of_mem_settle_take {s : Scanner} (h : s.Sound) {now : Nat}
    {closed : Nat → Nat → Bool} {room i : Nat} {key : KeyCode}
    (hmem : key ∈ (settle s.config.debounce now room ((s.slots now closed).take i)).2) :
    s.layout.codes.idxOf key < i := by
  obtain ⟨hcode, hkey⟩ := List.mem_filter.1 ((settle_keys_sublist _ _ _ _).subset hmem)
  rw [List.map_take, map_fst_slots h] at hcode
  obtain ⟨j, hj⟩ := List.mem_iff_getElem?.1 hcode
  have hji : j < i := by
    have hlt := (List.getElem?_eq_some_iff.1 hj).1
    rw [List.length_take] at hlt
    omega
  rw [List.getElem?_take_of_lt hji] at hj
  rw [KeyLayout.idxOf_eq h.proper (by simpa using hkey) hj]
  exact hji

theorem le_idxOf_of_mem_settle_drop {s : Scanner} (h : s.Sound) {now : Nat}
    {closed : Nat → Nat → Bool} {room i : Nat} {key : KeyCode}
    (hmem : key ∈ (settle s.config.debounce now room ((s.slots now closed).drop i)).2) :
    i ≤ s.layout.codes.idxOf key := by
  obtain ⟨hcode, hkey⟩ := List.mem_filter.1 ((settle_keys_sublist _ _ _ _).subset hmem)
  rw [List.map_drop, map_fst_slots h] at hcode
  obtain ⟨j, hj⟩ := List.mem_iff_getElem?.1 hcode
  rw [List.getElem?_drop] at hj
  rw [KeyLayout.idxOf_eq h.proper (by simpa using hkey) hj]
  omega

/-- Of the keys of a pass, those of the first positions are what the first switches report. -/
theorem filter_pass_keys {s : Scanner} (h : s.Sound) (now : Nat) (closed : Nat → Nat → Bool)
    (i : Nat) :
    (s.pass now closed).2.filter (fun key => s.layout.codes.idxOf key < i) =
      (settle s.config.debounce now s.capacity ((s.slots now closed).take i)).2 := by
  have hsplit := settle_append s.config.debounce now s.capacity
    ((s.slots now closed).take i) ((s.slots now closed).drop i)
  rw [List.take_append_drop] at hsplit
  rw [pass_eq_settle]
  simp only [hsplit, List.filter_append]
  rw [List.filter_eq_self.2 fun key hmem => by simpa using idxOf_lt_of_mem_settle_take h hmem,
    List.filter_eq_nil_iff.2 fun key hmem => by simpa using le_idxOf_of_mem_settle_drop h hmem,
    List.append_nil]

theorem countBefore_pass {s : Scanner} (h : s.Sound) (now : Nat) (closed : Nat → Nat → Bool)
    (row col : Nat) :
    s.layout.countBefore (s.pass now closed).2 row col =
      (settle s.config.debounce now s.capacity
        ((s.slots now closed).take (row * s.layout.cols + col))).2.length := by
  rw [KeyLayout.countBefore, List.countP_eq_length_filter, filter_pass_keys h]

theorem switchAt_pass {s : Scanner} (h : s.Sound) (now : Nat) (closed : Nat → Nat → Bool)
    {row col : Nat} (hrow : row < s.layout.rows) (hcol : col < s.layout.cols) :
    (s.pass now closed).1.switchAt row col =
      settled s.config.debounce now
        (s.capacity - s.layout.countBefore (s.pass now closed).2 row col)
        ((s.layout.key? row col).getD KeyCode.noKey, s.sighted now closed row col) := by
  have hswitch := settle_switches_getElem? s.config.debounce now s.capacity
    (slots_getElem? h now closed hrow hcol)
  rw [countBefore_pass h]
  exact congrArg (·.getD {}) hswitch

/-- A pass changes the state of a position when its switch is confirmed, and a press of a key needs
room besides. -/
theorem isPressed_pass_ne_iff {s : Scanner} (h : s.Sound) (now : Nat)
    (closed : Nat → Nat → Bool) {row col : Nat} (hrow : row < s.layout.rows)
    (hcol : col < s.layout.cols) :
    (s.pass now closed).1.isPressed row col ≠ s.isPressed row col ↔
      (s.sighted now closed row col).isConfirmed s.config.debounce now = true ∧
      (s.isPressed row col = false → s.layout.key? row col ≠ none →
        s.layout.countBefore (s.pass now closed).2 row col < s.capacity) := by
  rw [isPressed_eq (s := (s.pass now closed).1) hrow hcol, isPressed_eq hrow hcol,
    switchAt_pass h now closed hrow hcol]
  have hpressed : (s.sighted now closed row col).pressed = (s.switchAt row col).pressed :=
    Switch.observe_pressed _ _ _
  have hkey : (s.layout.key? row col).getD KeyCode.noKey ≠ KeyCode.noKey ↔
      s.layout.key? row col ≠ none := by
    cases hk : s.layout.key? row col with
    | none => simp
    | some key => simpa using (KeyLayout.key?_eq_some hk).2.2
  rw [← hpressed]
  by_cases hc : (s.sighted now closed row col).isConfirmed s.config.debounce now = true
  · have hne : (s.sighted now closed row col).raw ≠ (s.sighted now closed row col).pressed := by
      rw [hpressed, sighted, Switch.observe_raw]
      exact Switch.ne_of_isConfirmed_observe hc
    have hraw : (s.sighted now closed row col).raw = true ↔
        (s.sighted now closed row col).pressed = false := by
      revert hne
      cases (s.sighted now closed row col).raw <;>
        cases (s.sighted now closed row col).pressed <;> simp
    simp only [settled, hc, true_and, hkey, hraw, Nat.sub_pos_iff_lt]
    split
    · rename_i hroom
      exact ⟨fun _ => hroom, fun _ => hne⟩
    · rename_i hroom
      exact ⟨fun hself => absurd rfl hself, fun hall => absurd hall hroom⟩
  · simp [settled, hc]

end Scanner
end ChordPad
