import ChordPad.Board.Recorded
import ChordPad.Board.Rig
import ChordPad.Proofs.Board.Scanning

/-! The accesses of a scanner to its lines. A pass selects the output lines in order: each is driven
low, every input is read once, and the line is driven high again, whatever comes of it. As long as no
write is refused, the line that is sampled is the only one that is low. -/
namespace ChordPad

/-- What came of an output line that was selected. -/
structure Selection where
  output : Nat
  /-- When the line had been driven low, and whether the write was taken. -/
  selected : Nat × Bool
  /-- When each input line was read, and its level. -/
  reads : List (Nat × Option Level)
  /-- When the line had been driven high again, and whether the write was taken. -/
  released : Nat × Bool

namespace Selection

def readAccesses (inputs : List Nat) (reads : List (Nat × Option Level)) : List (Nat × Access) :=
  List.zipWith (fun input (time, level) => (time, .read input level)) inputs reads

/-- The line low, every input in order, the line high. -/
def accesses (x : Selection) : List (Nat × Access) :=
  (x.selected.1, .drive x.output .low x.selected.2) ::
    (readAccesses (List.range x.reads.length) x.reads ++
      [(x.released.1, .drive x.output .high x.released.2)])

/-- Which inputs were read and found low. -/
def contacts (x : Selection) : List Bool := x.reads.map (·.2 == some .low)

end Selection

/-- A write that the line did not take. -/
def Access.refused : Access → Bool
  | .drive _ _ taken => !taken
  | .read _ _ => false

/-- The level of an output line after an access. -/
def Access.levelOf (line : Nat) (before : Option Level) : Access → Option Level
  | .drive output level taken => if output = line ∧ taken then some level else before
  | .read _ _ => before

/-- The level of an output line after accesses, when it had another one before them. -/
def levelAfter (line : Nat) (before : Option Level) (accesses : List (Nat × Access)) :
    Option Level :=
  accesses.foldl (fun level access => access.2.levelOf line level) before

/-- Other hands change the board, not the record. -/
def Recorded.change {β : Type} (f : β → β) (r : Recorded β) : Recorded β :=
  { r with board := f r.board }

theorem Recorded.accesses_change {β : Type} (f : β → β) (r : Recorded β) :
    (r.change f).accesses = r.accesses := rfl

/-- A board that waits no less than it is told to, and whose clock does not go back in a read. -/
structure Board.KeepsTime (β : Type) [Board β] : Prop where
  wait_ge : ∀ (b : β) (ticks : Nat), now b + ticks ≤ now (wait b ticks)
  read_ge : ∀ (b : β) (input : Nat), now b ≤ now (read b input).1

/-- The accesses that let output lines go, with the time and the outcome of each write. -/
def releaseAccesses (lines : List Nat) (writes : List (Nat × Bool)) : List (Nat × Access) :=
  List.zipWith (fun line (time, taken) => (time, .drive line .high taken)) lines writes

section Levels
variable {line : Nat} {before : Option Level}

theorem levelAfter_append (line : Nat) (before : Option Level) (u v : List (Nat × Access)) :
    levelAfter line before (u ++ v) = levelAfter line (levelAfter line before u) v :=
  List.foldl_append

theorem levelAfter_cons (line : Nat) (before : Option Level) (a : Nat × Access)
    (accesses : List (Nat × Access)) :
    levelAfter line before (a :: accesses) =
      levelAfter line (a.2.levelOf line before) accesses := rfl

theorem levelAfter_readAccesses (line : Nat) (before : Option Level) (inputs : List Nat)
    (reads : List (Nat × Option Level)) :
    levelAfter line before (Selection.readAccesses inputs reads) = before := by
  induction inputs generalizing reads with
  | nil => rfl
  | cons input inputs ih =>
    cases reads with
    | nil => rfl
    | cons read reads => exact ih reads

theorem levelAfter_releaseAccesses {lines : List Nat} {writes : List (Nat × Bool)}
    (hlength : writes.length = lines.length)
    (htaken : ∀ a ∈ releaseAccesses lines writes, a.2.refused = false) :
    levelAfter line before (releaseAccesses lines writes) =
      if line ∈ lines then some .high else before := by
  induction lines generalizing writes before with
  | nil => rfl
  | cons other lines ih =>
    cases writes with
    | nil => cases hlength
    | cons write writes =>
      obtain ⟨time, taken⟩ := write
      obtain ⟨hfirst, hrest⟩ := List.forall_mem_cons.1 htaken
      have htrue : taken = true := by simpa [Access.refused] using hfirst
      have hlevel : levelAfter line (if other = line then some .high else before)
          (releaseAccesses lines writes) =
          if line ∈ lines then some .high else if other = line then some .high else before :=
        ih (Nat.succ.inj hlength) hrest
      have hcons := levelAfter_cons line before (time, .drive other .high taken)
        (releaseAccesses lines writes)
      simp only [Access.levelOf, htrue, and_true] at hcons
      rw [releaseAccesses, List.zipWith_cons_cons, htrue]
      refine hcons.trans (hlevel.trans ?_)
      by_cases hline : line ∈ lines
      · simp [hline]
      · simp [hline, eq_comm]

namespace Selection
variable {x : Selection}

theorem length_readAccesses (reads : List (Nat × Option Level)) :
    (readAccesses (List.range reads.length) reads).length = reads.length := by
  rw [readAccesses, List.length_zipWith, List.length_range, Nat.min_self]

theorem taken_of_not_refused (h : ∀ a ∈ x.accesses, a.2.refused = false) :
    x.selected.2 = true ∧ x.released.2 = true := by
  obtain ⟨hfirst, hrest⟩ := List.forall_mem_cons.1 h
  have hlast := hrest _ (List.mem_append_right _ (List.mem_singleton_self _))
  exact ⟨by simpa [Access.refused] using hfirst, by simpa [Access.refused] using hlast⟩

/-- While the inputs are read, the line is low. -/
theorem levelAfter_take_accesses (hselected : x.selected.2 = true) {n : Nat}
    (hn : n ≤ x.reads.length) :
    levelAfter line before (x.accesses.take (n + 1)) =
      if x.output = line then some .low else before := by
  have hreads := length_readAccesses x.reads
  rw [accesses, List.take_succ_cons, List.take_append_of_le_length (by omega), levelAfter_cons,
    readAccesses, List.take_zipWith, ← readAccesses, levelAfter_readAccesses]
  simp [Access.levelOf, hselected]

theorem levelAfter_accesses (hreleased : x.released.2 = true) :
    levelAfter line before x.accesses = if x.output = line then some .high else before := by
  rw [accesses, levelAfter_cons, levelAfter_append, levelAfter_readAccesses, levelAfter_cons]
  by_cases hline : x.output = line
  · simp [levelAfter, Access.levelOf, hline, hreleased]
  · simp [levelAfter, Access.levelOf, hline]

/-- Selections leave no line low. -/
theorem levelAfter_flatMap {selections : List Selection}
    (h : ∀ a ∈ selections.flatMap accesses, a.2.refused = false) :
    levelAfter line (some .high) (selections.flatMap accesses) = some .high := by
  induction selections with
  | nil => rfl
  | cons x selections ih =>
    rw [List.flatMap_cons] at h ⊢
    obtain ⟨hfirst, hrest⟩ := List.forall_mem_append.1 h
    rw [levelAfter_append, levelAfter_accesses (taken_of_not_refused hfirst).2, ite_self]
    exact ih hrest

/-- From lines that are high, the selected line is the only low one while inputs are read, and all
are high again in the end. -/
theorem levelAfter_selections {selections : List Selection} {earlier : List (Nat × Access)}
    (hquiet : levelAfter line before earlier = some .high)
    (htaken : ∀ a ∈ selections.flatMap accesses, a.2.refused = false) :
    levelAfter line before (earlier ++ selections.flatMap accesses) = some .high ∧
    ∀ u x v, selections = u ++ x :: v → ∀ input < x.reads.length,
      (levelAfter line before (earlier ++ u.flatMap accesses ++ x.accesses.take (input + 1)) =
        some .low ↔ x.output = line) := by
  constructor
  · rw [levelAfter_append, hquiet]
    exact levelAfter_flatMap htaken
  · rintro u x v rfl input hinput
    rw [List.flatMap_append, List.flatMap_cons] at htaken
    obtain ⟨hu, hrest⟩ := List.forall_mem_append.1 htaken
    have hselected := (taken_of_not_refused (List.forall_mem_append.1 hrest).1).1
    rw [levelAfter_append, levelAfter_append, hquiet, levelAfter_flatMap hu,
      levelAfter_take_accesses hselected (Nat.le_of_lt hinput)]
    by_cases hline : x.output = line
    · simp [hline]
    · simp [hline]

end Selection
end Levels

namespace Board
variable {β : Type} [Board β]

theorem readInputs_recorded (r : Recorded β) (lines : List Nat) :
    ∃ reads : List (Nat × Option Level), reads.length = lines.length ∧
      (readInputs r lines).1.accesses = r.accesses ++ Selection.readAccesses lines reads ∧
      (readInputs r lines).2 = reads.map (·.2 == some .low) ∧
      (KeepsTime β → ∀ read ∈ reads, now r.board ≤ read.1) := by
  induction lines generalizing r with
  | nil => exact ⟨[], rfl, (List.append_nil _).symm, rfl, fun _ => List.forall_mem_nil _⟩
  | cons line lines ih =>
    obtain ⟨reads, hlength, haccesses, hcontacts, htimes⟩ := ih (read r line).1
    refine ⟨(now r.board, (read r.board line).2) :: reads, congrArg (· + 1) hlength, ?_, ?_, ?_⟩
    · exact haccesses.trans (List.append_assoc _ _ _)
    · exact congrArg (_ :: ·) hcontacts
    · intro hkeeps
      refine List.forall_mem_cons.2 ⟨Nat.le_refl _, ?_⟩
      intro later hlater
      exact Nat.le_trans (hkeeps.read_ge r.board line) (htimes hkeeps later hlater)

/-- Sampling a line is a selection of it. -/
theorem sampleLine_recorded (pause inputs : Nat) (r : Recorded β) (output : Nat) :
    ∃ x : Selection, x.output = output ∧
      (sampleLine pause inputs r output).1.accesses = r.accesses ++ x.accesses ∧
      (sampleLine pause inputs r output).2 = x.contacts ∧ x.reads.length = inputs ∧
      (KeepsTime β → ∀ read ∈ x.reads, x.selected.1 + pause ≤ read.1) := by
  let low := (drive r output .low).1
  let rested := if pause = 0 then low else wait low pause
  let last := (readInputs rested (List.range inputs)).1
  obtain ⟨reads, hlength, haccesses, hcontacts, htimes⟩ :=
    readInputs_recorded rested (List.range inputs)
  rw [List.length_range] at hlength
  have hrested : rested.accesses = low.accesses := by
    simp only [rested]
    split <;> rfl
  have hpause (hkeeps : KeepsTime β) : now low.board + pause ≤ now rested.board := by
    simp only [rested]
    split
    · rename_i hzero
      exact Nat.le_of_eq (by rw [hzero, Nat.add_zero])
    · exact hkeeps.wait_ge low.board pause
  refine ⟨⟨output, (now low.board, (drive r.board output .low).2), reads,
    (now (drive last.board output .high).1, (drive last.board output .high).2)⟩, rfl, ?_,
    hcontacts, hlength, ?_⟩
  · have hlow : low.accesses = r.accesses ++
        [(now low.board, .drive output .low (drive r.board output .low).2)] := rfl
    have hlast : (sampleLine pause inputs r output).1.accesses = last.accesses ++
        [(now (drive last.board output .high).1,
          .drive output .high (drive last.board output .high).2)] := rfl
    rw [hlast, haccesses, hrested, hlow, Selection.accesses, hlength]
    simp only [List.append_assoc, List.cons_append, List.nil_append]
  · intro hkeeps read hread
    exact Nat.le_trans (hpause hkeeps) (htimes hkeeps read hread)

/-- Sampling lines selects one after another. -/
theorem sampleLines_recorded (pause inputs : Nat) (r : Recorded β) (lines : List Nat) :
    ∃ selections : List Selection, selections.map (·.output) = lines ∧
      (sampleLines pause inputs r lines).1.accesses =
        r.accesses ++ selections.flatMap Selection.accesses ∧
      (sampleLines pause inputs r lines).2 = selections.map Selection.contacts ∧
      ∀ x ∈ selections, x.reads.length = inputs ∧
        (KeepsTime β → ∀ read ∈ x.reads, x.selected.1 + pause ≤ read.1) := by
  induction lines generalizing r with
  | nil => exact ⟨[], rfl, (List.append_nil _).symm, rfl, List.forall_mem_nil _⟩
  | cons line lines ih =>
    obtain ⟨x, houtput, haccesses, hcontacts, hregular⟩ :=
      sampleLine_recorded pause inputs r line
    obtain ⟨selections, houtputs, hlater, hsamples, hall⟩ :=
      ih (sampleLine pause inputs r line).1
    refine ⟨x :: selections, ?_, ?_, ?_, List.forall_mem_cons.2 ⟨hregular, hall⟩⟩
    · rw [List.map_cons, houtput, houtputs]
    · rw [haccesses] at hlater
      rw [List.flatMap_cons, ← List.append_assoc]
      exact hlater
    · rw [List.map_cons, ← hcontacts, ← hsamples]
      rfl

theorem release_recorded (r : Recorded β) (lines : List Nat) :
    ∃ writes : List (Nat × Bool), writes.length = lines.length ∧
      (release r lines).accesses = r.accesses ++ releaseAccesses lines writes := by
  induction lines generalizing r with
  | nil => exact ⟨[], rfl, (List.append_nil _).symm⟩
  | cons line lines ih =>
    obtain ⟨writes, hlength, haccesses⟩ := ih (drive r line .high).1
    exact ⟨(now (drive r.board line .high).1, (drive r.board line .high).2) :: writes,
      congrArg (· + 1) hlength, haccesses.trans (List.append_assoc _ _ _)⟩

theorem contactIn_selections {selections : List Selection} {lines : Nat}
    (houtputs : selections.map (·.output) = List.range lines) {x : Selection}
    (hx : x ∈ selections) {input : Nat} {read : Nat × Option Level}
    (hread : x.reads[input]? = some read) :
    contactIn (selections.map Selection.contacts) x.output input = (read.2 == some .low) := by
  obtain ⟨i, hi, hget⟩ := List.mem_iff_getElem.1 hx
  have hlength := congrArg List.length houtputs
  rw [List.length_map, List.length_range] at hlength
  have houtput : some x.output = some i :=
    calc
      some x.output = (selections.map (·.output))[i]? := by
        rw [List.getElem?_map, List.getElem?_eq_getElem hi, hget, Option.map_some]
      _ = (List.range lines)[i]? := by rw [houtputs]
      _ = some i := List.getElem?_range (hlength ▸ hi)
  rw [contactIn, Option.some.inj houtput, List.getElem?_map, List.getElem?_eq_getElem hi, hget]
  simp [Selection.contacts, hread]

end Board

namespace Scanner
variable {β : Type} [Board β]

/-- A scan selects every output line once, in order, and keeps what it reads. -/
theorem scan_recorded {s : Scanner} (hs : s.Sound) (r : Recorded β) :
    ∃ selections : List Selection,
      (s.scan r).2.1.accesses = r.accesses ++ selections.flatMap Selection.accesses ∧
      selections.map (·.output) = List.range s.outputs ∧
      ∀ x ∈ selections, x.reads.length = s.inputs ∧
        (∀ input time level, x.reads[input]? = some (time, level) →
          (((s.scan r).1.switchOn x.output input).raw = true ↔ level = some .low)) ∧
        (Board.KeepsTime β → ∀ read ∈ x.reads, x.selected.1 + s.config.selectPause ≤ read.1) := by
  obtain ⟨selections, houtputs, haccesses, hsamples, hregular⟩ :=
    Board.sampleLines_recorded s.config.selectPause s.inputs r (List.range s.outputs)
  refine ⟨selections, haccesses, houtputs, ?_⟩
  intro x hx
  obtain ⟨hlength, htimes⟩ := hregular x hx
  refine ⟨hlength, ?_, htimes⟩
  intro input time level hread
  have houtput : x.output < s.outputs := by
    rw [← List.mem_range, ← houtputs]
    exact List.mem_map_of_mem hx
  have hinput : input < s.inputs := hlength ▸ (List.getElem?_eq_some_iff.1 hread).1
  rw [raw_switchOn_scan hs r houtput hinput, hsamples,
    Board.contactIn_selections houtputs hx hread, beq_iff_eq]

/-- After each scan all lines are high, unless a write was refused. -/
theorem levelAfter_watch {s : Scanner} (hs : s.Sound) {r : Recorded β} {line : Nat}
    {before : Option Level}
    (hstart : (∀ a ∈ r.accesses, a.2.refused = false) →
      levelAfter line before r.accesses = some .high) (history : List (β → β)) :
    (∀ a ∈ (s.watch r (history.map Recorded.change)).2.accesses, a.2.refused = false) →
      levelAfter line before (s.watch r (history.map Recorded.change)).2.accesses = some .high := by
  refine (watch_keeps (motive := fun t (q : Recorded β) => t.Sound ∧
    ((∀ a ∈ q.accesses, a.2.refused = false) → levelAfter line before q.accesses = some .high))
    ⟨hs, hstart⟩ ?_).2
  rintro t q change hchange ⟨ht, hlevel⟩
  refine ⟨ht.scan _, ?_⟩
  obtain ⟨change, -, rfl⟩ := List.mem_map.1 hchange
  obtain ⟨selections, haccesses, -⟩ := scan_recorded ht (q.change change)
  rw [haccesses]
  intro htaken
  obtain ⟨hbefore, hpass⟩ := List.forall_mem_append.1 htaken
  rw [levelAfter_append, Recorded.accesses_change, hlevel hbefore]
  exact Selection.levelAfter_flatMap hpass

/-- On any board, whatever its lines refuse and its reads fail: a start lets every output line go, and
every scan selects each of them once, in order. It reads each input once meanwhile, the pause later,
and keeps as closed what was read and low. Unless a write is refused, all lines are high between the
scans, and the selected line is the only low one while inputs are read. -/
theorem lines_selected_in_turn {rows : List (List KeyCode)} {width : Nat} {layout : KeyLayout}
    (hrows : ∀ row ∈ rows, row.length = width) (hlayout : KeyLayout.ofRows rows = .ok layout)
    {config : ScanConfig} {outputs inputs : Nat}
    (hfits : (layout.rows, layout.cols) =
      if config.rowsDriven then (outputs, inputs) else (inputs, outputs))
    (capacity : Nat) (b : β) :
    ∃ s r, start layout config capacity outputs inputs (Recorded.mk b []) = .ok (s, r) ∧
      (∃ writes : List (Nat × Bool), writes.length = outputs ∧
        r.accesses = releaseAccesses (List.range outputs) writes) ∧
      ∀ (history : List (β → β)) (change : β → β),
        let rest := s.watch r (history.map Recorded.change)
        let next := rest.1.scan (rest.2.change change)
        ∃ selections : List Selection,
          next.2.1.accesses = rest.2.accesses ++ selections.flatMap Selection.accesses ∧
          selections.map (·.output) = List.range outputs ∧
          (∀ x ∈ selections, x.reads.length = inputs ∧
            (∀ input time level, x.reads[input]? = some (time, level) →
              ((next.1.switchOn x.output input).raw = true ↔ level = some .low)) ∧
            (Board.KeepsTime β → ∀ read ∈ x.reads,
              x.selected.1 + config.selectPause ≤ read.1)) ∧
          ((∀ a ∈ next.2.1.accesses, a.2.refused = false) → ∀ line < outputs, ∀ before,
            levelAfter line before rest.2.accesses = some .high ∧
            levelAfter line before next.2.1.accesses = some .high ∧
            ∀ u x v, selections = u ++ x :: v → ∀ input < x.reads.length,
              (levelAfter line before (rest.2.accesses ++ u.flatMap Selection.accesses ++
                x.accesses.take (input + 1)) = some .low ↔ x.output = line)) := by
  obtain ⟨s, hstart, hs, hconfig, houtputs, hinputs⟩ :=
    exists_start hrows hlayout hfits capacity (Recorded.mk b [])
  obtain ⟨writes, hwrites, hreleased⟩ :=
    Board.release_recorded (Recorded.mk b []) (List.range outputs)
  rw [List.nil_append] at hreleased
  refine ⟨s, _, hstart, ⟨writes, by rw [hwrites, List.length_range], hreleased⟩, ?_⟩
  intro history change rest next
  obtain ⟨selections, haccesses, hselected, hregular⟩ :=
    scan_recorded (hs.watch _ (history.map Recorded.change)) (rest.2.change change)
  rw [outputs_watch, houtputs] at hselected
  rw [inputs_watch, hinputs, watch_config, hconfig] at hregular
  refine ⟨selections, haccesses, hselected, hregular, ?_⟩
  intro htaken line hline before
  have haccesses : next.2.1.accesses =
      rest.2.accesses ++ selections.flatMap Selection.accesses := haccesses
  rw [haccesses] at htaken ⊢
  obtain ⟨hearlier, hpass⟩ := List.forall_mem_append.1 htaken
  have hquiet : levelAfter line before rest.2.accesses = some .high := by
    refine levelAfter_watch hs ?_ history hearlier
    rw [hreleased]
    intro hwritten
    rw [levelAfter_releaseAccesses hwrites hwritten, if_pos (List.mem_range.2 hline)]
  exact ⟨hquiet, Selection.levelAfter_selections hquiet hpass⟩

/-- The second input fails, and both switches of the second output are closed. -/
theorem lines_selected_in_turn_failingInput :
    let rows : List (List KeyCode) := [[0x04, 0x05], [0x06, 0x00]]
    let layout : KeyLayout := ⟨rows.flatten, 2⟩
    let config : ScanConfig := ⟨.passes 1, true, 3⟩
    let b : Rig :=
      { time := 0, delay := 2, contacts := [(0, 1), (1, 1)], outputs := List.replicate 2 {},
        failingInputs := [1] }
    (∀ row ∈ rows, row.length = 2) ∧ KeyLayout.ofRows rows = .ok layout ∧
    (layout.rows, layout.cols) = (if config.rowsDriven then (2, 2) else (2, 2)) ∧
    Board.KeepsTime Rig ∧
    ∃ s r, start layout config 8 2 2 (Recorded.mk b []) = .ok (s, r) ∧
      (s.scan r).2.1.accesses =
        [(0, .drive 0 .high true), (0, .drive 1 .high true),
          (0, .drive 0 .low true), (3, .read 0 (some .high)), (3, .read 1 none),
          (3, .drive 0 .high true),
          (3, .drive 1 .low true), (6, .read 0 (some .low)), (6, .read 1 none),
          (6, .drive 1 .high true)] ∧
      ((s.scan r).1.switchOn 1 0).raw = true ∧ ((s.scan r).1.switchOn 1 1).raw = false ∧
      ∃ selections : List Selection,
        (s.scan r).2.1.accesses = r.accesses ++ selections.flatMap Selection.accesses ∧
        selections.map (·.output) = [0, 1] ∧
        (∀ x ∈ selections, ∀ read ∈ x.reads, x.selected.1 + 3 ≤ read.1) ∧
        ∀ line < 2, levelAfter line none (s.scan r).2.1.accesses = some .high := by
  intro rows layout config b
  have hrows : ∀ row ∈ rows, row.length = 2 := by decide
  have hlayout : KeyLayout.ofRows rows = .ok layout := rfl
  have hfits : (layout.rows, layout.cols) = (if config.rowsDriven then (2, 2) else (2, 2)) := by
    decide
  have hkeeps : Board.KeepsTime Rig := ⟨fun _ _ => Nat.le_refl _, fun _ _ => Nat.le_refl _⟩
  obtain ⟨s, r, hstart, -, hruns⟩ := lines_selected_in_turn hrows hlayout hfits 8 b
  obtain ⟨selections, haccesses, houtputs, hregular, hlevels⟩ := hruns [] id
  refine ⟨hrows, hlayout, hfits, hkeeps, s, r, hstart, ?_⟩
  rw [start, make_eq_ok hfits] at hstart
  cases hstart
  refine ⟨by decide +kernel, by decide +kernel, by decide +kernel, selections, haccesses, houtputs,
    fun x hx => (hregular x hx).2.2 hkeeps, ?_⟩
  intro line hline
  exact (hlevels (by decide +kernel) line hline none).2.1

end Scanner
end ChordPad
