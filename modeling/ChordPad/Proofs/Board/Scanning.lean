import ChordPad.Proofs.Rounds

/-! A scanner on its board, scan after scan: what it holds about a pair of lines is what the latest
scan read there. -/
namespace ChordPad.Scanner

/-- The switch between an output and an input line. -/
def switchOn (s : Scanner) (output input : Nat) : Switch :=
  if s.config.rowsDriven then s.switchAt output input else s.switchAt input output

theorem settled_raw (debounce : Debounce) (now room : Nat) (slot : KeyCode × Switch) :
    (settled debounce now room slot).raw = slot.2.raw := by
  obtain ⟨key, switch⟩ := slot
  simp only [settled]
  split <;> rfl

theorem raw_switchAt_pass {s : Scanner} (h : s.Sound) (now : Nat) (closed : Nat → Nat → Bool)
    {row col : Nat} (hrow : row < s.layout.rows) (hcol : col < s.layout.cols) :
    ((s.pass now closed).1.switchAt row col).raw =
      contactAt s.config.rowsDriven closed (row, col) := by
  rw [switchAt_pass h now closed hrow hcol, settled_raw, sighted, Switch.observe_raw]

theorem raw_switchOn_pass {s : Scanner} (h : s.Sound) (now : Nat) (closed : Nat → Nat → Bool)
    {output input : Nat} (houtput : output < s.outputs) (hinput : input < s.inputs) :
    ((s.pass now closed).1.switchOn output input).raw = closed output input := by
  rw [switchOn, pass_config]
  rw [outputs] at houtput
  rw [inputs] at hinput
  cases hwiring : s.config.rowsDriven with
  | true =>
    rw [hwiring] at houtput hinput
    exact (raw_switchAt_pass h now closed houtput hinput).trans (by rw [hwiring]; rfl)
  | false =>
    rw [hwiring] at houtput hinput
    exact (raw_switchAt_pass h now closed hinput houtput).trans (by rw [hwiring]; rfl)

section Boards
variable {β : Type} [Board β]

/-- A scanner and its board after scans, where the board is changed before each of them. -/
def watch (s : Scanner) (b : β) : List (β → β) → Scanner × β
  | [] => (s, b)
  | change :: rest =>
    let (s, b, _) := s.scan (change b)
    watch s b rest

/-- What a change and a scan keep, all of them keep. -/
theorem watch_keeps {motive : Scanner → β → Prop} {s : Scanner} {b : β} {changes : List (β → β)}
    (hstart : motive s b)
    (hscan : ∀ s b, ∀ change ∈ changes, motive s b →
      motive (s.scan (change b)).1 (s.scan (change b)).2.1) :
    motive (s.watch b changes).1 (s.watch b changes).2 := by
  induction changes generalizing s b with
  | nil => exact hstart
  | cons change changes ih =>
    apply ih (hscan s b change List.mem_cons_self hstart)
    intro s b other hother hmotive
    exact hscan s b other (List.mem_cons_of_mem change hother) hmotive

theorem scan_board (s : Scanner) (b : β) :
    (s.scan b).2.1 =
      (Board.sampleLines s.config.selectPause s.inputs b (List.range s.outputs)).1 := rfl

theorem Sound.scan {s : Scanner} (h : s.Sound) (b : β) : (s.scan b).1.Sound := h.pass _ _

theorem watch_layout (s : Scanner) (b : β) (changes : List (β → β)) :
    (s.watch b changes).1.layout = s.layout :=
  watch_keeps (motive := fun t _ => t.layout = s.layout) rfl fun _ _ _ _ h => h

theorem watch_config (s : Scanner) (b : β) (changes : List (β → β)) :
    (s.watch b changes).1.config = s.config :=
  watch_keeps (motive := fun t _ => t.config = s.config) rfl fun _ _ _ _ h => h

theorem Sound.watch {s : Scanner} (h : s.Sound) (b : β) (changes : List (β → β)) :
    (s.watch b changes).1.Sound :=
  watch_keeps (motive := fun t _ => t.Sound) h fun _ _ _ _ hsound => hsound.scan _

theorem outputs_watch (s : Scanner) (b : β) (changes : List (β → β)) :
    (s.watch b changes).1.outputs = s.outputs := by
  rw [outputs, watch_config, watch_layout, outputs]

theorem inputs_watch (s : Scanner) (b : β) (changes : List (β → β)) :
    (s.watch b changes).1.inputs = s.inputs := by
  rw [inputs, watch_config, watch_layout, inputs]

/-- A scanner starts on a layout that was accepted, if it fits the lines. -/
theorem exists_start {rows : List (List KeyCode)} {width : Nat} {layout : KeyLayout}
    (hrows : ∀ row ∈ rows, row.length = width) (hlayout : KeyLayout.ofRows rows = .ok layout)
    {config : ScanConfig} {outputs inputs : Nat}
    (hfits : (layout.rows, layout.cols) =
      if config.rowsDriven then (outputs, inputs) else (inputs, outputs))
    (capacity : Nat) (b : β) :
    ∃ s, start layout config capacity outputs inputs b =
        .ok (s, Board.release b (List.range outputs)) ∧
      s.Sound ∧ s.config = config ∧ s.outputs = outputs ∧ s.inputs = inputs := by
  let s : Scanner := ⟨layout, config, capacity, List.replicate layout.codes.length {}⟩
  have hmake : make layout config capacity outputs inputs = .ok s := make_eq_ok hfits
  have hsound : s.Sound := Fresh.sound ⟨⟨rows, width, hrows, hlayout⟩, outputs, inputs, hmake⟩
  refine ⟨s, by rw [start, hmake]; rfl, hsound, rfl, ?_⟩
  rw [Scanner.outputs, Scanner.inputs]
  cases hwiring : config.rowsDriven with
  | true => simpa [s, hwiring] using hfits
  | false => simpa [s, hwiring, and_comm] using hfits

theorem raw_switchOn_scan {s : Scanner} (h : s.Sound) (b : β) {output input : Nat}
    (houtput : output < s.outputs) (hinput : input < s.inputs) :
    ((s.scan b).1.switchOn output input).raw = Board.contactIn
      (Board.sampleLines s.config.selectPause s.inputs b (List.range s.outputs)).2 output input :=
  raw_switchOn_pass h _ _ houtput hinput

end Boards
end ChordPad.Scanner
