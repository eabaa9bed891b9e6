import Mathlib.Data.List.Basic
import ChordPad.Board.Rig
import ChordPad.Proofs.CompiledText
import ChordPad.Proofs.Delivery
import ChordPad.Proofs.ReportBits
import ChordPad.Proofs.Rounds
import ChordPad.Proofs.Scanner.Edges

/-! From a layout text to the host: whatever the contacts and the clock do, the host sees one chord
for every key that was settled as pressed, in order, and nothing else. -/
namespace ChordPad
variable {β ε : Type} [Board β] [Endpoint ε]

namespace Round

/-- A round comes to its end, sends the chords of the keys that its pass reports and leaves the
station ready. -/
theorem turn_eq {size : Nat} (hs : 0 < size) (map : ChordMap) {r : Round β ε}
    (h : r.station.Ready size) :
    ∃ (next : Station ε) (events : List Event),
      r.turn map = (⟨(r.scanner.scan r.board).1, (r.scanner.scan r.board).2.1, next⟩, events,
        .finished) ∧
      sent events = ((map.chords (r.scanner.scan r.board).2.2).flatMap chordReports).flatMap
        (Framing.packets Report.size size) ∧ next.Ready size := by
  obtain ⟨next, events, hdispatch, hsent, hnext⟩ :=
    Station.delivers_dispatch hs h map (r.scanner.scan r.board).2.2
  exact ⟨next, events, by simp only [turn, hdispatch], hsent, hnext⟩

/-- All that a run sends are the chords of the keys that its passes report. -/
theorem sent_run {size : Nat} (hs : 0 < size) (map : ChordMap) {r : Round β ε}
    (h : r.station.Ready size) {changes : List (Change β ε)}
    (hchanges : ∀ c ∈ changes, ∀ e : ε, Endpoint.TakesAll size e →
      Endpoint.TakesAll size (c.endpoint e)) :
    sent (r.run map changes).2.flatten =
      ((r.scanner.run (r.sights changes)).2.flatMap fun keys =>
        (map.chords keys).flatMap chordReports).flatMap (Framing.packets Report.size size) := by
  induction changes generalizing r with
  | nil => rfl
  | cons c changes ih =>
    have hready : (r.change c).station.Ready size :=
      ⟨h.report_eq, hchanges c List.mem_cons_self _ h.takesAll⟩
    obtain ⟨next, events, hturn, hsent, hnext⟩ := turn_eq hs map hready
    have hafter : ((r.change c).turn map).1.station.Ready size := by rw [hturn]; exact hnext
    have hrest := ih hafter fun c hc => hchanges c (List.mem_cons_of_mem _ hc)
    rw [hturn] at hrest
    rw [run, hturn, List.flatten_cons, sent_append, hsent, hrest, ← List.flatMap_append]
    rfl

end Round

/-- What a host makes of packets: what is down in each of the reports, and the packets that are not
a whole report yet. -/
def hostSees (size : Nat) (packets : List Packet) :
    List (Option (List (Nat × Nat))) × List UInt8 :=
  let (reports, left) := Framing.join Report.size size [] packets
  (reports.map (Descriptor.down? Descriptor.keyboard), left)

/-- What is down after one another, by page and usage, when the key with this code is pressed. -/
def typed : Option KeyCode → List (List (Nat × Nat))
  | none => []
  | some code =>
    if code ∈ ChordMap.ctrlShiftAlt.map (·.1) then
      [[.leftCtrl, .leftShift, .leftAlt, code].map fun (held : KeyCode) => (7, held.toNat), []]
    else []

theorem keys_ctrlShiftAlt : ChordMap.ctrlShiftAlt.map (·.1) = ChordMap.typingKeys := by
  rw [ChordMap.ctrlShiftAlt, List.map_map]
  exact List.map_id _

theorem chord?_map (chord : KeyCode → List KeyCode) (keys : List KeyCode) (code : KeyCode) :
    ChordMap.chord? (keys.map fun key => (key, chord key)) code =
      if code ∈ keys then some (chord code) else none := by
  induction keys with
  | nil => rfl
  | cons key keys ih =>
    rw [ChordMap.chord?] at ih ⊢
    rw [List.map_cons, List.find?_cons]
    by_cases h : key = code
    · simp [h]
    · have hne : code ≠ key := fun he => h he.symm
      simp only [beq_eq_false_iff_ne.2 h, List.mem_cons, hne, false_or]
      exact ih

theorem hasBit_of_mem_typingKeys :
    ∀ code ∈ ChordMap.typingKeys, Report.hasBit code = true ∧ code.toNat < 0xe0 := by
  decide +kernel

theorem range_filter_eq {n m : Nat} (h : m < n) :
    (List.range n).filter (fun k => decide (m = k)) = [m] := by
  have hflip : (fun k => decide (m = k)) = (· == m) := by
    funext k
    rw [Bool.beq_eq_decide_eq]
    exact decide_eq_decide.2 eq_comm
  rw [hflip, List.filter_beq, List.count_range, if_pos h]
  rfl

theorem down?_typed {code : KeyCode} (h : code ∈ ChordMap.typingKeys) :
    Descriptor.down? Descriptor.keyboard
      (Report.pressAll {} [.leftCtrl, .leftShift, .leftAlt, code]).bytes =
      some ([.leftCtrl, .leftShift, .leftAlt, code].map fun (held : KeyCode) => (7, held.toNat)) := by
  obtain ⟨hbit, hlt⟩ := hasBit_of_mem_typingKeys code h
  have hmodifiers : (List.range 8).filter (fun i =>
      [KeyCode.leftCtrl, .leftShift, .leftAlt, code].any fun c => decide (c.toNat = 0xe0 + i)) =
      [0, 1, 2] := by
    have hcode (i : Nat) : decide (code.toNat = 0xe0 + i) = false := decide_eq_false (by omega)
    simp only [List.any_cons, List.any_nil, hcode]
    decide
  have hkeys : (fun k => [KeyCode.leftCtrl, .leftShift, .leftAlt, code].any fun c =>
      decide (c.toNat = k) && Report.hasBit c) = fun k => decide (code.toNat = k) := by
    have hheld : Report.hasBit .leftCtrl = false ∧ Report.hasBit .leftShift = false ∧
        Report.hasBit .leftAlt = false := by decide
    funext k
    simp [hheld, hbit]
  rw [Report.down?_pressAll, hmodifiers, hkeys, range_filter_eq (by omega)]
  rfl

theorem map_down?_chords (keys : List KeyCode) :
    ((ChordMap.ctrlShiftAlt.chords keys).flatMap chordReports).map
      (Descriptor.down? Descriptor.keyboard) =
      (keys.flatMap fun key => typed (some key)).map some := by
  induction keys with
  | nil => rfl
  | cons key keys ih =>
    have hchord : ChordMap.ctrlShiftAlt.chord? key =
        if key ∈ ChordMap.typingKeys then
          some [.leftCtrl, .leftShift, .leftAlt, key] else none := chord?_map _ _ key
    rw [List.flatMap_cons, List.map_append, ← ih, ChordMap.chords, List.filterMap_cons, hchord,
      typed, keys_ctrlShiftAlt]
    by_cases h : key ∈ ChordMap.typingKeys
    · have hrelease : Descriptor.down? Descriptor.keyboard ({} : Report).bytes = some [] := by
        decide +kernel
      rw [if_pos h, if_pos h]
      simp only [List.flatMap_cons, List.map_append, chordReports, List.map_cons, List.map_nil,
        down?_typed h, hrelease]
      rfl
    · rw [if_neg h, if_neg h]
      rfl

theorem typed_filter (code? : Option KeyCode) :
    typed (code?.filter (· != KeyCode.noKey)) = typed code? := by
  cases code? with
  | none => rfl
  | some code =>
    by_cases h : code = KeyCode.noKey
    · rw [h]
      decide
    · rw [Option.filter, if_pos (by simp [h])]

theorem fresh_of_start {text : List Char} {rows : List (List KeyCode)} {layout : KeyLayout}
    (h : LayoutText.compile text = .ok rows) (hlayout : KeyLayout.ofRows rows = .ok layout)
    {config : ScanConfig} {capacity outputs inputs : Nat} {b board : β} {s : Scanner}
    (hstart : Scanner.start layout config capacity outputs inputs b = .ok (s, board)) :
    s.Fresh ∧ s.layout = layout := by
  obtain ⟨made, hmade, heq⟩ := LayoutText.bind_eq_ok hstart
  cases heq
  obtain ⟨-, width, -, hwidth, -⟩ := LayoutText.compile_eq_ok h
  have hs := Scanner.eq_of_make hmade
  subst hs
  exact ⟨⟨⟨rows, width, hwidth, hlayout⟩, outputs, inputs, hmade⟩, rfl⟩

theorem flatMap_typed_reported {text : List Char} {rows : List (List KeyCode)} {s : Scanner}
    (h : LayoutText.compile text = .ok rows) (hlayout : KeyLayout.ofRows rows = .ok s.layout)
    (hs : s.Sound) {passes : List Pass} {t : Nat} (ht : t < passes.length) :
    ((s.reported passes t).flatMap fun key => typed (some key)) =
      (Scanner.risen (s.after passes t) (s.after passes (t + 1))).flatMap fun p =>
        typed ((LayoutText.wordAt? text p.1 p.2).bind KeyCode.ofName?) := by
  rw [Scanner.reported_eq_risen hs ht, List.filterMap_eq_flatMap_toList, List.flatMap_assoc]
  refine List.flatMap_congr fun p hp => ?_
  have hcol : p.2 < s.layout.cols := by
    have := (Scanner.mem_risen.1 hp).1.2
    rwa [Scanner.after_layout] at this
  rw [← typed_filter, ← LayoutText.key?_compile h hlayout hcol]
  cases s.layout.key? p.1 p.2 with
  | none => rfl
  | some key => exact List.append_nil _

theorem hostSees_run {size : Nat} (hs : 0 < size) (map : ChordMap) {r : Round β ε}
    (h : r.station.Ready size) {changes : List (Change β ε)}
    (hchanges : ∀ c ∈ changes, ∀ e : ε, Endpoint.TakesAll size e →
      Endpoint.TakesAll size (c.endpoint e)) :
    hostSees size (sent (r.run map changes).2.flatten) =
      ((List.range changes.length).flatMap fun t =>
        ((map.chords (r.scanner.reported (r.sights changes) t)).flatMap chordReports).map
          (Descriptor.down? Descriptor.keyboard), []) := by
  have hreports : ∀ report ∈ (r.scanner.run (r.sights changes)).2.flatMap fun keys =>
      (map.chords keys).flatMap chordReports, report.length ≤ Report.size := by
    intro report hmem
    obtain ⟨keys, -, hmem⟩ := List.mem_flatMap.1 hmem
    obtain ⟨chord, -, hmem⟩ := List.mem_flatMap.1 hmem
    exact Nat.le_of_eq (length_of_mem_chordReports hmem)
  rw [hostSees, Round.sent_run hs map h hchanges,
    Framing.join_flatMap_packets hs (by decide) hreports]
  simp only [Scanner.run_keys_eq_map_reported, Round.length_sights, List.flatMap_map, List.map_flatMap]

theorem hostSees_run_ctrlShiftAlt {text : List Char} {rows : List (List KeyCode)}
    (h : LayoutText.compile text = .ok rows) {size : Nat} (hs : 0 < size) {r : Round β ε}
    (hlayout : KeyLayout.ofRows rows = .ok r.scanner.layout) (hsound : r.scanner.Sound)
    (hready : r.station.Ready size) {changes : List (Change β ε)}
    (hchanges : ∀ c ∈ changes, ∀ e : ε, Endpoint.TakesAll size e →
      Endpoint.TakesAll size (c.endpoint e)) :
    hostSees size (sent (r.run ChordMap.ctrlShiftAlt changes).2.flatten) =
      (((List.range changes.length).flatMap fun t =>
        (r.risen ChordMap.ctrlShiftAlt changes t).flatMap fun p =>
          typed ((LayoutText.wordAt? text p.1 p.2).bind KeyCode.ofName?)).map some, []) := by
  rw [hostSees_run hs _ hready hchanges, List.map_flatMap]
  congr 1
  refine List.flatMap_congr fun t ht => ?_
  have hpass : t < (r.sights changes).length := by
    rw [Round.length_sights]; exact List.mem_range.1 ht
  rw [map_down?_chords, flatMap_typed_reported h hlayout hsound hpass, Round.risen,
    Round.after_scanner, Round.after_scanner]

/-- Whatever the contacts and the clock do, the host sees the chords of the typing keys that came to
be pressed, pass by pass and row after row, each as its whole chord and then nothing held. -/
theorem host_sees_typed {text : List Char} {rows : List (List KeyCode)}
    (h : LayoutText.compile text = .ok rows) :
    ∃ layout, KeyLayout.ofRows rows = .ok layout ∧
      ∀ (config : ScanConfig) (capacity outputs inputs : Nat) (b board : β) (s : Scanner),
        Scanner.start layout config capacity outputs inputs b = .ok (s, board) →
      ∀ (size : Nat) (station : Station ε) (changes : List (Change β ε)),
        0 < size → station.report = {} → Endpoint.TakesAll size station.endpoint →
        (∀ c ∈ changes, ∀ e : ε, Endpoint.TakesAll size e → Endpoint.TakesAll size (c.endpoint e)) →
        let r : Round β ε := ⟨s, board, station⟩
        hostSees size (sent (r.run ChordMap.ctrlShiftAlt changes).2.flatten) =
          (((List.range changes.length).flatMap fun t =>
            (r.risen ChordMap.ctrlShiftAlt changes t).flatMap fun p =>
              typed ((LayoutText.wordAt? text p.1 p.2).bind KeyCode.ofName?)).map some, []) := by
  obtain ⟨-, width, -, -, hlayout⟩ := LayoutText.compile_eq_ok h
  refine ⟨_, hlayout, ?_⟩
  intro config capacity outputs inputs b board s hstart size station changes hs hreport htakes
    hchanges r
  obtain ⟨hfresh, hsame⟩ := fresh_of_start h hlayout hstart
  have hrows : KeyLayout.ofRows rows = .ok r.scanner.layout := by rw [hlayout, ← hsame]
  exact hostSees_run_ctrlShiftAlt h hs hrows hfresh.sound ⟨hreport, htakes⟩ hchanges

/-- Three keys that are closed at once, let go, and one of them closed again: the host sees the
chords of the two letters, then one of them again, over packets of eight bytes. -/
theorem host_sees_typed_oneRow :
    let text := "a home b".toList
    let layout : KeyLayout := ⟨[0x04, 0x4a, 0x05], 3⟩
    let s : Scanner := ⟨layout, { debounce := .passes 1 }, 6, List.replicate 3 {}⟩
    let rig : Rig := { time := 0, outputs := [{ level := some .high }] }
    let station : Station Scripted := { endpoint := { packetSize := 8 } }
    let touch (contacts : Contacts) : Change Rig Scripted :=
      { board := fun rig => ({ rig with contacts } : Rig) }
    let changes := [touch [(2, 0), (1, 0), (0, 0)], touch [], touch [(0, 0)]]
    let r : Round Rig Scripted := ⟨s, rig, station⟩
    let held (code : Nat) := some [(7, 0xe0), (7, 0xe1), (7, 0xe2), (7, code)]
    LayoutText.compile text = .ok [[0x04, 0x4a, 0x05]] ∧
      Scanner.start layout { debounce := .passes 1 } 6 1 3 ({ time := 0, outputs := [{}] } : Rig) =
        .ok (s, rig) ∧
      0 < 8 ∧ station.report = {} ∧ Endpoint.TakesAll 8 station.endpoint ∧
      (∀ c ∈ changes, ∀ e : Scripted, Endpoint.TakesAll 8 e → Endpoint.TakesAll 8 (c.endpoint e)) ∧
      hostSees 8 (sent (r.run ChordMap.ctrlShiftAlt changes).2.flatten) =
        ([held 0x04, some [], held 0x05, some [], held 0x04, some []], []) := by
  intro text layout s rig station touch changes r held
  have hcompile : LayoutText.compile text = .ok [[0x04, 0x4a, 0x05]] := by decide +kernel
  have hmake : Scanner.make layout { debounce := .passes 1 } 6 1 3 = .ok s := by decide
  have hstart : Scanner.start layout { debounce := .passes 1 } 6 1 3
      ({ time := 0, outputs := [{}] } : Rig) = .ok (s, rig) := by
    rw [Scanner.start, hmake]
    rfl
  have hendpoint : ∀ c ∈ changes, ∀ e : Scripted, Endpoint.TakesAll 8 e →
      Endpoint.TakesAll 8 (c.endpoint e) := by
    intro c hc e he
    obtain ⟨contacts, rfl⟩ : ∃ contacts, c = touch contacts := by
      simp only [changes, List.mem_cons, List.not_mem_nil, or_false] at hc
      rcases hc with rfl | rfl | rfl <;> exact ⟨_, rfl⟩
    exact he
  have htakes : Endpoint.TakesAll 8 station.endpoint := Scripted.takesAll 8
  obtain ⟨_, hlayout, h⟩ := host_sees_typed (β := Rig) (ε := Scripted) hcompile
  cases hlayout
  have hsees := h _ 6 1 3 _ _ _ hstart 8 station changes (by decide) rfl htakes hendpoint
  refine ⟨hcompile, hstart, by decide, rfl, htakes, hendpoint, hsees.trans ?_⟩
  decide +kernel

end ChordPad
