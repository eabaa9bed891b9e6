import ChordPad.Station
import ChordPad.Proofs.ReportBits
import ChordPad.Proofs.Writing

/-! What it takes to send a chord: a report with its codes, then a report with none, the second one
whatever becomes of the first. No code is held afterwards, so later chords find nothing of it. -/
namespace ChordPad
variable {ε : Type} [Endpoint ε] {size : Nat}

/-- What can be seen of a packet that was handed over. -/
def ReportWriter.Attempt.event (a : Attempt) : Event := .packet a.packet a.taken

/-- What a task makes of the codes that are held. -/
def Task.hold (report : Report) : Task → Report
  | .press code => report.press code
  | .release => {}
  | _ => report

namespace Station

theorem perform_cons {st next : Station ε} {task : Task} {events : List Event}
    (ha : st.attempt task = (next, events, .finished)) (rest : List Task) :
    st.perform (task :: rest) =
      ((next.perform rest).1, events ++ (next.perform rest).2.1, (next.perform rest).2.2) := by
  rw [perform, ha]

theorem perform_append {st next : Station ε} {u v : List Task} {events : List Event}
    (hu : st.perform u = (next, events, .finished)) :
    st.perform (u ++ v) = ((next.perform v).1, events ++ (next.perform v).2.1, (next.perform v).2.2) := by
  induction u generalizing st events with
  | nil => cases hu; rfl
  | cons task u ih =>
    rw [perform] at hu
    rw [List.cons_append, perform]
    split at hu
    · rename_i st' now _
      simp only
      cases hp : st'.perform u with
      | mk last rest =>
        obtain ⟨later, progress⟩ := rest
        rw [hp] at hu
        cases hu
        rw [ih hp, List.append_assoc]
    · cases hu
    · cases hu

theorem perform_presses (st : Station ε) (chord : List KeyCode) :
    st.perform (chord.map .press) = ({ st with report := st.report.pressAll chord }, [], .finished) := by
  induction chord generalizing st with
  | nil => rfl
  | cons code chord ih => simp [perform, attempt, ih, Report.pressAll]

/-! What is held in the end, whatever the endpoint does. -/

/-- The tasks that are still to be done. -/
def Progress.left : Progress → List Task
  | .finished => []
  | .waiting left => left
  | .noPacketSize => []

theorem attempt_hold (st : Station ε) (task : Task) :
    (st.attempt task).1.report = task.hold st.report ∧
      ∀ report : Report, (st.attempt task).2.2.left.foldl Task.hold report = report := by
  cases task with
  | report =>
    refine ⟨rfl, ?_⟩
    intro report
    simp only [attempt, written]
    split <;> rfl
  | packets left =>
    refine ⟨rfl, ?_⟩
    intro report
    simp only [attempt, written]
    split <;> rfl
  | _ => exact ⟨rfl, fun _ => rfl⟩

/-- What is held now and the tasks that are left tell what is held in the end. -/
theorem perform_hold {st next : Station ε} {tasks : List Task} {events : List Event}
    {progress : Progress} (h : st.perform tasks = (next, events, progress))
    (hsize : progress ≠ .noPacketSize) :
    progress.left.foldl Task.hold next.report = tasks.foldl Task.hold st.report := by
  induction tasks generalizing st events with
  | nil => cases h; rfl
  | cons task rest ih =>
    have hhold := attempt_hold st task
    rw [perform] at h
    rw [List.foldl_cons, ← hhold.1]
    split at h
    · rename_i mid now ha
      rw [ha]
      cases hp : mid.perform rest with
      | mk last more =>
        obtain ⟨later, progress'⟩ := more
        rw [hp] at h
        cases h
        exact ih hp
    · -- The task that is cut short holds nothing more, and those behind it are still to come.
      rename_i mid now left ha
      cases h
      rw [ha] at hhold ⊢
      rw [Progress.left, List.foldl_append]
      exact congrArg (rest.foldl Task.hold) (hhold.2 _)
    · cases h
      exact absurd rfl hsize

/-- The tasks are carried out to the end. Whenever a packet has to wait, something happens to the
endpoint before the tasks that are left are tried again. -/
inductive Completes : Station ε → List Task → Station ε → Prop
  | atOnce {st next : Station ε} {tasks : List Task} {events : List Event} :
      st.perform tasks = (next, events, .finished) → Completes st tasks next
  | resumed {st mid next : Station ε} {tasks left : List Task} {events : List Event}
      (change : ε → ε) : st.perform tasks = (mid, events, .waiting left) →
      Completes { mid with endpoint := change mid.endpoint } left next → Completes st tasks next

theorem Completes.report_eq {st next : Station ε} {tasks : List Task} (h : Completes st tasks next) :
    next.report = tasks.foldl Task.hold st.report := by
  induction h with
  | atOnce h => exact perform_hold h (by simp)
  | resumed change h _ ih => exact ih.trans (perform_hold h (by simp))

/-- A station that began with no code held and has sent chords since, each to the end. Its endpoint
and its lamp may change in between. -/
inductive Used : Station ε → Prop
  | new {st : Station ε} : st.report = {} → Used st
  | sent {st next : Station ε} (chord : List KeyCode) :
      Used st → Completes st (Request.send chord).tasks next → Used next
  | changed {st next : Station ε} : Used st → next.report = st.report → Used next

theorem foldl_hold_send (report : Report) (chord : List KeyCode) :
    (Request.send chord).tasks.foldl Task.hold report = {} := by
  rw [Request.tasks, List.foldl_append]
  rfl

theorem Used.report_eq {st : Station ε} (h : st.Used) : st.report = {} := by
  induction h with
  | new h => exact h
  | sent chord _ h _ => rw [h.report_eq, foldl_hold_send]
  | changed _ hsame ih => exact hsame.trans ih

omit [Endpoint ε] in
theorem holds_pressAll {st : Station ε} (h : st.report = {}) (chord : List KeyCode) :
    Report.Holds (st.report.pressAll chord).bytes chord := by
  rw [h]
  exact Report.holds_pressAll chord

/-! One call. -/

/-- The call hands these two reports to the writer, the second one whatever became of the first. -/
def SendsReports (st : Station ε) (chord : List KeyCode) (first second : List UInt8) : Prop :=
  let one := ReportWriter.write Report.size st.endpoint first
  let two := ReportWriter.write Report.size one.1 second
  st.send chord = ({ st with report := {}, endpoint := two.1 },
    .chord chord :: (one.2.1 ++ two.2.1).map (·.event), .finished)

omit [Endpoint ε] in
theorem written_of_isOver (st : Station ε)
    {wrote : ε × List ReportWriter.Attempt × ReportWriter.Outcome} (h : wrote.2.2.IsOver) :
    st.written wrote = ({ st with endpoint := wrote.1 }, wrote.2.1.map (·.event), .finished) := by
  obtain ⟨next, attempts, outcome⟩ := wrote
  cases outcome with
  | done => rfl
  | failed error => rfl
  | waiting left => exact h.elim
  | noPacketSize => exact h.elim

theorem attempt_report_eq (hs : 0 < size) {st : Station ε} (h : Endpoint.Answers size st.endpoint) :
    let wrote := ReportWriter.write Report.size st.endpoint st.report.bytes
    st.attempt .report = ({ st with endpoint := wrote.1 }, wrote.2.1.map (·.event), .finished) :=
  st.written_of_isOver (ReportWriter.write_of_answers hs h st.report.bytes).1

theorem sendsReports (hs : 0 < size) {st : Station ε} (h : Endpoint.Answers size st.endpoint)
    (chord : List KeyCode) :
    st.SendsReports chord (st.report.pressAll chord).bytes ({} : Report).bytes := by
  unfold SendsReports
  intro one two
  let pressed : Station ε := { st with report := st.report.pressAll chord }
  let released : Station ε := { st with report := {}, endpoint := one.1 }
  have hone : pressed.attempt .report = ({ pressed with endpoint := one.1 }, one.2.1.map (·.event),
      .finished) := attempt_report_eq hs h
  have hrelease : Station.attempt { pressed with endpoint := one.1 } .release =
      (released, [], .finished) := rfl
  have htwo : released.attempt .report = ({ released with endpoint := two.1 },
      two.2.1.map (·.event), .finished) :=
    attempt_report_eq hs (ReportWriter.write_of_answers hs h _).2
  have hreports : pressed.perform [.report, .release, .report] =
      ({ released with endpoint := two.1 }, (one.2.1 ++ two.2.1).map (·.event), .finished) := by
    rw [perform_cons hone, perform_cons hrelease, perform_cons htwo, perform, List.map_append,
      List.nil_append, List.append_nil]
  have hchord : st.attempt (.chord chord) = (st, [.chord chord], .finished) := rfl
  rw [send, Request.tasks, List.cons_append, perform_cons hchord,
    perform_append (st.perform_presses chord), hreports]
  rfl

theorem answers_send (hs : 0 < size) {st : Station ε} (h : Endpoint.Answers size st.endpoint)
    (chord : List KeyCode) : Endpoint.Answers size (st.send chord).1.endpoint := by
  have hsend := sendsReports hs h chord
  rw [SendsReports] at hsend
  rw [hsend]
  exact (ReportWriter.write_of_answers hs (ReportWriter.write_of_answers hs h _).2 _).2

theorem Used.send (hs : 0 < size) {st : Station ε} (hused : st.Used)
    (h : Endpoint.Answers size st.endpoint) (chord : List KeyCode) : (st.send chord).1.Used := by
  have hsend := sendsReports hs h chord
  rw [SendsReports] at hsend
  rw [hsend]
  exact hused.sent chord (.atOnce hsend)

/-- Whatever was sent before and whatever became of it, a call hands over at least the first packet of
each of two reports: one that holds exactly the codes of this call, however they are ordered and
repeated, and an empty one. -/
theorem chords_do_not_leak (hs : 0 < size) {before : Station ε} (hused : before.Used)
    (h : Endpoint.Answers size before.endpoint) (chord : List KeyCode) :
    let first := (before.report.pressAll chord).bytes
    let second := 6 :: List.replicate 33 0
    let one := ReportWriter.write Report.size before.endpoint first
    let two := ReportWriter.write Report.size one.1 second
    before.SendsReports chord first second ∧
    (one.2.1 ≠ [] ∧ one.2.1.map (·.packet) <+: Framing.packets Report.size size first) ∧
    (two.2.1 ≠ [] ∧ two.2.1.map (·.packet) <+: Framing.packets Report.size size second) ∧
    Report.Holds first chord ∧ Report.Holds second [] ∧
    (∀ (other : Station ε) (codes : List KeyCode), other.Used →
      (∀ code, code ∈ codes ↔ code ∈ chord) → (other.report.pressAll codes).bytes = first) ∧
    (before.send chord).1.Used ∧ Endpoint.Answers size (before.send chord).1.endpoint := by
  intro first second one two
  have hfirst : Report.Holds first chord := holds_pressAll hused.report_eq chord
  have hsecond : Report.Holds second [] := Report.holds_pressAll []
  have hone : Endpoint.Answers size one.1 := (ReportWriter.write_of_answers hs h first).2
  refine ⟨sendsReports hs h chord, ⟨?_, ?_⟩, ⟨?_, ?_⟩, hfirst, hsecond, ?_, hused.send hs h chord,
    answers_send hs h chord⟩
  · exact ReportWriter.attempts_ne_nil hs h (List.cons_ne_nil _ _) (Nat.le_of_eq hfirst.length_eq)
  · exact ReportWriter.map_packet_write_prefix hs h.packetSize_eq first
  · exact ReportWriter.attempts_ne_nil hs hone (List.cons_ne_nil _ _) (Nat.le_of_eq hsecond.length_eq)
  · exact ReportWriter.map_packet_write_prefix hs hone.packetSize_eq second
  · intro other codes hother hsame
    have hcodes := holds_pressAll hother.report_eq codes
    exact hcodes.congr hfirst hsame

/-- Both reports of an earlier chord fail, one in its second packet and one in its first. The next
chord repeats a code and has one that is no key. -/
theorem chords_do_not_leak_refused :
    let start : Station Scripted :=
      { endpoint := { packetSize := 8, results := [.taken, .refused .disabled, .refused .overflow] } }
    let before := (start.send [0xe1, 0x05]).1
    let chord := [0x06, 0xe0, 0x06, 0x01]
    let first := (before.report.pressAll chord).bytes
    0 < 8 ∧ before.Used ∧ Endpoint.Answers 8 before.endpoint ∧
      first = 6 :: 0x01 :: 0x40 :: List.replicate 31 0 ∧ Report.Holds first chord ∧
      before.SendsReports chord first (6 :: List.replicate 33 0) := by
  intro start before chord first
  have hstart : Endpoint.Answers 8 start.endpoint := Scripted.answers 8 (by decide)
  have hused : before.Used := Used.send (by decide) (.new rfl) hstart [0xe1, 0x05]
  have hbefore : Endpoint.Answers 8 before.endpoint := answers_send (by decide) hstart [0xe1, 0x05]
  obtain ⟨hsends, -, -, hholds, -⟩ := chords_do_not_leak (by decide) hused hbefore chord
  exact ⟨by decide, hused, hbefore, by decide +kernel, hholds, hsends⟩

end Station
end ChordPad
