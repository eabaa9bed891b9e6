import ChordPad.Round
import ChordPad.Proofs.Sending

/-! Over an endpoint that takes every packet, the station sends for each chord the report with all of
its codes and then the empty report, and is as ready afterwards as it was before. -/
namespace ChordPad
variable {ε : Type} [Endpoint ε] {size : Nat}

/-- The packets that the endpoint took. -/
def Event.taken? : Event → Option Packet
  | .packet bytes true => some bytes
  | _ => none

/-- What the host gets. -/
def sent (events : List Event) : List Packet := events.filterMap Event.taken?

theorem sent_append (u v : List Event) : sent (u ++ v) = sent u ++ sent v := List.filterMap_append

theorem sent_chord (chord : List KeyCode) (events : List Event) :
    sent (.chord chord :: events) = sent events := rfl

theorem sent_attempts (attempts : List ReportWriter.Attempt) :
    sent (attempts.map (·.event)) = ReportWriter.taken attempts := by
  induction attempts with
  | nil => rfl
  | cons a attempts ih =>
    obtain ⟨packet, taken⟩ := a
    cases taken with
    | false => exact ih
    | true => exact congrArg (packet :: ·) ih

/-- The reports of a chord: all of its codes, then none. -/
def chordReports (chord : List KeyCode) : List (List UInt8) :=
  [(Report.pressAll {} chord).bytes, ({} : Report).bytes]

theorem length_of_mem_chordReports {chord : List KeyCode} {report : List UInt8}
    (h : report ∈ chordReports chord) : report.length = Report.size := by
  simp only [chordReports, List.mem_cons, List.not_mem_nil, or_false] at h
  rcases h with rfl | rfl
  · exact Report.length_bytes_pressAll chord
  · exact Report.length_bytes_pressAll []

namespace Station

/-- Nothing is pressed, and the endpoint takes every packet. -/
structure Ready (size : Nat) (st : Station ε) : Prop where
  report_eq : st.report = {}
  takesAll : Endpoint.TakesAll size st.endpoint

/-- Tasks that are carried out to the end, bring the host these packets and leave the station
ready. -/
def Delivers (size : Nat) (st : Station ε) (tasks : List Task) (packets : List Packet) : Prop :=
  ∃ (next : Station ε) (events : List Event), st.perform tasks = (next, events, .finished) ∧
    sent events = packets ∧ next.Ready size

theorem Delivers.append {st : Station ε} {u v : List Task} {packets later : List Packet}
    (hu : st.Delivers size u packets)
    (hv : ∀ next : Station ε, next.Ready size → next.Delivers size v later) :
    st.Delivers size (u ++ v) (packets ++ later) := by
  obtain ⟨next, events, hperform, hsent, hready⟩ := hu
  obtain ⟨last, rest, hlast, hrest, hend⟩ := hv next hready
  refine ⟨last, events ++ rest, ?_, by rw [sent_append, hsent, hrest], hend⟩
  rw [perform_append hperform, hlast]

theorem delivers_send {st : Station ε} (hs : 0 < size) (h : st.Ready size) (chord : List KeyCode) :
    st.Delivers size (Request.send chord).tasks
      ((chordReports chord).flatMap (Framing.packets Report.size size)) := by
  have hsends := sendsReports hs h.takesAll.answers chord
  have hempty : ({} : Report).bytes.length ≤ Report.size :=
    Nat.le_of_eq (Report.length_bytes_pressAll [])
  obtain ⟨e₁, hone, htakes₁⟩ := ReportWriter.write_of_takesAll hs h.takesAll
    (Nat.le_of_eq (Report.length_bytes_pressAll chord))
  obtain ⟨e₂, htwo, htakes₂⟩ := ReportWriter.write_of_takesAll hs htakes₁ hempty
  rw [h.report_eq, SendsReports, hone] at hsends
  simp only [htwo] at hsends
  refine ⟨_, _, hsends, ?_, rfl, htakes₂⟩
  rw [sent_chord, sent_attempts, ReportWriter.taken_append, ReportWriter.taken_map,
    ReportWriter.taken_map]
  simp [chordReports]

/-- The reports that a request brings the host. -/
def reportsOf : Request → List (List UInt8)
  | .lamp _ => []
  | .send chord => chordReports chord

theorem delivers_request {st : Station ε} (hs : 0 < size) (h : st.Ready size) (request : Request) :
    st.Delivers size request.tasks
      ((reportsOf request).flatMap (Framing.packets Report.size size)) := by
  cases request with
  | lamp level => exact ⟨_, _, rfl, rfl, h.report_eq, h.takesAll⟩
  | send chord => exact delivers_send hs h chord

theorem delivers_requests {st : Station ε} (hs : 0 < size) (h : st.Ready size)
    (requests : List Request) :
    st.Delivers size (requests.flatMap Request.tasks)
      ((requests.flatMap reportsOf).flatMap (Framing.packets Report.size size)) := by
  induction requests generalizing st with
  | nil => exact ⟨st, [], rfl, rfl, h⟩
  | cons request requests ih =>
    rw [List.flatMap_cons, List.flatMap_cons, List.flatMap_append]
    exact (delivers_request hs h request).append fun next hnext => ih hnext

theorem flatMap_reportsOf_requests (map : ChordMap) (keys : List KeyCode) :
    (map.requests keys).flatMap reportsOf = (map.chords keys).flatMap chordReports := by
  have hlamp : (if keys.isEmpty then [] else [Request.lamp .high]).flatMap reportsOf = [] := by
    split <;> rfl
  rw [ChordMap.requests, List.flatMap_append, List.flatMap_append, hlamp, List.nil_append,
    List.flatMap_map]
  exact List.append_nil _

theorem delivers_dispatch {st : Station ε} (hs : 0 < size) (h : st.Ready size) (map : ChordMap)
    (keys : List KeyCode) :
    ∃ (next : Station ε) (events : List Event), st.dispatch map keys = (next, events, .finished) ∧
      sent events = ((map.chords keys).flatMap chordReports).flatMap
        (Framing.packets Report.size size) ∧ next.Ready size := by
  rw [← flatMap_reportsOf_requests]
  exact delivers_requests hs h (map.requests keys)

end Station
end ChordPad
