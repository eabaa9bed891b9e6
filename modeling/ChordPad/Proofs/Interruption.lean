import Mathlib.Data.List.Forall2
import ChordPad.Proofs.Delivery

/-! Reports that are given up. A report whose first packet is refused leaves no trace, but one that is
given up later leaves the host with a part that it takes for the beginning of the next report. -/
namespace ChordPad
variable {ε : Type} [Endpoint ε] {limit size : Nat}

namespace ReportWriter

/-- The packets that the endpoint took of several reports. -/
def takenOf (written : List (List Attempt × Outcome)) : List Packet := written.flatMap (taken ·.1)

/-- The reports that were written to the end. -/
def delivered (reports : List (List UInt8)) (written : List (List Attempt × Outcome)) :
    List (List UInt8) :=
  ((reports.zip written).filter (·.2.2 = .done)).map (·.1)

/-- A report was given up when some of its packets had been taken. -/
def Interrupted (w : List Attempt × Outcome) : Prop := w.2 ≠ .done ∧ taken w.1 ≠ []

instance (w : List Attempt × Outcome) : Decidable (Interrupted w) :=
  inferInstanceAs (Decidable (_ ∧ _))

/-- A report is written to the end or given up before its last packet. -/
inductive Wrote (limit size : Nat) (report : List UInt8) : List Attempt × Outcome → Prop
  | done {attempts : List Attempt} : taken attempts = Framing.packets limit size report →
      Wrote limit size report (attempts, .done)
  | givenUp {attempts : List Attempt} {outcome : Outcome} : outcome ≠ .done →
      taken attempts <+: (Framing.packets limit size report).dropLast →
      Wrote limit size report (attempts, outcome)

theorem taken_writePackets (e : ε) (packets : List Packet) :
    let w := (writePackets e packets).2
    w.2 = .done ∧ taken w.1 = packets ∨ w.2 ≠ .done ∧ taken w.1 <+: packets.dropLast := by
  induction packets generalizing e with
  | nil => exact .inl ⟨rfl, rfl⟩
  | cons packet rest ih =>
    rw [writePackets]
    split
    · rename_i next _
      rcases ih next with ⟨hdone, htaken⟩ | ⟨hnot, htaken⟩
      · exact .inl ⟨hdone, congrArg (packet :: ·) htaken⟩
      · have hrest : rest ≠ [] := by
          rintro rfl
          exact hnot rfl
        refine .inr ⟨hnot, ?_⟩
        rw [List.dropLast_cons_of_ne_nil hrest]
        exact List.cons_prefix_cons.2 ⟨rfl, htaken⟩
    · exact .inr ⟨by simp, List.nil_prefix⟩
    · exact .inr ⟨by simp, List.nil_prefix⟩

theorem wrote_write (hs : 0 < size) {e : ε} (h : Endpoint.packetSize e = size)
    {report : List UInt8} (hreport : report.length ≤ limit) :
    Wrote limit size report (write limit e report).2 := by
  rw [write_eq hs h hreport]
  have htaken := taken_writePackets e (Framing.packets limit size report)
  cases hw : (writePackets e (Framing.packets limit size report)).2 with
  | mk attempts outcome =>
    rw [hw] at htaken
    rcases htaken with ⟨rfl, htaken⟩ | ⟨hnot, htaken⟩
    · exact .done htaken
    · exact .givenUp hnot htaken

theorem wrote_writeAll (hs : 0 < size) {e : ε} (h : Endpoint.Answers size e)
    {reports : List (List UInt8)} (hreports : ∀ report ∈ reports, report.length ≤ limit) :
    List.Forall₂ (Wrote limit size) reports (writeAll limit e reports).2 := by
  induction reports generalizing e with
  | nil => exact .nil
  | cons report reports ih =>
    have hnext : Endpoint.Answers size (write limit e report).1 := (write_of_answers hs h report).2
    exact .cons (wrote_write hs h.packetSize_eq (hreports report List.mem_cons_self))
      (ih hnext fun r hr => hreports r (List.mem_cons_of_mem report hr))

variable {reports : List (List UInt8)} {written : List (List Attempt × Outcome)}

/-- As long as no report is interrupted, the host reads exactly those that are delivered. -/
theorem join_takenOf_append (hs : 0 < size) (hlimit : 0 < limit)
    (hreports : ∀ report ∈ reports, report.length ≤ limit)
    (h : List.Forall₂ (Wrote limit size) reports written) (hno : ∀ w ∈ written, ¬ Interrupted w)
    (rest : List Packet) :
    Framing.join limit size [] (takenOf written ++ rest) =
      (delivered reports written ++ (Framing.join limit size [] rest).1,
        (Framing.join limit size [] rest).2) := by
  induction h with
  | nil => rfl
  | @cons report w reports written hw _ ih =>
    have hrest := ih (fun r hr => hreports r (List.mem_cons_of_mem report hr))
      fun v hv => hno v (List.mem_cons_of_mem w hv)
    have hnot := hno w List.mem_cons_self
    rw [takenOf, List.flatMap_cons, List.append_assoc]
    cases hw with
    | done htaken =>
      rw [htaken, Framing.join_packets_append hs hlimit (hreports report List.mem_cons_self)]
      rw [takenOf] at hrest
      simp [hrest, delivered]
    | @givenUp attempts outcome hne _ =>
      have hnone : taken attempts = [] := by
        by_contra htaken
        exact hnot ⟨hne, htaken⟩
      rw [takenOf] at hrest
      simp [hrest, hnone, delivered, hne]

/-- The packets that were taken of reports that were given up. -/
def lost (written : List (List Attempt × Outcome)) : List Packet :=
  takenOf (written.filter (·.2 ≠ .done))

theorem length_takenOf (h : List.Forall₂ (Wrote limit size) reports written) :
    (takenOf written).flatten.length =
      (delivered reports written).flatten.length + (lost written).flatten.length := by
  induction h with
  | nil => rfl
  | cons hw _ ih =>
    rw [takenOf] at ih
    cases hw with
    | done htaken =>
      simp only [takenOf, List.flatMap_cons, List.flatten_append, List.length_append, htaken, ih,
        Framing.flatten_packets]
      simp [delivered, lost, takenOf, Nat.add_assoc]
    | givenUp hne _ =>
      simp only [takenOf, List.flatMap_cons, List.flatten_append, List.length_append, ih]
      simp [delivered, lost, takenOf, hne]
      omega

theorem exists_wrote (h : List.Forall₂ (Wrote limit size) reports written)
    {w : List Attempt × Outcome} (hmem : w ∈ written) : ∃ report ∈ reports, Wrote limit size report w := by
  induction h with
  | nil => cases hmem
  | @cons report v reports written hv _ ih =>
    rcases List.mem_cons.1 hmem with rfl | hmem
    · exact ⟨report, List.mem_cons_self, hv⟩
    · obtain ⟨other, hother, hw⟩ := ih hmem
      exact ⟨other, List.mem_cons_of_mem report hother, hw⟩

theorem length_of_interrupted (hs : 0 < size) {report : List UInt8} {w : List Attempt × Outcome}
    (h : Wrote limit size report w) (hne : w.2 ≠ .done) {packet : Packet}
    (hmem : packet ∈ taken w.1) : packet.length = size := by
  cases h with
  | done _ => exact absurd rfl hne
  | givenUp _ htaken => exact Framing.length_eq_of_mem_dropLast_packets hs (htaken.subset hmem)

/-- The host reads exactly the reports that are delivered, and is ready for the next one, only when no
report is interrupted: what was taken of an interrupted one is not lost to it. -/
theorem join_takenOf_iff (hs : 0 < size) (hlimit : 0 < limit)
    (hreports : ∀ report ∈ reports, report.length ≤ limit)
    (h : List.Forall₂ (Wrote limit size) reports written) :
    Framing.join limit size [] (takenOf written) = (delivered reports written, []) ↔
      ∀ w ∈ written, ¬ Interrupted w := by
  constructor
  · rintro hjoin w hw ⟨hne, htaken⟩
    have hbytes := @Framing.flatten_join limit size [] (takenOf written)
    simp only [hjoin, List.append_nil, List.nil_append] at hbytes
    have hlost := length_takenOf h
    rw [← hbytes] at hlost
    obtain ⟨packet, hpacket⟩ := List.exists_mem_of_ne_nil _ htaken
    obtain ⟨report, -, hwrote⟩ := exists_wrote h hw
    have hlength := length_of_interrupted hs hwrote hne hpacket
    have hmem : packet ∈ lost written :=
      List.mem_flatMap.2 ⟨w, List.mem_filter.2 ⟨hw, by simpa using hne⟩, hpacket⟩
    have hle := (List.sublist_flatten_of_mem hmem).length_le
    omega
  · intro hno
    have hjoin := join_takenOf_append hs hlimit hreports h hno []
    simpa [Framing.join] using hjoin

theorem takenOf_split (written : List (List Attempt × Outcome)) (n : Nat) :
    takenOf written = takenOf (written.take n) ++ takenOf (written.drop n) := by
  rw [takenOf, takenOf, takenOf, ← List.flatMap_append, List.take_append_drop]

/-- Behind the short packet of a report that is written to the end, the host is ready for the next
one, whatever became of those before it. -/
theorem join_takenOf_of_done (hs : 0 < size) (hmod : ∀ report ∈ reports, report.length % size ≠ 0)
    (h : List.Forall₂ (Wrote limit size) reports written) {n : Nat} {w : List Attempt × Outcome}
    (hw : written[n]? = some w) (hdone : w.2 = .done) :
    (Framing.join limit size [] (takenOf (written.take (n + 1)))).2 = [] := by
  obtain ⟨report, hreport, hwrote⟩ := exists_wrote h (List.mem_of_getElem? hw)
  cases hwrote with
  | givenUp hne _ => exact absurd hdone hne
  | done htaken =>
    obtain ⟨init, last, hpackets, hlast⟩ :=
      @Framing.exists_packets_eq_concat limit size hs report (hmod report hreport)
    rw [List.take_add_one, hw, takenOf, List.flatMap_append, Option.toList_some, List.flatMap_singleton,
      htaken, hpackets, ← List.append_assoc]
    exact Framing.join_concat_short hlast _ _

/-- A report that fits into one packet is taken or refused as a whole. -/
theorem not_interrupted_of_le (hreports : ∀ report ∈ reports, report ≠ [] ∧ report.length = limit)
    (hle : limit ≤ size) (h : List.Forall₂ (Wrote limit size) reports written) :
    ∀ w ∈ written, ¬ Interrupted w := by
  rintro w hw ⟨hne, htaken⟩
  obtain ⟨report, hreport, hwrote⟩ := exists_wrote h hw
  obtain ⟨hsome, hlength⟩ := hreports report hreport
  cases hwrote with
  | done _ => exact hne rfl
  | givenUp _ hprefix =>
    have hpackets : Framing.packets limit size report = [report] := by
      rw [Framing.packets, Framing.chunks_eq_singleton hsome (by omega), if_neg (by omega),
        List.append_nil]
    rw [hpackets] at hprefix
    exact htaken (List.prefix_nil.1 hprefix)

end ReportWriter

namespace Station
open ReportWriter

/-- Sends chords one after another. -/
def sendAll (st : Station ε) : List (List KeyCode) → Station ε × List Event
  | [] => (st, [])
  | chord :: rest =>
    let (next, events, _) := st.send chord
    let (last, later) := sendAll next rest
    (last, events ++ later)

/-- What is sent for chords is what the writer sends of their reports. -/
theorem sent_sendAll (hs : 0 < size) {st : Station ε} (hused : st.Used)
    (h : Endpoint.Answers size st.endpoint) (chords : List (List KeyCode)) :
    sent (st.sendAll chords).2 =
      takenOf (writeAll Report.size st.endpoint (chords.flatMap chordReports)).2 := by
  induction chords generalizing st with
  | nil => rfl
  | cons chord chords ih =>
    have hsends := sendsReports hs h chord
    have hrest := ih (hused.send hs h chord) (answers_send hs h chord)
    rw [hused.report_eq, SendsReports] at hsends
    rw [hsends] at hrest
    have hevents : (st.sendAll (chord :: chords)).2 =
        (st.send chord).2.1 ++ ((st.send chord).1.sendAll chords).2 := rfl
    rw [hevents, hsends, sent_append, hrest, sent_chord, sent_attempts, taken_append, List.append_assoc]
    rfl

theorem length_of_mem_reports {chords : List (List KeyCode)} {report : List UInt8}
    (h : report ∈ chords.flatMap chordReports) : report.length = Report.size := by
  obtain ⟨chord, -, hreport⟩ := List.mem_flatMap.1 h
  exact length_of_mem_chordReports hreport

/-- Whatever an endpoint refuses, the host reads exactly the reports that were written to the end, and
is ready for the next one, if and only if none was interrupted. It reads those before the first such
report, and those behind the next one that is written to the end and has a short packet. -/
theorem host_reads_unless_interrupted (hs : 0 < size) {st : Station ε} (hused : st.Used)
    (h : Endpoint.Answers size st.endpoint) (chords : List (List KeyCode)) :
    let reports := chords.flatMap chordReports
    let written := (writeAll Report.size st.endpoint reports).2
    let read := Framing.join Report.size size []
    sent (st.sendAll chords).2 = takenOf written ∧
    (read (takenOf written) = (delivered reports written, []) ↔ ∀ w ∈ written, ¬ Interrupted w) ∧
    (∀ n, (∀ w ∈ written.take n, ¬ Interrupted w) →
      let later := read (takenOf (written.drop n))
      read (takenOf written) =
        (delivered (reports.take n) (written.take n) ++ later.1, later.2)) ∧
    (Report.size % size ≠ 0 → ∀ n w, written[n]? = some w → w.2 = .done →
      let earlier := read (takenOf (written.take (n + 1)))
      let later := read (takenOf (written.drop (n + 1)))
      read (takenOf written) = (earlier.1 ++ later.1, later.2)) ∧
    (Report.size ≤ size → ∀ w ∈ written, ¬ Interrupted w) := by
  intro reports written read
  have hlength : ∀ report ∈ reports, report.length = Report.size := fun _ => length_of_mem_reports
  have hreports : ∀ report ∈ reports, report.length ≤ Report.size :=
    fun report hmem => Nat.le_of_eq (hlength report hmem)
  have hlimit : 0 < Report.size := by decide
  have hwrote : List.Forall₂ (Wrote Report.size size) reports written := wrote_writeAll hs h hreports
  refine ⟨sent_sendAll hs hused h chords, join_takenOf_iff hs hlimit hreports hwrote, ?_, ?_, ?_⟩
  · intro n hno later
    have hbefore := List.forall₂_take n hwrote
    have hsplit := join_takenOf_append hs hlimit (fun r hr => hreports r (List.mem_of_mem_take hr))
      hbefore hno (takenOf (written.drop n))
    rwa [← takenOf_split] at hsplit
  · intro hmod n w hw hdone earlier later
    have hready : (Framing.join Report.size size [] (takenOf (written.take (n + 1)))).2 = [] :=
      join_takenOf_of_done hs (fun report hmem => by rw [hlength report hmem]; exact hmod) hwrote hw
        hdone
    have hsplit := @Framing.join_append Report.size size [] (takenOf (written.take (n + 1)))
      (takenOf (written.drop (n + 1)))
    rw [← takenOf_split] at hsplit
    simp only [hready] at hsplit
    exact hsplit
  · intro hle
    refine not_interrupted_of_le (fun report hmem => ?_) hle hwrote
    refine ⟨?_, hlength report hmem⟩
    rintro rfl
    exact absurd (hlength [] hmem) (by decide)

/-- The first report is refused at once and the third one after a packet. The host reads the report
between them, and again those behind the fourth. -/
theorem host_reads_unless_interrupted_eight :
    let results := .refused .disabled :: List.replicate 6 .taken ++ [.refused .overflow]
    let st : Station Scripted := { endpoint := { packetSize := 8, results } }
    let reports := [[0x04], [0x05], [0x06]].flatMap chordReports
    let written := (writeAll Report.size st.endpoint reports).2
    let read := Framing.join Report.size 8 []
    0 < 8 ∧ st.Used ∧ Endpoint.Answers 8 st.endpoint ∧
      written.map (·.2) = [.failed .disabled, .done, .failed .overflow, .done, .done, .done] ∧
      (∃ later, (read (takenOf written)).1 = (6 :: List.replicate 33 0) :: later) ∧
      (∃ earlier, (read (takenOf written)).1 =
        earlier ++ [6 :: 0 :: 0x40 :: List.replicate 31 0, 6 :: List.replicate 33 0]) ∧
      ¬ ∀ w ∈ written, ¬ Interrupted w := by
  intro results st reports written read
  have hused : st.Used := .new rfl
  have hanswers : Endpoint.Answers 8 st.endpoint := Scripted.answers 8 (by decide)
  obtain ⟨-, -, hbefore, hbehind, -⟩ :=
    host_reads_unless_interrupted (by decide) hused hanswers [[0x04], [0x05], [0x06]]
  have hfirst : delivered (reports.take 2) (written.take 2) = [6 :: List.replicate 33 0] := by
    decide +kernel
  have hlast : (read (takenOf (written.drop 4))).1 =
      [6 :: 0 :: 0x40 :: List.replicate 31 0, 6 :: List.replicate 33 0] := by decide +kernel
  have hfourth : (written[3]?).map (·.2) = some .done := by decide +kernel
  obtain ⟨w, hw, hdone⟩ := Option.map_eq_some_iff.1 hfourth
  refine ⟨by decide, hused, hanswers, by decide +kernel, ⟨(read (takenOf (written.drop 2))).1, ?_⟩,
    ⟨(read (takenOf (written.take 4))).1, ?_⟩, by decide +kernel⟩
  · have hread : _ = (delivered (reports.take 2) (written.take 2) ++ _, _) :=
      hbefore 2 (by decide +kernel)
    rw [hfirst] at hread
    exact congrArg (·.1) hread
  · have hread : _ = (_ ++ (read (takenOf (written.drop 4))).1, _) := hbehind (by decide) 3 w hw hdone
    rw [hlast] at hread
    exact congrArg (·.1) hread

/-- The second packet of the first report is refused, so that the release report, which is written to
the end, is read as the rest of it. -/
theorem release_spoiled_by_interruption :
    let st : Station Scripted :=
      { endpoint := { packetSize := 8, results := [.taken, .refused .disabled] } }
    let reports := chordReports [0x04]
    let written := (writeAll Report.size st.endpoint reports).2
    st.Used ∧ sent (st.sendAll [[0x04]]).2 = takenOf written ∧
      written.map (·.2) = [.failed .disabled, .done] ∧
      delivered reports written = [6 :: List.replicate 33 0] ∧
      Framing.join Report.size 8 [] (takenOf written) =
        ([6 :: 0 :: 0x10 :: List.replicate 5 0 ++ 6 :: List.replicate 31 0, [0, 0]], []) := by
  refine ⟨.new rfl, ?_, ?_, ?_, ?_⟩ <;> decide +kernel

end Station
end ChordPad
