import ChordPad.Proofs.Writing

/-! Refused packets. A report is written up to its first packet that is refused, and ends with the
error of that one. Only the last packet may be refused after all bytes have come through. -/
namespace ChordPad
variable {ε : Type} [Endpoint ε] {limit size : Nat}

/-- What the endpoint makes of packets that are handed over one after another, whatever became of
those before. -/
def Endpoint.resultsOf (e : ε) : List Packet → List PacketResult
  | [] => []
  | packet :: rest => (Endpoint.write e packet).2 :: resultsOf (Endpoint.write e packet).1 rest

namespace ReportWriter

/-- Packets that are handed over in order up to the first one that is refused, by the results that
they would have. -/
inductive Stops (packets : List Packet) (results : List PacketResult) :
    List Attempt × Outcome → Prop
  | never : results = packets.map (fun _ => .taken) →
      Stops packets results (packets.map (⟨·, true⟩), .done)
  | refused {before after : List Packet} {packet : Packet} {error : EndpointError}
      {later : List PacketResult} : packets = before ++ packet :: after →
      results = before.map (fun _ => .taken) ++ .refused error :: later →
      Stops packets results (before.map (⟨·, true⟩) ++ [⟨packet, false⟩], .failed error)

namespace Stops
variable {packets : List Packet} {results : List PacketResult} {w : List Attempt × Outcome}

theorem cons (h : Stops packets results w) (packet : Packet) :
    Stops (packet :: packets) (.taken :: results) (⟨packet, true⟩ :: w.1, w.2) := by
  cases h with
  | never hresults => exact @never (packet :: packets) _ (congrArg (.taken :: ·) hresults)
  | @refused before after last error later hpackets hresults =>
    exact @refused _ _ (packet :: before) after last error later (congrArg (packet :: ·) hpackets)
      (congrArg (.taken :: ·) hresults)

theorem done_iff (h : Stops packets results w) : w.2 = .done ↔ ∀ a ∈ w.1, a.taken = true := by
  cases h with
  | never _ => simp
  | refused _ _ => simp

theorem flatten_taken_prefix (h : Stops packets results w) :
    (taken w.1).flatten <+: packets.flatten := by
  cases h with
  | never _ => simp only [taken_map, List.prefix_rfl]
  | @refused before after packet error later hpackets _ =>
    have hbefore : taken (before.map (⟨·, true⟩) ++ [⟨packet, false⟩]) = before := by
      rw [taken_append, taken_map]
      exact List.append_nil before
    rw [hbefore, hpackets, List.flatten_append]
    exact List.prefix_append _ _

theorem flatten_taken_of_done (h : Stops packets results w) (hdone : w.2 = .done) :
    (taken w.1).flatten = packets.flatten := by
  cases h with
  | never _ => rw [taken_map]
  | refused _ _ => cases hdone

end Stops

theorem writePackets_stops {e : ε} (h : Endpoint.Answers size e) (packets : List Packet) :
    Stops packets (Endpoint.resultsOf e packets) (writePackets e packets).2 := by
  induction packets generalizing e with
  | nil => exact .never rfl
  | cons packet packets ih =>
    obtain ⟨hnot, hnext⟩ := h.write packet
    rw [Endpoint.resultsOf, writePackets]
    split
    · rename_i next hwrite
      rw [hwrite] at hnext ⊢
      exact (ih hnext).cons packet
    · rename_i next error hwrite
      rw [hwrite]
      exact @Stops.refused _ _ [] packets packet error _ rfl rfl
    · rename_i next hwrite
      exact absurd (congrArg (·.2) hwrite) hnot

/-- A report that is too long is refused before anything is handed over. Of any other report the
packets go out that an endpoint would get which takes them all, up to the first one that is refused;
the report fails with the error of that one, or else it is done. What is taken are the first bytes of
the report, and all of them when it is done. -/
theorem stops_at_first_refusal (hs : 0 < size) {e : ε} (h : Endpoint.Answers size e) {φ : Type}
    [Endpoint φ] {free : φ} (hfree : Endpoint.TakesAll size free) (report : List UInt8) :
    let wrote := (write limit e report).2
    let whole := (write limit free report).2.1.map (·.packet)
    (limit < report.length → wrote = ([], .failed .overflow)) ∧
    (report.length ≤ limit → whole = Framing.packets limit size report ∧
      Stops whole (Endpoint.resultsOf e whole) wrote ∧
      (wrote.2 = .done ↔ ∀ a ∈ wrote.1, a.taken = true)) ∧
    (taken wrote.1).flatten <+: report ∧ (wrote.2 = .done → (taken wrote.1).flatten = report) := by
  intro wrote whole
  by_cases hreport : report.length ≤ limit
  · have hwhole : whole = Framing.packets limit size report := by
      obtain ⟨next, hwrite, -⟩ := write_of_takesAll hs hfree hreport
      have hpackets : whole = ((Framing.packets limit size report).map
          fun packet => (⟨packet, true⟩ : Attempt)).map (·.packet) :=
        congrArg (fun w => w.2.1.map Attempt.packet) hwrite
      rw [hpackets, List.map_map]
      exact List.map_id _
    have hstops : Stops whole (Endpoint.resultsOf e whole) wrote := by
      have hwrote : wrote = (writePackets e whole).2 := by
        rw [hwhole, ← write_eq hs h.packetSize_eq hreport]
      rw [hwrote]
      exact writePackets_stops h whole
    have hflatten : whole.flatten = report := by rw [hwhole, Framing.flatten_packets]
    refine ⟨fun hlong => absurd hreport (Nat.not_le.2 hlong),
      fun _ => ⟨hwhole, hstops, hstops.done_iff⟩, ?_, ?_⟩
    · rw [← hflatten]
      exact hstops.flatten_taken_prefix
    · intro hdone
      rw [← hflatten]
      exact hstops.flatten_taken_of_done hdone
  · have hwrote : wrote = ([], .failed .overflow) := by
      have hwrite : write limit e report = (e, [], .failed .overflow) :=
        if_pos (Nat.lt_of_not_le hreport)
      exact congrArg (·.2) hwrite
    refine ⟨fun _ => hwrote, fun hle => absurd hle hreport, ?_, ?_⟩
    · rw [hwrote]
      exact List.nil_prefix
    · intro hdone
      rw [hwrote] at hdone
      cases hdone

/-- The empty packet at the end is refused, so that the report fails although all of it came through. -/
theorem stops_at_first_refusal_atEnd :
    let e : Scripted := { packetSize := 2, results := [.taken, .taken, .refused .disabled] }
    let free : Scripted := { packetSize := 2 }
    let report : List UInt8 := [1, 2, 3, 4]
    0 < 2 ∧ Endpoint.Answers 2 e ∧ Endpoint.TakesAll 2 free ∧ report.length ≤ 34 ∧
      (write 34 e report).2 =
        ([⟨[1, 2], true⟩, ⟨[3, 4], true⟩, ⟨[], false⟩], .failed .disabled) ∧
      (taken (write 34 e report).2.1).flatten = report ∧
      Stops [[1, 2], [3, 4], []] [.taken, .taken, .refused .disabled] (write 34 e report).2 := by
  intro e free report
  have hanswers : Endpoint.Answers 2 e := Scripted.answers 2 (by decide)
  have hfree : Endpoint.TakesAll 2 free := Scripted.takesAll 2
  have hreport : report.length ≤ 34 := by decide
  obtain ⟨-, hstops, -⟩ := @stops_at_first_refusal _ _ 34 2 (by decide) e hanswers _ _ free hfree report
  have hwhole : (write 34 free report).2.1.map (·.packet) = [[1, 2], [3, 4], []] := by decide +kernel
  have hstop := (hstops hreport).2.1
  rw [hwhole] at hstop
  exact ⟨by decide, hanswers, hfree, hreport, by decide +kernel, by decide +kernel, hstop⟩

end ReportWriter
end ChordPad
