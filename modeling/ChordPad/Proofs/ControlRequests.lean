import ChordPad.Usb.Interface

/-! The control requests of a keyboard interface, one after another. Which of them it answers depends on
whom they are for, and its answers fit each other: the protocol it names is the one that was set last,
and the length in its class descriptor is that of the report descriptor it hands out. -/
namespace ChordPad.Interface

/-- A control request: with the data that come along, or with so many bytes of room for the answer. -/
inductive Call
  | toDevice (s : Setup) (data : List UInt8)
  | toHost (s : Setup) (room : Nat)
  deriving DecidableEq

/-- A request and its answer; none is left to someone else. -/
inductive Exchange
  | toDevice (s : Setup) (data : List UInt8) (reply : Option OutReply)
  | toHost (s : Setup) (room : Nat) (reply : Option InReply)
  deriving DecidableEq

def exchange (i : Interface) : Call → Exchange
  | .toDevice s data => .toDevice s data (i.controlOut s)
  | .toHost s room => .toHost s room (i.controlIn s room)

/-- The exchanges of requests one after another. The interface itself stays as it is. -/
def session (i : Interface) (calls : List Call) : List Exchange := calls.map i.exchange

/-- The protocol after an exchange: it is set by a request that is accepted. -/
def Exchange.protocolAfter (before : UInt16) : Exchange → UInt16
  | .toDevice s _ (some .accepted) => if s.request = setProtocol then s.value else before
  | _ => before

/-- The protocol that was set last, and the report protocol at first. -/
def protocolSet (exchanges : List Exchange) : UInt16 :=
  exchanges.foldl Exchange.protocolAfter reportProtocol.toUInt16

/-- The request is for the interface. -/
structure Addressed (i : Interface) (s : Setup) : Prop where
  recipient_eq : s.recipient = .interface
  index_eq : s.index.toNat = i.number.toNat

/-- The bytes that the host is given for a request. -/
inductive Fetches (i : Interface) (s : Setup) : List UInt8 → Prop
  | reportDescriptor : s.type = .standard → s.request = getDescriptor →
      s.valueHigh = reportDescriptorType → Fetches i s i.reportDescriptor
  | hidDescriptor : s.type = .standard → s.request = getDescriptor →
      s.valueHigh = hidDescriptorType → Fetches i s i.hidDescriptor
  | idleRate : s.type = .classRequest → s.request = getIdle → Fetches i s [0]
  | protocol : s.type = .classRequest → s.request = getProtocol → Fetches i s [reportProtocol]

/-- What the host may rely on, whatever it asks and in which order. -/
structure Consistent (i : Interface) (exchanges : List Exchange) : Prop where
  toDevice_none_iff : ∀ s data reply, .toDevice s data reply ∈ exchanges →
    (reply = none ↔
      ¬ (s.type = .classRequest ∧ s.recipient = .interface ∧ s.index.toNat = i.number.toNat))
  toHost_none_iff : ∀ s room reply, .toHost s room reply ∈ exchanges →
    (reply = none ↔ s.index.toNat ≠ i.number.toNat ∨ s.recipient ≠ .interface ∨
      s.type ≠ .standard ∧ s.type ≠ .classRequest)
  answered : ∀ s room, .toHost s room (some .noBuffer) ∉ exchanges
  accepted_iff : ∀ s data reply, .toDevice s data reply ∈ exchanges →
    (reply = some .accepted ↔ s.type = .classRequest ∧ i.Addressed s ∧
      (s.request = setIdle ∨ s.request = setReport ∨
        s.request = setProtocol ∧ s.value.toNat = reportProtocol.toNat))
  data_iff : ∀ s room reply bytes, .toHost s room reply ∈ exchanges →
    (reply = some (.data bytes) ↔ i.Addressed s ∧ i.Fetches s bytes)
  /-- The protocol that is named is the one that was set last. -/
  protocol : ∀ before s room bytes after,
    exchanges = before ++ .toHost s room (some (.data bytes)) :: after →
    s.request = getProtocol → ∃ b, bytes = [b] ∧ b.toNat = (protocolSet before).toNat
  /-- The whole descriptor is given that the high byte of the value selects. -/
  descriptor : ∀ s room bytes, .toHost s room (some (.data bytes)) ∈ exchanges →
    s.request = getDescriptor →
      s.valueHigh = reportDescriptorType ∧ bytes = i.reportDescriptor ∨
      s.valueHigh = hidDescriptorType ∧ bytes = i.hidDescriptor
  /-- The class descriptor begins with its own length, and ends with that of the other one. -/
  lengths : ∀ s room bytes, .toHost s room (some (.data bytes)) ∈ exchanges →
    s.request = getDescriptor → s.valueHigh = hidDescriptorType →
      (∃ b, bytes[0]? = some b ∧ b.toNat = bytes.length) ∧
      (i.reportDescriptor.length < 65536 → ∃ lo hi, bytes[7]? = some lo ∧ bytes[8]? = some hi ∧
        lo.toNat + 256 * hi.toNat = i.reportDescriptor.length)

variable {i : Interface} {s : Setup} {room : Nat} {bytes : List UInt8}

/-! Single requests. -/

theorem addressed_iff :
    i.Addressed s ↔ s.recipient = .interface ∧ s.index.toNat = i.number.toNat :=
  ⟨fun h => ⟨h.1, h.2⟩, fun h => ⟨h.1, h.2⟩⟩

theorem controlOut_class (h : i.Addressed s) (htype : s.type = .classRequest) :
    i.controlOut s = some (
      if s.request = setIdle ∨ s.request = setReport then .accepted
      else if s.request = setProtocol ∧ s.value.toNat = reportProtocol.toNat then .accepted
      else .rejected) := by
  rw [controlOut, if_pos ⟨htype, addressed_iff.1 h⟩]
  simp only [apply_ite some]

theorem controlOut_eq_none (h : ¬ (s.type = .classRequest ∧ i.Addressed s)) :
    i.controlOut s = none := by
  rw [addressed_iff] at h
  rw [controlOut, if_neg h]

theorem controlOut_eq_none_iff :
    i.controlOut s = none ↔ ¬ (s.type = .classRequest ∧ i.Addressed s) := by
  by_cases hfor : s.type = .classRequest ∧ i.Addressed s
  · rw [controlOut_class hfor.2 hfor.1]
    exact iff_of_false (Option.some_ne_none _) (not_not_intro hfor)
  · exact iff_of_true (controlOut_eq_none hfor) hfor

theorem controlOut_eq_accepted_iff : i.controlOut s = some .accepted ↔
    s.type = .classRequest ∧ i.Addressed s ∧ (s.request = setIdle ∨ s.request = setReport ∨
      s.request = setProtocol ∧ s.value.toNat = reportProtocol.toNat) := by
  by_cases hfor : s.type = .classRequest ∧ i.Addressed s
  · rw [controlOut_class hfor.2 hfor.1, Option.some_inj, ← and_assoc, and_iff_right hfor, ← or_assoc]
    by_cases hquiet : s.request = setIdle ∨ s.request = setReport
    · rw [if_pos hquiet]
      exact iff_of_true rfl (.inl hquiet)
    · rw [if_neg hquiet, or_iff_right hquiet]
      exact ite_eq_left_iff.trans (by simp)
  · rw [controlOut_eq_none hfor]
    exact iff_of_false (by decide) fun h => hfor ⟨h.1, h.2.1⟩

theorem controlIn_standard (h : i.Addressed s) (htype : s.type = .standard) :
    i.controlIn s room = some (
      if s.request ≠ getDescriptor then .rejected
      else if s.valueHigh = reportDescriptorType then .data i.reportDescriptor
      else if s.valueHigh = hidDescriptorType then .data i.hidDescriptor
      else .rejected) := by
  rw [controlIn, if_neg (not_not_intro h.index_eq), htype, h.recipient_eq]
  simp only [apply_ite some]

theorem controlIn_class (h : i.Addressed s) (htype : s.type = .classRequest) (hroom : 0 < room) :
    i.controlIn s room = some (
      if s.request = getIdle then .data [0]
      else if s.request = getProtocol then .data [reportProtocol]
      else .rejected) := by
  rw [controlIn, if_neg (not_not_intro h.index_eq), htype, h.recipient_eq]
  simp only [apply_ite some, Nat.ne_of_gt hroom, if_false]

theorem controlIn_eq_none (h : ¬ (i.Addressed s ∧ (s.type = .standard ∨ s.type = .classRequest))) :
    i.controlIn s room = none := by
  rw [controlIn]
  split
  · rfl
  · rename_i hindex
    have hindex := Decidable.not_not.1 hindex
    split
    · rename_i htype hrecipient
      exact absurd ⟨⟨hrecipient, hindex⟩, .inl htype⟩ h
    · rename_i htype hrecipient
      exact absurd ⟨⟨hrecipient, hindex⟩, .inr htype⟩ h
    · rfl

theorem Fetches.type_eq (h : i.Fetches s bytes) : s.type = .standard ∨ s.type = .classRequest := by
  cases h with
  | reportDescriptor htype => exact .inl htype
  | hidDescriptor htype => exact .inl htype
  | idleRate htype => exact .inr htype
  | protocol htype => exact .inr htype

theorem controlIn_of_fetches (hroom : 0 < room) (haddressed : i.Addressed s) (h : i.Fetches s bytes) :
    i.controlIn s room = some (.data bytes) := by
  cases h with
  | reportDescriptor htype hrequest hhigh =>
    rw [controlIn_standard haddressed htype, if_neg (not_not_intro hrequest), if_pos hhigh]
  | hidDescriptor htype hrequest hhigh =>
    have hother : s.valueHigh ≠ reportDescriptorType := by rw [hhigh]; decide
    rw [controlIn_standard haddressed htype, if_neg (not_not_intro hrequest), if_neg hother,
      if_pos hhigh]
  | idleRate htype hrequest =>
    rw [controlIn_class haddressed htype hroom, if_pos hrequest]
  | protocol htype hrequest =>
    have hother : s.request ≠ getIdle := by rw [hrequest]; decide
    rw [controlIn_class haddressed htype hroom, if_neg hother, if_pos hrequest]

/-- A request that is for the interface is answered, and no other one. -/
theorem controlIn_cases (i : Interface) (s : Setup) (hroom : 0 < room) :
    i.controlIn s room = none ∧
      ¬ (i.Addressed s ∧ (s.type = .standard ∨ s.type = .classRequest)) ∨
    i.controlIn s room = some .rejected ∧
      i.Addressed s ∧ (s.type = .standard ∨ s.type = .classRequest) ∨
    ∃ bytes, i.controlIn s room = some (.data bytes) ∧ i.Addressed s ∧ i.Fetches s bytes := by
  by_cases hfor : i.Addressed s ∧ (s.type = .standard ∨ s.type = .classRequest)
  · refine .inr ?_
    obtain ⟨haddressed, htype | htype⟩ := hfor
    · rw [controlIn_standard haddressed htype]
      split
      · exact .inl ⟨rfl, haddressed, .inl htype⟩
      · rename_i hrequest
        have hrequest := Decidable.not_not.1 hrequest
        split
        · rename_i hhigh
          exact .inr ⟨_, rfl, haddressed, .reportDescriptor htype hrequest hhigh⟩
        · split
          · rename_i hhigh
            exact .inr ⟨_, rfl, haddressed, .hidDescriptor htype hrequest hhigh⟩
          · exact .inl ⟨rfl, haddressed, .inl htype⟩
    · rw [controlIn_class haddressed htype hroom]
      split
      · rename_i hrequest
        exact .inr ⟨_, rfl, haddressed, .idleRate htype hrequest⟩
      · split
        · rename_i hrequest
          exact .inr ⟨_, rfl, haddressed, .protocol htype hrequest⟩
        · exact .inl ⟨rfl, haddressed, .inr htype⟩
  · exact .inl ⟨controlIn_eq_none hfor, hfor⟩

theorem controlIn_eq_none_iff (hroom : 0 < room) : i.controlIn s room = none ↔
    ¬ (i.Addressed s ∧ (s.type = .standard ∨ s.type = .classRequest)) := by
  obtain ⟨hreply, hfor⟩ | ⟨hreply, hfor⟩ | ⟨bytes, hreply, haddressed, hfetches⟩ :=
    controlIn_cases i s hroom
  · exact iff_of_true hreply hfor
  · rw [hreply]
    exact iff_of_false (Option.some_ne_none _) (not_not_intro hfor)
  · rw [hreply]
    exact iff_of_false (Option.some_ne_none _) (not_not_intro ⟨haddressed, hfetches.type_eq⟩)

theorem controlIn_ne_noBuffer (hroom : 0 < room) : i.controlIn s room ≠ some .noBuffer := by
  obtain ⟨hreply, -⟩ | ⟨hreply, -⟩ | ⟨bytes, hreply, -⟩ := controlIn_cases i s hroom
  · rw [hreply]
    exact (Option.some_ne_none _).symm
  · rw [hreply]
    decide
  · rw [hreply]
    simp

theorem controlIn_eq_data_iff (hroom : 0 < room) :
    i.controlIn s room = some (.data bytes) ↔ i.Addressed s ∧ i.Fetches s bytes := by
  refine ⟨?_, fun h => controlIn_of_fetches hroom h.1 h.2⟩
  intro h
  obtain ⟨hreply, -⟩ | ⟨hreply, -⟩ | ⟨other, hreply, haddressed, hfetches⟩ :=
    controlIn_cases i s hroom
  · rw [hreply] at h
    cases h
  · rw [hreply] at h
    cases h
  · rw [hreply] at h
    cases h
    exact ⟨haddressed, hfetches⟩

/-! The descriptor of the class. -/

theorem hidDescriptor_states_length (i : Interface) :
    ∃ b, i.hidDescriptor[0]? = some b ∧ b.toNat = i.hidDescriptor.length :=
  ⟨_, rfl, rfl⟩

theorem hidDescriptor_states_reportLength (h : i.reportDescriptor.length < 65536) :
    ∃ lo hi, i.hidDescriptor[7]? = some lo ∧ i.hidDescriptor[8]? = some hi ∧
      lo.toNat + 256 * hi.toNat = i.reportDescriptor.length := by
  refine ⟨_, _, rfl, rfl, ?_⟩
  simp only [UInt8.toNat_ofNat']
  omega

/-! Requests one after another. -/

theorem mem_session_toDevice {calls : List Call} {data : List UInt8} {reply : Option OutReply}
    (h : .toDevice s data reply ∈ i.session calls) : reply = i.controlOut s := by
  obtain ⟨call, -, hsame⟩ := List.mem_map.1 h
  cases call with
  | toDevice s data =>
    cases hsame
    rfl
  | toHost s room => cases hsame

theorem mem_session_toHost {calls : List Call} {reply : Option InReply}
    (h : .toHost s room reply ∈ i.session calls) :
    .toHost s room ∈ calls ∧ reply = i.controlIn s room := by
  obtain ⟨call, hcall, hsame⟩ := List.mem_map.1 h
  cases call with
  | toDevice s data => cases hsame
  | toHost s room =>
    cases hsame
    exact ⟨hcall, rfl⟩

theorem value_of_accepted (h : i.controlOut s = some .accepted) (hrequest : s.request = setProtocol) :
    s.value = reportProtocol.toUInt16 := by
  obtain ⟨-, -, hidle | hreport | ⟨-, hvalue⟩⟩ := controlOut_eq_accepted_iff.1 h
  · rw [hrequest] at hidle
    exact absurd hidle (by decide)
  · rw [hrequest] at hreport
    exact absurd hreport (by decide)
  · exact UInt16.toNat_inj.1 hvalue

theorem protocolAfter_exchange (i : Interface) (call : Call) :
    (i.exchange call).protocolAfter reportProtocol.toUInt16 = reportProtocol.toUInt16 := by
  cases call with
  | toHost s room => rfl
  | toDevice s data =>
    cases hreply : i.controlOut s with
    | none => rw [exchange, hreply]; rfl
    | some reply =>
      rw [exchange, hreply]
      cases reply with
      | rejected => rfl
      | accepted =>
        rw [Exchange.protocolAfter]
        split
        · rename_i hrequest
          exact value_of_accepted hreply hrequest
        · rfl

theorem protocolSet_session (i : Interface) (calls : List Call) :
    protocolSet (i.session calls) = reportProtocol.toUInt16 := by
  induction calls with
  | nil => rfl
  | cons call calls ih =>
    rw [protocolSet, session, List.map_cons, List.foldl_cons, protocolAfter_exchange]
    exact ih

theorem protocol_of_fetches (h : i.Fetches s bytes) (hrequest : s.request = getProtocol) :
    bytes = [reportProtocol] := by
  cases h with
  | protocol => rfl
  | reportDescriptor _ hother => exact absurd (hrequest.symm.trans hother) (by decide)
  | hidDescriptor _ hother => exact absurd (hrequest.symm.trans hother) (by decide)
  | idleRate _ hother => exact absurd (hrequest.symm.trans hother) (by decide)

theorem descriptor_of_fetches (h : i.Fetches s bytes) (hrequest : s.request = getDescriptor) :
    s.valueHigh = reportDescriptorType ∧ bytes = i.reportDescriptor ∨
      s.valueHigh = hidDescriptorType ∧ bytes = i.hidDescriptor := by
  cases h with
  | reportDescriptor _ _ hhigh => exact .inl ⟨hhigh, rfl⟩
  | hidDescriptor _ _ hhigh => exact .inr ⟨hhigh, rfl⟩
  | idleRate _ hother => exact absurd (hrequest.symm.trans hother) (by decide)
  | protocol _ hother => exact absurd (hrequest.symm.trans hother) (by decide)

/-- Whatever was asked before, an interface answers the requests that are for it and leaves all others,
names the protocol that was set last, and gives the descriptors that fit each other. -/
theorem answers_consistently (i : Interface) {calls : List Call}
    (hroom : ∀ s room, .toHost s room ∈ calls → 0 < room) : i.Consistent (i.session calls) := by
  have hfetches {s : Setup} {room : Nat} {bytes : List UInt8}
      (h : .toHost s room (some (.data bytes)) ∈ i.session calls) : i.Fetches s bytes := by
    obtain ⟨hcall, hreply⟩ := mem_session_toHost h
    exact ((controlIn_eq_data_iff (hroom s room hcall)).1 hreply.symm).2
  refine ⟨?_, ?_, ?_, ?_, ?_, ?_, ?_, ?_⟩
  · intro s data reply h
    rw [mem_session_toDevice h, controlOut_eq_none_iff, addressed_iff]
  · intro s room reply h
    obtain ⟨hcall, hreply⟩ := mem_session_toHost h
    rw [hreply, controlIn_eq_none_iff (hroom s room hcall), addressed_iff]
    simp only [Decidable.not_and_iff_not_or_not, not_or, or_assoc, or_left_comm, ne_eq]
  · intro s room h
    obtain ⟨hcall, hreply⟩ := mem_session_toHost h
    exact controlIn_ne_noBuffer (hroom s room hcall) hreply.symm
  · intro s data reply h
    rw [mem_session_toDevice h, controlOut_eq_accepted_iff]
  · intro s room reply bytes h
    obtain ⟨hcall, hreply⟩ := mem_session_toHost h
    rw [hreply, controlIn_eq_data_iff (hroom s room hcall)]
  · intro before s room bytes after hsplit hrequest
    have hbytes := protocol_of_fetches (hfetches (hsplit ▸ List.mem_append_right _ List.mem_cons_self))
      hrequest
    obtain ⟨earlier, later, -, hbefore, -⟩ := List.map_eq_append_iff.1 hsplit
    refine ⟨reportProtocol, hbytes, ?_⟩
    rw [← hbefore]
    exact congrArg UInt16.toNat (protocolSet_session i earlier).symm
  · intro s room bytes h hrequest
    exact descriptor_of_fetches (hfetches h) hrequest
  · intro s room bytes h hrequest hhigh
    obtain ⟨hother, -⟩ | ⟨-, rfl⟩ := descriptor_of_fetches (hfetches h) hrequest
    · rw [hhigh] at hother
      exact absurd hother (by decide)
    · exact ⟨hidDescriptor_states_length i, hidDescriptor_states_reportLength⟩

/-- A value that only ends like the report protocol is not accepted. The index of a descriptor does not
count, and a length of 300 takes two bytes. -/
theorem answers_consistently_wideValue :
    let i : Interface := ⟨1, List.replicate 300 0⟩
    let setup (type : RequestType) (request : UInt8) (value : UInt16) : Setup :=
      ⟨true, type, .interface, request, value, 1, 64⟩
    let calls : List Call := [.toDevice (setup .classRequest setProtocol 0x0101) [],
      .toHost (setup .classRequest getProtocol 0) 1, .toHost (setup .standard getDescriptor 0x2107) 64]
    (∀ s room, .toHost s room ∈ calls → 0 < room) ∧
    i.session calls = [.toDevice (setup .classRequest setProtocol 0x0101) [] (some .rejected),
      .toHost (setup .classRequest getProtocol 0) 1 (some (.data [1])),
      .toHost (setup .standard getDescriptor 0x2107) 64
        (some (.data [9, 0x21, 0x11, 1, 0, 1, 0x22, 44, 1]))] ∧
    i.Consistent (i.session calls) := by
  intro i setup calls
  have hroom : ∀ s room, .toHost s room ∈ calls → 0 < room := by
    intro s room h
    simp only [calls, List.mem_cons, List.not_mem_nil, Call.toHost.injEq, reduceCtorEq, false_or,
      or_false] at h
    omega
  exact ⟨hroom, by decide +kernel, answers_consistently i hroom⟩

end ChordPad.Interface
