import Mathlib.Data.List.Nodup
import ChordPad.Proofs.Sending

/-! The reports of a chord against the descriptor. The two are written down apart from each other;
what a host reads by the declared fields are the codes of the chord, each once. -/
namespace ChordPad
open Descriptor
variable {bytes : List UInt8} {codes : List KeyCode}

namespace Report

/-- The eight fields that the descriptor declares first. -/
def modifierFields : Fields := ⟨6, 7, List.range' 0xe0 8, 0, 1, 8, false⟩

/-- The 255 fields behind them. -/
def keyFields : Fields := ⟨6, 7, List.range' 0 255, 8, 1, 255, false⟩

theorem Holds.eq_cons (h : Holds bytes codes) : bytes = Report.id :: bytes.drop 1 := by
  cases bytes with
  | nil => exact absurd h.id_eq (by simp)
  | cons byte rest =>
    have hid : byte = 6 := by simpa using h.id_eq
    rw [hid]
    rfl

theorem Holds.down_modifierFields (h : Holds bytes codes) : modifierFields.down bytes =
    ((List.range 8).filter fun i => decide (0xe0 + UInt8.ofNat i ∈ codes)).map
      fun i => (7, 0xe0 + i) := by
  have hbits : (List.range 8).filter (fun i => bit (bytes.drop 1) (0 + i)) =
      (List.range 8).filter fun i => decide (0xe0 + UInt8.ofNat i ∈ codes) := by
    apply List.filter_congr
    intro i hi
    rw [Nat.zero_add, Bool.eq_iff_iff, h.modifier_iff i (List.mem_range.1 hi), decide_eq_true_eq]
  rw [h.eq_cons, down_of_consecutive 0xe0 rfl rfl rfl rfl]
  exact congrArg (List.map _) hbits

theorem Holds.down_keyFields (h : Holds bytes codes) : keyFields.down bytes =
    ((List.range 255).filter fun k => decide (UInt8.ofNat k ∈ codes ∧ 4 ≤ k ∧
      ¬ (0xe0 ≤ k ∧ k ≤ 0xe7))).map fun k => (7, 0 + k) := by
  have hbits : (List.range 255).filter (fun k => bit (bytes.drop 1) (8 + k)) =
      (List.range 255).filter fun k => decide (UInt8.ofNat k ∈ codes ∧ 4 ≤ k ∧
        ¬ (0xe0 ≤ k ∧ k ≤ 0xe7)) := by
    apply List.filter_congr
    intro k hk
    have hcode : (UInt8.ofNat k).toNat = k :=
      UInt8.toNat_ofNat_of_lt (Nat.lt_succ_of_lt (List.mem_range.1 hk))
    have hkey := h.key_iff (UInt8.ofNat k)
    have hdrop := bit_drop (bytes.drop 1) 1 k
    rw [List.drop_drop] at hdrop
    simp only [hcode, UInt8.le_iff_toNat_le] at hkey
    rw [Bool.eq_iff_iff, decide_eq_true_eq, ← hdrop]
    exact hkey
  rw [h.eq_cons, down_of_consecutive 0 rfl rfl rfl rfl]
  exact congrArg (List.map _) hbits

theorem Holds.mem_down_modifierFields (h : Holds bytes codes) {page usage : Nat} :
    (page, usage) ∈ modifierFields.down bytes ↔
      page = 7 ∧ ∃ code ∈ codes, code.toNat = usage ∧ 0xe0 ≤ usage ∧ usage ≤ 0xe7 := by
  rw [h.down_modifierFields]
  simp only [List.mem_map, List.mem_filter, List.mem_range, decide_eq_true_eq, Prod.mk.injEq]
  constructor
  · rintro ⟨i, ⟨hi, hmem⟩, rfl, rfl⟩
    have hcode := (toNat_eq_modifier_iff hi _).2 rfl
    exact ⟨rfl, _, hmem, hcode, by omega, by omega⟩
  · rintro ⟨rfl, code, hmem, rfl, hle, hge⟩
    have hi : code.toNat - 0xe0 < 8 := by omega
    have hcode := (toNat_eq_modifier_iff hi code).1 (by omega)
    refine ⟨code.toNat - 0xe0, ⟨hi, ?_⟩, rfl, by omega⟩
    rwa [← hcode]

theorem Holds.mem_down_keyFields (h : Holds bytes codes) {page usage : Nat} :
    (page, usage) ∈ keyFields.down bytes ↔ page = 7 ∧ ∃ code ∈ codes, code.toNat = usage ∧
      (4 ≤ usage ∧ usage ≤ 0xfe) ∧ ¬ (0xe0 ≤ usage ∧ usage ≤ 0xe7) := by
  rw [h.down_keyFields]
  simp only [List.mem_map, List.mem_filter, List.mem_range, decide_eq_true_eq, Prod.mk.injEq,
    Nat.zero_add]
  constructor
  · rintro ⟨k, ⟨hk, hmem, hlow, hmodifier⟩, rfl, rfl⟩
    exact ⟨rfl, _, hmem, UInt8.toNat_ofNat_of_lt (Nat.lt_succ_of_lt hk), by omega, hmodifier⟩
  · rintro ⟨rfl, code, hmem, rfl, hrange, hmodifier⟩
    refine ⟨code.toNat, ⟨by omega, ?_, hrange.1, hmodifier⟩, rfl, rfl⟩
    rwa [UInt8.ofNat_toNat]

theorem nodup_usages (page base n : Nat) (p : Nat → Bool) :
    (((List.range n).filter p).map fun i => (page, base + i)).Nodup := by
  apply (List.nodup_range.filter p).map
  intro i j hij
  simpa using hij

/-- No usage is set twice, in one row of fields or in both. -/
theorem Holds.nodup_down (h : Holds bytes codes) :
    (modifierFields.down bytes ++ keyFields.down bytes).Nodup := by
  refine List.nodup_append.2 ⟨?_, ?_, ?_⟩
  · rw [h.down_modifierFields]
    exact nodup_usages 7 0xe0 8 _
  · rw [h.down_keyFields]
    exact nodup_usages 7 0 255 _
  · -- The modifiers are declared in both rows; only their bits in the first one are ever set.
    rintro ⟨page, usage⟩ hmodifier _ hkey rfl
    obtain ⟨-, -, -, -, hin⟩ := h.mem_down_modifierFields.1 hmodifier
    obtain ⟨-, -, -, -, -, hout⟩ := h.mem_down_keyFields.1 hkey
    exact hout hin

theorem down?_keyboard (bytes : List UInt8) :
    down? keyboard bytes = some (modifierFields.down bytes ++ keyFields.down bytes) := by
  rw [down?, inputs?_keyboard, Option.map_some, List.flatMap_cons, List.flatMap_cons,
    List.flatMap_nil, List.append_nil]
  rfl

theorem Holds.mem_down (h : Holds bytes codes) {page usage : Nat} :
    (page, usage) ∈ modifierFields.down bytes ++ keyFields.down bytes ↔
      page = 7 ∧ ∃ code ∈ codes, code.toNat = usage ∧ 4 ≤ usage ∧ usage ≤ 0xfe := by
  rw [List.mem_append, h.mem_down_modifierFields, h.mem_down_keyFields]
  constructor
  · rintro (⟨rfl, code, hmem, rfl, hrange⟩ | ⟨rfl, code, hmem, rfl, hrange, -⟩)
    · exact ⟨rfl, code, hmem, rfl, by omega, by omega⟩
    · exact ⟨rfl, code, hmem, rfl, hrange⟩
  · rintro ⟨rfl, code, hmem, rfl, hrange⟩
    by_cases hmodifier : 0xe0 ≤ code.toNat ∧ code.toNat ≤ 0xe7
    · exact Or.inl ⟨rfl, code, hmem, rfl, hmodifier⟩
    · exact Or.inr ⟨rfl, code, hmem, rfl, hrange, hmodifier⟩

end Report

variable {ε : Type} [Endpoint ε] {size : Nat}

/-- Whatever was sent before, a host that reads the first report of a call by the declared fields sees
exactly the codes of the call from 4 to 0xfe, each modifier in its own field only, and the second
report shows it nothing. Both have the length that the declared fields need. -/
theorem declared_fields_show_chord (hs : 0 < size) {before : Station ε} (hused : before.Used)
    (h : Endpoint.Answers size before.endpoint) (chord : List KeyCode) :
    let first := (before.report.pressAll chord).bytes
    let second := ({} : Report).bytes
    before.SendsReports chord first second ∧
    ∃ modifiers keys : Fields, inputs? keyboard = some [modifiers, keys] ∧
      (∀ page usage, (page, usage) ∈ modifiers.down first ↔
        page = 7 ∧ ∃ code ∈ chord, code.toNat = usage ∧ 0xe0 ≤ usage ∧ usage ≤ 0xe7) ∧
      (∀ page usage, (page, usage) ∈ keys.down first ↔ page = 7 ∧ ∃ code ∈ chord,
        code.toNat = usage ∧ (4 ≤ usage ∧ usage ≤ 0xfe) ∧ ¬ (0xe0 ≤ usage ∧ usage ≤ 0xe7)) ∧
      (∃ held, down? keyboard first = some held ∧ held.Nodup ∧ ∀ page usage,
        (page, usage) ∈ held ↔
          page = 7 ∧ ∃ code ∈ chord, code.toNat = usage ∧ 4 ≤ usage ∧ usage ≤ 0xfe) ∧
      down? keyboard second = some [] ∧
      first.length = reportLength [modifiers, keys] ∧
      second.length = reportLength [modifiers, keys] := by
  intro first second
  have hfirst : Report.Holds first chord := Station.holds_pressAll hused.report_eq chord
  have hsecond : Report.Holds second [] := Report.holds_pressAll []
  refine ⟨Station.sendsReports hs h chord, Report.modifierFields, Report.keyFields,
    Report.inputs?_keyboard, fun page usage => hfirst.mem_down_modifierFields,
    fun page usage => hfirst.mem_down_keyFields,
    ⟨_, Report.down?_keyboard first, hfirst.nodup_down, fun page usage => hfirst.mem_down⟩, ?_,
    hfirst.length_eq, hsecond.length_eq⟩
  have hreleased : Report.modifierFields.down second ++ Report.keyFields.down second = [] := by
    apply List.eq_nil_iff_forall_not_mem.2
    rintro ⟨page, usage⟩ hmem
    obtain ⟨-, code, hcode, -⟩ := hsecond.mem_down.1 hmem
    simp at hcode
  rw [Report.down?_keyboard, hreleased]

/-- After a chord whose reports were both refused: a code below the keys, a repeated code, a modifier
and the code 0xff, which has a bit but no field. -/
theorem declared_fields_show_chord_refused :
    let start : Station Scripted :=
      { endpoint := { packetSize := 8, results := [.refused .disabled, .refused .disabled] } }
    let before := (start.send [0xe1, 0x05]).1
    let chord := [0x06, 0xe0, 0x06, 0x01, 0xff]
    let first := (before.report.pressAll chord).bytes
    0 < 8 ∧ before.Used ∧ Endpoint.Answers 8 before.endpoint ∧
      before.SendsReports chord first ({} : Report).bytes ∧
      down? keyboard first = some [(7, 0xe0), (7, 0x06)] ∧
      down? keyboard ({} : Report).bytes = some [] := by
  intro start before chord first
  have hstart : Endpoint.Answers 8 start.endpoint := Scripted.answers 8 (by decide)
  have hused : before.Used := Station.Used.send (by decide) (.new rfl) hstart [0xe1, 0x05]
  have hbefore : Endpoint.Answers 8 before.endpoint :=
    Station.answers_send (by decide) hstart [0xe1, 0x05]
  obtain ⟨hsends, _, _, -, -, -, -, hreleased, -, -⟩ :=
    declared_fields_show_chord (by decide) hused hbefore chord
  exact ⟨by decide, hused, hbefore, hsends, by decide +kernel, hreleased⟩

end ChordPad
