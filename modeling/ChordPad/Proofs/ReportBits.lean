import ChordPad.Report.Descriptor

/-! What a host reads out of the keyboard's report: by the fields that the descriptor declares, just
the codes that were pressed. -/
namespace ChordPad

/-- The page and usage of every field that is set in a report; none if the descriptor is not
readable. -/
def Descriptor.down? (descriptor report : List UInt8) : Option (List (Nat × Nat)) :=
  (inputs? descriptor).map fun fields => fields.flatMap (·.down report)

namespace Report
open Descriptor

theorem testBit_or_shiftLeft (b : UInt8) {k : UInt8} (hk : k.toNat < 8) {i : Nat} (hi : i < 8) :
    (b ||| 1 <<< k).toNat.testBit i = (b.toNat.testBit i || decide (k.toNat = i)) := by
  rw [UInt8.toNat_or, UInt8.toNat_shiftLeft, Nat.testBit_or, Nat.mod_eq_of_lt hk,
    Nat.testBit_mod_two_pow, Nat.testBit_shiftLeft]
  congr 1
  have hone : (1 <<< k.toNat : Nat).testBit i = decide (k.toNat = i) := by
    rw [Nat.one_shiftLeft, Nat.testBit_two_pow]
  rw [← hone, Nat.testBit_shiftLeft, UInt8.toNat_one, decide_eq_true hi, Bool.true_and]

theorem isModifier_iff (code : KeyCode) :
    code.isModifier = true ↔ 0xe0 ≤ code.toNat ∧ code.toNat ≤ 0xe7 := by
  simp [KeyCode.isModifier, KeyCode.leftCtrl, KeyCode.rightGui, UInt8.le_iff_toNat_le]

theorem testBit_modifiers_press (report : Report) (code : KeyCode) {i : Nat} (hi : i < 8) :
    (report.press code).modifiers.toNat.testBit i =
      (report.modifiers.toNat.testBit i || decide (code.toNat = 0xe0 + i)) := by
  unfold press
  split
  · rename_i hm
    rw [isModifier_iff] at hm
    have hle : KeyCode.leftCtrl ≤ code := by
      simpa [UInt8.le_iff_toNat_le, KeyCode.leftCtrl] using hm.1
    have hsub : (code - KeyCode.leftCtrl).toNat = code.toNat - 0xe0 := by
      rw [UInt8.toNat_sub_of_le _ _ hle]
      simp [KeyCode.leftCtrl]
    have hlt : (code - KeyCode.leftCtrl).toNat < 8 := by rw [hsub]; omega
    rw [KeyCode.modifierBit, testBit_or_shiftLeft _ hlt hi, hsub]
    have hiff : code.toNat - 0xe0 = i ↔ code.toNat = 0xe0 + i := by omega
    rw [decide_eq_decide.2 hiff]
  · rename_i hm
    rw [isModifier_iff] at hm
    have hne : code.toNat ≠ 0xe0 + i := by omega
    split <;> simp [hne]

/-- A code that has a bit of its own: a key that is no modifier. -/
def hasBit (code : KeyCode) : Bool := !code.isModifier && !(code < KeyCode.firstKey : Bool)

theorem hasBit_iff (code : KeyCode) :
    hasBit code = true ↔ 4 ≤ code ∧ ¬ (0xe0 ≤ code ∧ code ≤ 0xe7) := by
  have hlow : ¬ code < KeyCode.firstKey ↔ 4 ≤ code := UInt8.not_lt
  have hmodifier : code.isModifier = true ↔ 0xe0 ≤ code ∧ code ≤ 0xe7 := by
    rw [KeyCode.isModifier, Bool.and_eq_true, decide_eq_true_eq, decide_eq_true_eq]
    rfl
  rw [hasBit, Bool.and_eq_true, and_comm, Bool.not_eq_true', Bool.not_eq_true',
    decide_eq_false_iff_not, hlow, ← hmodifier, Bool.not_eq_true]

theorem bit_keys_press {report : Report} (hlength : report.keys.length = 32) (code : KeyCode)
    (k : Nat) : bit (report.press code).keys k =
      (bit report.keys k || (decide (code.toNat = k) && hasBit code)) := by
  unfold press
  split
  · rename_i hm
    simp [hasBit, hm]
  · rename_i hm
    split
    · rename_i hlow
      simp [hasBit, hlow]
    · rename_i hlow
      have hbyte : code.toNat / 8 < report.keys.length := by
        have := code.toNat_lt
        omega
      have hmod : (code % 8).toNat = code.toNat % 8 := by simp
      simp only [hasBit, hm, hlow, decide_false, Bool.not_false, Bool.and_true, bit]
      by_cases hk : code.toNat / 8 = k / 8
      · rw [← hk, List.getElem?_modify_eq, List.getElem?_eq_getElem hbyte]
        simp only [Option.map_eq_map, Option.map_some, Option.getD_some]
        rw [testBit_or_shiftLeft _ (by rw [hmod]; omega) (Nat.mod_lt k (by decide)), hmod]
        congr 1
        simp only [decide_eq_decide]
        omega
      · have hne : code.toNat ≠ k := by rintro rfl; exact hk rfl
        rw [List.getElem?_modify_ne _ _ hk]
        simp [hne]

theorem testBit_modifiers_pressAll (codes : List KeyCode) (report : Report) {i : Nat} (hi : i < 8) :
    (report.pressAll codes).modifiers.toNat.testBit i =
      (report.modifiers.toNat.testBit i || codes.any fun code => decide (code.toNat = 0xe0 + i)) := by
  induction codes generalizing report with
  | nil => simp [pressAll]
  | cons code codes ih =>
    have hstep := ih (report.press code)
    rw [testBit_modifiers_press report code hi] at hstep
    rw [List.any_cons, ← Bool.or_assoc, ← hstep]
    rfl

theorem bit_keys_pressAll (codes : List KeyCode) {report : Report}
    (hlength : report.keys.length = 32) (k : Nat) :
    bit (report.pressAll codes).keys k =
      (bit report.keys k || codes.any fun code => decide (code.toNat = k) && hasBit code) := by
  induction codes generalizing report with
  | nil => simp [pressAll]
  | cons code codes ih =>
    have hstep := @ih (report.press code) (by rw [length_keys_press, hlength])
    rw [bit_keys_press hlength] at hstep
    rw [List.any_cons, ← Bool.or_assoc, ← hstep]
    rfl

theorem testBit_modifiers_chord (codes : List KeyCode) {i : Nat} (hi : i < 8) :
    (pressAll {} codes).modifiers.toNat.testBit i =
      codes.any fun code => decide (code.toNat = 0xe0 + i) := by
  rw [testBit_modifiers_pressAll codes {} hi]
  simp

theorem bit_keys_chord (codes : List KeyCode) (k : Nat) : bit (pressAll {} codes).keys k =
    codes.any fun code => decide (code.toNat = k) && hasBit code := by
  have hempty : bit ({} : Report).keys k = false := by
    rw [bit, List.getElem?_replicate]
    split <;> simp
  rw [bit_keys_pressAll codes rfl, hempty, Bool.false_or]

/-- The two rows of fields that the keyboard declares: a bit for every modifier, then one for every
usage from 0 to 0xfe. -/
theorem inputs?_keyboard : inputs? keyboard =
    some [⟨6, 7, List.range' 0xe0 8, 0, 1, 8, false⟩, ⟨6, 7, List.range' 0 255, 8, 1, 255, false⟩] := by
  decide +kernel

theorem down_of_consecutive {f : Fields} (first : Nat) (hid : f.id = Report.id.toNat)
    (hdata : f.isConstant = false) (hsize : f.size = 1)
    (husages : f.usages = List.range' first f.count) (body : List UInt8) :
    f.down (Report.id :: body) = ((List.range f.count).filter fun k => bit body (f.offset + k)).map
      fun k => (f.page, first + k) := by
  have hset : f.isSet body = fun k => bit body (f.offset + k) := by
    funext k
    simp [Fields.isSet, hsize]
  rw [Fields.down, if_neg (by simp [hid, hdata]), hset]
  refine List.map_congr_left fun k hk => ?_
  have hlt : k < f.count := List.mem_range.1 (List.mem_filter.1 hk).1
  rw [husages, List.getElem?_range' hlt, Nat.one_mul]
  rfl

theorem bit_cons_of_lt (byte : UInt8) (bytes : List UInt8) {k : Nat} (hk : k < 8) :
    bit (byte :: bytes) k = byte.toNat.testBit k := by
  rw [bit, Nat.div_eq_of_lt hk, Nat.mod_eq_of_lt hk]
  rfl

theorem bit_cons_add (byte : UInt8) (bytes : List UInt8) (k : Nat) :
    bit (byte :: bytes) (8 + k) = bit bytes k := by
  have hdiv : (8 + k) / 8 = k / 8 + 1 := by omega
  have hmod : (8 + k) % 8 = k % 8 := by omega
  rw [bit, hdiv, hmod, List.getElem?_cons_succ, bit]

theorem down?_bytes (report : Report) : down? keyboard report.bytes =
    some (((List.range 8).filter fun i => report.modifiers.toNat.testBit i).map
        (fun i => (7, 0xe0 + i)) ++
      ((List.range 255).filter fun k => bit report.keys k).map fun k => (7, k)) := by
  have hmodifiers : (List.range 8).filter (fun k => bit (report.modifiers :: report.keys) (0 + k)) =
      (List.range 8).filter fun i => report.modifiers.toNat.testBit i :=
    List.filter_congr fun i hi => by
      rw [Nat.zero_add, bit_cons_of_lt _ _ (List.mem_range.1 hi)]
  rw [down?, inputs?_keyboard, Option.map_some, List.flatMap_cons, List.flatMap_cons,
    List.flatMap_nil, List.append_nil, bytes,
    down_of_consecutive 0xe0 rfl rfl rfl rfl,
    down_of_consecutive 0 rfl rfl rfl rfl, hmodifiers]
  simp only [bit_cons_add, Nat.zero_add]

/-- A host sees the modifiers among the codes, then the other keys among them. -/
theorem down?_pressAll (codes : List KeyCode) : down? keyboard (pressAll {} codes).bytes =
    some (((List.range 8).filter fun i => codes.any fun code => decide (code.toNat = 0xe0 + i)).map
        (fun i => (7, 0xe0 + i)) ++
      ((List.range 255).filter fun k =>
        codes.any fun code => decide (code.toNat = k) && hasBit code).map fun k => (7, k)) := by
  have hmodifiers : (List.range 8).filter (fun i => (pressAll {} codes).modifiers.toNat.testBit i) =
      (List.range 8).filter fun i => codes.any fun code => decide (code.toNat = 0xe0 + i) :=
    List.filter_congr fun i hi => testBit_modifiers_chord codes (List.mem_range.1 hi)
  rw [down?_bytes, hmodifiers]
  simp only [bit_keys_chord]

/-! The bytes of a report as a whole. -/

theorem eq_of_testBit {a b : UInt8} (h : ∀ i < 8, a.toNat.testBit i = b.toNat.testBit i) : a = b := by
  apply UInt8.eq_of_toBitVec_eq
  apply BitVec.eq_of_getLsbD_eq
  intro i hi
  exact h i hi

theorem eq_of_bit {u v : List UInt8} (hlength : u.length = v.length)
    (h : ∀ k < 8 * u.length, bit u k = bit v k) : u = v := by
  apply List.ext_getElem hlength
  intro j hu hv
  apply eq_of_testBit
  intro i hi
  have hbit := h (8 * j + i) (by omega)
  have hdiv : (8 * j + i) / 8 = j := by omega
  have hmod : (8 * j + i) % 8 = i := by omega
  simpa only [bit, hdiv, hmod, List.getElem?_eq_getElem hu, List.getElem?_eq_getElem hv,
    Option.getD_some] using hbit

theorem bit_drop (bytes : List UInt8) (n k : Nat) : bit (bytes.drop n) k = bit bytes (8 * n + k) := by
  have hdiv : (8 * n + k) / 8 = n + k / 8 := by omega
  have hmod : (8 * n + k) % 8 = k % 8 := by omega
  simp only [bit, List.getElem?_drop, hdiv, hmod]

theorem toNat_eq_modifier_iff {i : Nat} (hi : i < 8) (code : KeyCode) :
    code.toNat = 0xe0 + i ↔ code = 0xe0 + UInt8.ofNat i := by
  rw [← UInt8.toNat_inj, UInt8.toNat_add, UInt8.toNat_ofNat']
  simp
  omega

/-- The bytes of a report in which exactly these codes are held, as far as they are keys. -/
structure Holds (bytes : List UInt8) (codes : List KeyCode) : Prop where
  length_eq : bytes.length = 34
  id_eq : bytes[0]? = some 6
  modifier_iff : ∀ i < 8, bit (bytes.drop 1) i = true ↔ 0xe0 + UInt8.ofNat i ∈ codes
  key_iff : ∀ code : KeyCode, bit (bytes.drop 2) code.toNat = true ↔
    code ∈ codes ∧ 4 ≤ code ∧ ¬ (0xe0 ≤ code ∧ code ≤ 0xe7)

theorem holds_pressAll (codes : List KeyCode) : Holds (pressAll {} codes).bytes codes where
  length_eq := length_bytes_pressAll codes
  id_eq := rfl
  modifier_iff i hi := by
    have hbyte : bit ((pressAll {} codes).bytes.drop 1) i =
        (pressAll {} codes).modifiers.toNat.testBit i := bit_cons_of_lt _ _ hi
    rw [hbyte, testBit_modifiers_chord codes hi]
    simp [toNat_eq_modifier_iff hi]
  key_iff code := by
    have hbyte : bit ((pressAll {} codes).bytes.drop 2) code.toNat =
        bit (pressAll {} codes).keys code.toNat := rfl
    rw [hbyte, bit_keys_chord, ← hasBit_iff]
    simp [UInt8.toNat_inj, and_left_comm]

/-- The codes settle every bit. -/
theorem Holds.congr {u v : List UInt8} {codes others : List KeyCode} (hu : Holds u codes)
    (hv : Holds v others) (h : ∀ code, code ∈ codes ↔ code ∈ others) : u = v := by
  apply eq_of_bit (hu.length_eq.trans hv.length_eq.symm)
  intro k hk
  rw [hu.length_eq] at hk
  by_cases hid : k < 8
  · simp only [bit, Nat.div_eq_of_lt hid, hu.id_eq, hv.id_eq]
  · by_cases hmodifier : k < 16
    · have hsplit : k = 8 * 1 + (k - 8) := by omega
      have hi : k - 8 < 8 := by omega
      rw [hsplit, ← bit_drop, ← bit_drop, Bool.eq_iff_iff, hu.modifier_iff _ hi,
        hv.modifier_iff _ hi, h]
    · have hcode : (UInt8.ofNat (k - 16)).toNat = k - 16 :=
        UInt8.toNat_ofNat_of_lt (show k - 16 < 256 by omega)
      have hsplit : k = 8 * 2 + (UInt8.ofNat (k - 16)).toNat := by omega
      rw [hsplit, ← bit_drop, ← bit_drop, Bool.eq_iff_iff, hu.key_iff, hv.key_iff, h]

end Report
end ChordPad
