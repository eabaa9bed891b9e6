import ChordPad.KeyName

/-! The spellings of a name. In a listed name of several characters case, `-` and `_` do not count.
The number of a function key is read as it stands, so no code is found for the name of a function key
with `-` or `_` in it. -/
namespace ChordPad

namespace KeyName
variable {a b name : List Char}

/-- A character that is left out of the longer names. -/
def isMark (c : Char) : Bool := c == '-' || c == '_'

def hasMark (name : List Char) : Bool := name.any isMark

theorem length_normal_le (name : List Char) : (normal name).length ≤ name.length := by
  rw [normal, List.length_map]
  exact List.length_filter_le _ _

theorem normal_eq_map_toLower (h : hasMark name = false) : normal name = name.map Char.toLower := by
  have hkept : ∀ c ∈ name, (c != '-' && c != '_') = true := by
    intro c hc
    simpa [isMark] using List.any_eq_false.1 h c hc
  rw [normal, List.filter_eq_self.2 hkept]

theorem isSingle_eq_false (h : 2 ≤ name.length) : isSingle name = false := by
  cases name with
  | nil => rfl
  | cons c rest =>
    cases rest with
    | nil => simp at h
    | cons d rest => rfl

theorem letterOrDigit?_eq_none (h : 2 ≤ name.length) : letterOrDigit? name = none := by
  cases name with
  | nil => rfl
  | cons c rest =>
    cases rest with
    | nil => simp at h
    | cons d rest => rfl

/-! Lower case keeps digits, `+` and the letter of the function keys. -/

theorem toNat_toLower (c : Char) :
    c.toLower.toNat = if 65 ≤ c.toNat ∧ c.toNat ≤ 90 then c.toNat + 32 else c.toNat := by
  have hupper : c.val ≥ 'A'.val ∧ c.val ≤ 'Z'.val ↔ 65 ≤ c.toNat ∧ c.toNat ≤ 90 := Iff.rfl
  by_cases h : 65 ≤ c.toNat ∧ c.toNat ≤ 90
  · have hlower : c.toLower.toNat = (c.val + ('a'.val - 'A'.val)).toNat :=
      congrArg Char.toNat (dif_pos (hupper.2 h))
    have hsum : (c.val + ('a'.val - 'A'.val)).toNat = (c.toNat + 32) % 2 ^ 32 := UInt32.toNat_add _ _
    rw [hlower, hsum, if_pos h]
    exact Nat.mod_eq_of_lt (by omega)
  · have hkept : c.toLower = c := dif_neg (mt hupper.1 h)
    rw [hkept, if_neg h]

theorem isDigit_toLower (c : Char) : c.toLower.isDigit = c.isDigit := by
  have hzero : '0'.toNat = 48 := rfl
  have hnine : '9'.toNat = 57 := rfl
  rw [Bool.eq_iff_iff, Char.isDigit_iff_toNat, Char.isDigit_iff_toNat, toNat_toLower]
  split <;> omega

theorem toLower_of_isDigit {c : Char} (h : c.isDigit = true) : c.toLower = c := by
  have hnine : '9'.toNat = 57 := rfl
  have hc := (Char.isDigit_iff_toNat.1 h).2
  apply Char.toNat_inj.1
  rw [toNat_toLower, if_neg (by omega)]

theorem toLower_eq_plus_iff (c : Char) : c.toLower = '+' ↔ c = '+' := by
  have hplus : '+'.toNat = 43 := rfl
  rw [← Char.toNat_inj, ← Char.toNat_inj, toNat_toLower, hplus]
  split <;> omega

theorem toLower_eq_f_iff (c : Char) : c.toLower = 'f' ↔ c = 'f' ∨ c = 'F' := by
  have hlower : 'f'.toNat = 102 := rfl
  have hupper : 'F'.toNat = 70 := rfl
  rw [← Char.toNat_inj, ← Char.toNat_inj, ← Char.toNat_inj, toNat_toLower, hlower, hupper]
  split <;> omega

theorem toLower_ne_upper_f (c : Char) : c.toLower ≠ 'F' := by
  have hupper : 'F'.toNat = 70 := rfl
  rw [Ne, ← Char.toNat_inj, toNat_toLower, hupper]
  split <;> omega

/-! Function keys: case does not count in their names, marks do. -/

theorem decimal?_cons (d : Char) (ds : List Char) : decimal? (d :: ds) =
    if (d :: ds).all Char.isDigit then
      some ((d :: ds).foldl (fun n d => 10 * n + (d.toNat - 48)) 0) else none := rfl

theorem byte?_cons (c : Char) (rest : List Char) :
    byte? (c :: rest) = (decimal? (if c = '+' then rest else c :: rest)).filter (· < 256) := by
  by_cases h : c = '+'
  · subst h
    rfl
  · simp [byte?, h]

theorem functionNumber?_cons (c : Char) (rest : List Char) :
    functionNumber? (c :: rest) = if c = 'f' ∨ c = 'F' then
      (byte? rest).filter fun n => 1 ≤ n && n ≤ 12 else none := by
  by_cases hlower : c = 'f'
  · subst hlower
    rfl
  · by_cases hupper : c = 'F'
    · subst hupper
      rfl
    · simp [functionNumber?, hlower, hupper]

theorem decimal?_map_toLower (ds : List Char) : decimal? (ds.map Char.toLower) = decimal? ds := by
  cases ds with
  | nil => rfl
  | cons d ds =>
    by_cases h : (d :: ds).all Char.isDigit = true
    · have hsame : (d :: ds).map Char.toLower = (d :: ds).map id :=
        List.map_congr_left fun c hc => toLower_of_isDigit (List.all_eq_true.1 h c hc)
      rw [hsame, List.map_id]
    · have hlower : ¬ ((d :: ds).map Char.toLower).all Char.isDigit = true := by
        rw [List.all_map]
        simpa only [Function.comp_def, isDigit_toLower] using h
      rw [decimal?_cons, if_neg h, List.map_cons, decimal?_cons]
      exact if_neg hlower

theorem byte?_map_toLower (text : List Char) : byte? (text.map Char.toLower) = byte? text := by
  cases text with
  | nil => rfl
  | cons c rest =>
    rw [List.map_cons, byte?_cons, byte?_cons]
    simp only [toLower_eq_plus_iff]
    split
    · rw [decimal?_map_toLower]
    · rw [← List.map_cons, decimal?_map_toLower]

theorem functionNumber?_map_toLower (name : List Char) :
    functionNumber? (name.map Char.toLower) = functionNumber? name := by
  cases name with
  | nil => rfl
  | cons c rest =>
    rw [List.map_cons, functionNumber?_cons, functionNumber?_cons, byte?_map_toLower]
    simp only [toLower_eq_f_iff, toLower_ne_upper_f, or_false]

theorem decimal?_of_hasMark {ds : List Char} (h : hasMark ds = true) : decimal? ds = none := by
  cases ds with
  | nil => rfl
  | cons d ds =>
    have hdigits : ¬ (d :: ds).all Char.isDigit = true := by
      intro hall
      obtain ⟨c, hc, hmark⟩ := List.any_eq_true.1 h
      have hdigit := List.all_eq_true.1 hall c hc
      rcases (by simpa [isMark] using hmark : c = '-' ∨ c = '_') with rfl | rfl
      · exact absurd hdigit (by decide)
      · exact absurd hdigit (by decide)
    rw [decimal?_cons, if_neg hdigits]

theorem hasMark_of_cons {c : Char} {rest : List Char} (h : hasMark (c :: rest) = true)
    (hc : isMark c = false) : hasMark rest = true := by
  simpa [hasMark, hc] using h

theorem byte?_of_hasMark {text : List Char} (h : hasMark text = true) : byte? text = none := by
  cases text with
  | nil => rfl
  | cons c rest =>
    rw [byte?_cons]
    split
    · rename_i hplus
      subst hplus
      rw [decimal?_of_hasMark (hasMark_of_cons h rfl)]
      rfl
    · rw [decimal?_of_hasMark h]
      rfl

theorem functionNumber?_of_hasMark (h : hasMark name = true) : functionNumber? name = none := by
  cases name with
  | nil => rfl
  | cons c rest =>
    rw [functionNumber?_cons]
    split
    · rename_i hf
      have hc : isMark c = false := by
        rcases hf with rfl | rfl
        · rfl
        · rfl
      rw [byte?_of_hasMark (hasMark_of_cons h hc)]
      rfl
    · rfl

theorem functionNumber?_eq (name : List Char) :
    functionNumber? name = if hasMark name then none else functionNumber? (normal name) := by
  cases h : hasMark name with
  | true => exact functionNumber?_of_hasMark h
  | false =>
    rw [normal_eq_map_toLower h, functionNumber?_map_toLower]
    rfl

/-! Listed names: only what is left of a longer name counts. -/

theorem same_eq (n : List Char) (h : isSingle name = false) :
    same n name = (!isSingle n && normal n == normal name) := by
  cases hn : isSingle n with
  | false => simp [same, hn, h]
  | true =>
    have hne : n ≠ name := by
      rintro rfl
      exact absurd (hn.symm.trans h) (by decide)
    simp [same, hn, hne]

theorem covers_congr (ha : isSingle a = false) (hb : isSingle b = false) (h : normal a = normal b)
    (entry : KeyName) : entry.covers a = entry.covers b := by
  simp only [covers, same_eq _ ha, same_eq _ hb, h]

theorem listed_no_functionNumber : ∀ entry ∈ listed, ∀ n ∈ entry.names,
    functionNumber? (normal n.toList) = none := by
  decide +kernel

/-- No listed name is spelled like the name of a function key. -/
theorem find?_covers_eq_none (h : isSingle name = false) {n : Nat}
    (hn : functionNumber? (normal name) = some n) : listed.find? (·.covers name) = none := by
  rw [List.find?_eq_none]
  intro entry hentry hcovers
  obtain ⟨other, hother, hsame⟩ := List.any_eq_true.1 hcovers
  rw [same_eq _ h, Bool.and_eq_true, beq_iff_eq] at hsame
  have hnone := listed_no_functionNumber entry hentry other hother
  rw [hsame.2, hn] at hnone
  cases hnone

end KeyName

namespace KeyCode
open KeyName
variable {a b name : List Char}

theorem ofName?_eq (h : 2 ≤ name.length) :
    ofName? name = ((functionNumber? name).map fun n => function1 + .ofNat n - 1).or
      ((listed.find? (·.covers name)).map (·.code)) := by
  rw [ofName?, letterOrDigit?_eq_none h, Option.none_or]

theorem ofName?_functionKey (h : 2 ≤ name.length) {n : Nat}
    (hn : functionNumber? (normal name) = some n) :
    ofName? name = if hasMark name then none else some (function1 + .ofNat n - 1) := by
  rw [ofName?_eq h, find?_covers_eq_none (isSingle_eq_false h) hn, functionNumber?_eq, hn]
  cases hasMark name with
  | true => rfl
  | false => rfl

theorem ofName?_congr (ha : 2 ≤ a.length) (hb : 2 ≤ b.length) (hsame : normal a = normal b)
    (hnone : functionNumber? (normal a) = none) : ofName? a = ofName? b := by
  have hcovers := covers_congr (isSingle_eq_false ha) (isSingle_eq_false hb) hsame
  have hfunction (name : List Char) (h : functionNumber? (normal name) = none) :
      functionNumber? name = none := by
    rw [functionNumber?_eq, h, ite_self]
  rw [ofName?_eq ha, ofName?_eq hb, hfunction a hnone, hfunction b (hsame ▸ hnone)]
  simp only [hcovers]

/-- Names that differ only in case, `-` and `_` stand for the same code unless they are names of a
function key and one of them has marks where the other has none: no code is found for the name of a
function key with a mark in it. -/
theorem same_code_unless_marked (hsame : normal a = normal b) (hlong : 2 ≤ (normal a).length) :
    (ofName? a = ofName? b ↔ functionNumber? (normal a) = none ∨ hasMark a = hasMark b) ∧
    ∀ n, functionNumber? (normal a) = some n →
      ofName? a = if hasMark a then none else some (function1 + .ofNat n - 1) := by
  have ha : 2 ≤ a.length := Nat.le_trans hlong (length_normal_le a)
  have hb : 2 ≤ b.length := Nat.le_trans (hsame ▸ hlong) (length_normal_le b)
  refine ⟨?_, fun n => ofName?_functionKey ha⟩
  cases hn : functionNumber? (normal a) with
  | none => exact iff_of_true (ofName?_congr ha hb hsame hn) (.inl rfl)
  | some n =>
    rw [ofName?_functionKey ha hn, ofName?_functionKey hb (hsame ▸ hn)]
    cases hasMark a <;> cases hasMark b <;> simp

/-- The same key in two spellings, and a function key without and with a mark. -/
theorem same_code_unless_marked_pageUp :
    normal "Page_Up".toList = normal "pageUP".toList ∧ 2 ≤ (normal "Page_Up".toList).length ∧
      ofName? "Page_Up".toList = ofName? "pageUP".toList ∧
      normal "f12".toList = normal "F-12".toList ∧ 2 ≤ (normal "f12".toList).length ∧
      ofName? "f12".toList ≠ ofName? "F-12".toList ∧ ofName? "f12".toList = some 0x45 := by
  have hsame : normal "Page_Up".toList = normal "pageUP".toList := by decide +kernel
  have hlong : 2 ≤ (normal "Page_Up".toList).length := by decide +kernel
  have hsame' : normal "f12".toList = normal "F-12".toList := by decide +kernel
  have hlong' : 2 ≤ (normal "f12".toList).length := by decide +kernel
  have hpage := (same_code_unless_marked hsame hlong).1.2 (.inl (by decide +kernel))
  obtain ⟨hiff, hcode⟩ := same_code_unless_marked hsame' hlong'
  refine ⟨hsame, hlong, hpage, hsame', hlong', ?_, hcode 12 (by decide +kernel)⟩
  rw [Ne, hiff]
  decide +kernel

/-- A mark makes the name of a function key unknown. -/
theorem marked_functionKey_unknown :
    normal "F_1".toList = normal "F1".toList ∧ 2 ≤ (normal "F_1".toList).length ∧
      ofName? "F1".toList = some 0x3a ∧ ofName? "F_1".toList = none := by
  decide +kernel

end KeyCode
end ChordPad
