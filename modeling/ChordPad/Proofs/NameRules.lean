import ChordPad.Proofs.KeyNames
import ChordPad.Proofs.Spelling
import Mathlib.Data.List.Nodup
import Mathlib.Data.List.Pairwise
import Mathlib.Data.Nat.Digits.Defs

/-! The rules by which a name stands for a code. They give no name two codes, so it does not matter in
which order they are tried, nor in which order the names are listed. -/
namespace ChordPad

namespace KeyName
variable {name text : List Char} {code : KeyCode} {entry : KeyName}

/-- The length of a text in UTF-8. -/
def byteLength (text : List Char) : Nat := (text.map Char.utf8Size).sum

/-- The text is a number of one byte: decimal digits, with at most one plus before them. -/
def IsByte (text : List Char) (n : Nat) : Prop :=
  ∃ ds, (text = ds ∨ text = '+' :: ds) ∧ ds ≠ [] ∧ (∀ d ∈ ds, d.isDigit = true) ∧
    n = Nat.ofDigits 10 (ds.reverse.map fun d => d.toNat - 48) ∧ n < 256

/-- The rules by which a name stands for a code. -/
inductive StandsFor : List Char → KeyCode → Prop
  | letter {c : Char} {i : Nat} : letters[i]? = some c.toLower → StandsFor [c] (.letterA + .ofNat i)
  | digit {c : Char} {i : Nat} : digits[i]? = some c → StandsFor [c] (.digit1 + .ofNat i)
  | functionKey {f : Char} {text : List Char} {n : Nat} : f = 'f' ∨ f = 'F' → IsByte text n →
      1 ≤ n → n ≤ 12 → StandsFor (f :: text) (.function1 + .ofNat n - 1)
  /-- One byte that is listed stands for itself only. -/
  | listedByte {entry : KeyName} {known : String} : entry ∈ listed → known ∈ entry.names →
      byteLength known.toList = 1 → StandsFor known.toList entry.code
  /-- In a longer name case, `-` and `_` do not count. -/
  | listedName {entry : KeyName} {known : String} {name : List Char} : entry ∈ listed →
      known ∈ entry.names → 1 < byteLength known.toList → 1 < byteLength name →
      normal name = normal known.toList → StandsFor name entry.code

/-! Bytes. -/

theorem byteLength_cons (c : Char) (rest : List Char) :
    byteLength (c :: rest) = c.utf8Size + byteLength rest := by
  rw [byteLength, List.map_cons, List.sum_cons, byteLength]

theorem byteLength_eq_zero_iff : byteLength name = 0 ↔ name = [] := by
  cases name with
  | nil => exact iff_of_true rfl rfl
  | cons c rest =>
    have hc := c.utf8Size_pos
    rw [byteLength_cons]
    exact iff_of_false (by omega) (List.cons_ne_nil c rest)

/-- The names that are matched exactly are those of one byte. -/
theorem isSingle_iff : isSingle name = true ↔ byteLength name = 1 := by
  cases name with
  | nil => exact iff_of_false (by decide) (by decide)
  | cons c rest =>
    cases rest with
    | nil =>
      have hascii : c.val < 128 ↔ c.val ≤ 127 := by
        rw [UInt32.lt_iff_toNat_lt, UInt32.le_iff_toNat_le]
        exact Nat.lt_succ_iff
      rw [isSingle, decide_eq_true_iff, hascii, ← Char.utf8Size_eq_one_iff]
      rfl
    | cons d rest =>
      have hc := c.utf8Size_pos
      have hd := d.utf8Size_pos
      rw [byteLength_cons, byteLength_cons, isSingle_eq_false (by simp)]
      exact iff_of_false (by decide) (by omega)

theorem one_lt_byteLength (hne : name ≠ []) (h : isSingle name = false) : 1 < byteLength name := by
  have hzero := mt byteLength_eq_zero_iff.1 hne
  have hone := mt isSingle_iff.2 (by rw [h]; decide)
  omega

theorem isSingle_of_one_lt (h : 1 < byteLength name) : isSingle name = false := by
  rw [← Bool.not_eq_true, isSingle_iff]
  omega

/-! The number of a function key. -/

theorem decimal?_eq_some_iff {ds : List Char} {n : Nat} : decimal? ds = some n ↔
    ds ≠ [] ∧ (∀ d ∈ ds, d.isDigit = true) ∧
      n = Nat.ofDigits 10 (ds.reverse.map fun d => d.toNat - 48) := by
  cases ds with
  | nil => exact iff_of_false (by simp [decimal?]) (by simp)
  | cons d ds =>
    have hvalue : (d :: ds).foldl (fun n d => 10 * n + (d.toNat - 48)) 0 =
        Nat.ofDigits 10 ((d :: ds).reverse.map fun d => d.toNat - 48) := by
      rw [Nat.ofDigits_eq_foldr, List.foldr_map, List.foldr_reverse]
      simp only [Nat.cast_id, Nat.add_comm]
    rw [decimal?_cons, hvalue, Option.ite_none_right_eq_some, List.all_eq_true, Option.some_inj]
    constructor
    · rintro ⟨hdigits, rfl⟩
      exact ⟨List.cons_ne_nil d ds, hdigits, rfl⟩
    · rintro ⟨-, hdigits, rfl⟩
      exact ⟨hdigits, rfl⟩

theorem byte?_eq_some_iff {n : Nat} : byte? text = some n ↔ IsByte text n := by
  have hplus : '+'.isDigit = false := by decide
  cases text with
  | nil => exact iff_of_false (by simp [byte?, decimal?]) (by simp [IsByte])
  | cons c rest =>
    rw [byte?_cons, Option.filter_eq_some_iff, decimal?_eq_some_iff, decide_eq_true_iff]
    constructor
    · rintro ⟨⟨hne, hdigits, hvalue⟩, hlt⟩
      refine ⟨_, ?_, hne, hdigits, hvalue, hlt⟩
      split
      · rename_i hc
        exact .inr (by rw [hc])
      · exact .inl rfl
    · rintro ⟨ds, htext, hne, hdigits, hvalue, hlt⟩
      have hds : (if c = '+' then rest else c :: rest) = ds := by
        rcases htext with rfl | htext
        · refine if_neg ?_
          rintro rfl
          exact absurd (hdigits '+' List.mem_cons_self) (by rw [hplus]; decide)
        · cases htext
          exact if_pos rfl
      rw [hds]
      exact ⟨⟨hne, hdigits, hvalue⟩, hlt⟩

theorem functionNumber?_eq_some_iff {n : Nat} : functionNumber? name = some n ↔
    ∃ f text, name = f :: text ∧ (f = 'f' ∨ f = 'F') ∧ IsByte text n ∧ 1 ≤ n ∧ n ≤ 12 := by
  cases name with
  | nil => exact iff_of_false (by simp [functionNumber?]) (by simp)
  | cons c rest =>
    rw [functionNumber?_cons, Option.ite_none_right_eq_some, Option.filter_eq_some_iff,
      byte?_eq_some_iff, Bool.and_eq_true, decide_eq_true_iff, decide_eq_true_iff]
    constructor
    · rintro ⟨hf, hbyte, hrange⟩
      exact ⟨c, rest, rfl, hf, hbyte, hrange⟩
    · rintro ⟨f, text, heq, hf, hbyte, hrange⟩
      cases heq
      exact ⟨hf, hbyte, hrange⟩

theorem IsByte.ne_nil {n : Nat} (h : IsByte text n) : text ≠ [] := by
  obtain ⟨ds, htext, hne, -⟩ := h
  rcases htext with rfl | rfl
  · exact hne
  · exact List.cons_ne_nil _ _

theorem two_le_length_of_functionNumber? {n : Nat} (h : functionNumber? name = some n) :
    2 ≤ name.length := by
  obtain ⟨f, text, rfl, -, hbyte, -⟩ := functionNumber?_eq_some_iff.1 h
  have hlength := List.length_pos_iff.2 hbyte.ne_nil
  rw [List.length_cons]
  omega

/-! Letters and digits. -/

theorem idxOf?_eq_some_iff_of_nodup {α : Type} [BEq α] [LawfulBEq α] {xs : List α} (h : xs.Nodup)
    {x : α} {i : Nat} : xs.idxOf? x = some i ↔ xs[i]? = some x := by
  rw [List.idxOf?_eq_some_iff, List.getElem?_eq_some_iff]
  constructor
  · rintro ⟨hi, hx, -⟩
    exact ⟨hi, hx⟩
  · rintro ⟨hi, hx⟩
    refine ⟨hi, hx, fun j hj hsame => ?_⟩
    have hindex := (List.Nodup.getElem_inj_iff h).1 (hsame.trans hx.symm)
    omega

theorem nodup_letters : letters.Nodup := by decide +kernel

theorem nodup_digits : digits.Nodup := by decide +kernel

theorem toLower_digit_notMem_letters : ∀ d ∈ digits, d.toLower ∉ letters := by
  have hall : digits.all (fun d => !letters.contains d.toLower) = true := by decide +kernel
  simpa using hall

theorem letterOrDigit?_of_letter {c : Char} {i : Nat} (h : letters[i]? = some c.toLower) :
    letterOrDigit? [c] = some (.letterA + .ofNat i) := by
  rw [letterOrDigit?, (idxOf?_eq_some_iff_of_nodup nodup_letters).2 h]

theorem letterOrDigit?_of_digit {c : Char} {i : Nat} (h : digits[i]? = some c) :
    letterOrDigit? [c] = some (.digit1 + .ofNat i) := by
  have hletter : letters.idxOf? c.toLower = none :=
    List.idxOf?_eq_none_iff.2 (toLower_digit_notMem_letters c (List.mem_of_getElem? h))
  rw [letterOrDigit?, hletter, (idxOf?_eq_some_iff_of_nodup nodup_digits).2 h]
  rfl

theorem eq_of_letterOrDigit? (h : letterOrDigit? name = some code) :
    ∃ c i, name = [c] ∧ (letters[i]? = some c.toLower ∧ code = .letterA + .ofNat i ∨
      digits[i]? = some c ∧ code = .digit1 + .ofNat i) := by
  cases name with
  | nil => cases h
  | cons c rest =>
    cases rest with
    | cons d rest => cases h
    | nil =>
      rw [letterOrDigit?] at h
      split at h
      · rename_i i hi
        cases h
        exact ⟨c, i, rfl, .inl ⟨(idxOf?_eq_some_iff_of_nodup nodup_letters).1 hi, rfl⟩⟩
      · obtain ⟨i, hi, rfl⟩ := Option.map_eq_some_iff.1 h
        exact ⟨c, i, rfl, .inr ⟨(idxOf?_eq_some_iff_of_nodup nodup_digits).1 hi, rfl⟩⟩

theorem standsFor_of_letterOrDigit? (h : letterOrDigit? name = some code) : StandsFor name code := by
  obtain ⟨c, i, rfl, ⟨hletter, rfl⟩ | ⟨hdigit, rfl⟩⟩ := eq_of_letterOrDigit? h
  · exact .letter hletter
  · exact .digit hdigit

theorem isSingle_of_letterOrDigit? (h : letterOrDigit? name = some code) : isSingle name = true := by
  have hascii : ∀ d ∈ letters ++ digits, d.toNat < 128 := by
    have hall : (letters ++ digits).all (·.toNat < 128) = true := by decide +kernel
    exact fun d hd => of_decide_eq_true (List.all_eq_true.1 hall d hd)
  obtain ⟨c, i, rfl, hc⟩ := eq_of_letterOrDigit? h
  rw [isSingle, decide_eq_true_iff]
  rcases hc with ⟨hletter, -⟩ | ⟨hdigit, -⟩
  · have hlower := hascii _ (List.mem_append_left digits (List.mem_of_getElem? hletter))
    rw [toNat_toLower] at hlower
    have hc : c.toNat < 128 := by
      split at hlower
      · omega
      · exact hlower
    exact hc
  · exact hascii _ (List.mem_append_right letters (List.mem_of_getElem? hdigit))

/-! Listed names: each is in one entry, and none is read by another rule. -/

/-- What of a name is matched. -/
def matched (name : List Char) : List Char := if isSingle name then name else normal name

theorem same_self (name : List Char) : same name name = true := by
  rw [same, beq_self_eq_true, beq_self_eq_true, ite_self]

theorem same_of_isSingle (h : isSingle name = true) (known : List Char) :
    same known name = (known == name) := by
  rw [same, h, Bool.or_true, if_pos rfl]

theorem matched_eq_of_same {known : List Char} (h : same known name = true) :
    matched known = matched name := by
  cases hsingle : isSingle name with
  | true =>
    rw [same_of_isSingle hsingle, beq_iff_eq] at h
    rw [h]
  | false =>
    rw [same_eq _ hsingle, Bool.and_eq_true, Bool.not_eq_true', beq_iff_eq] at h
    rw [matched, matched, if_neg (by rw [h.1]; decide), if_neg (by rw [hsingle]; decide), h.2]

theorem nodup_listed :
    (listed.flatMap fun entry => entry.names.map fun known => matched known.toList).Nodup := by
  decide +kernel

theorem entry_unique {other : KeyName} (hentry : entry ∈ listed) (hother : other ∈ listed)
    (h : entry.covers name = true) (h' : other.covers name = true) : entry = other := by
  have hmatched {entry : KeyName} (h : entry.covers name = true) :
      matched name ∈ entry.names.map fun known => matched known.toList := by
    obtain ⟨known, hknown, hsame⟩ := List.any_eq_true.1 h
    exact List.mem_map.2 ⟨known, hknown, matched_eq_of_same hsame⟩
  by_contra hne
  let spellings (entry : KeyName) := entry.names.map fun known => matched known.toList
  have hsymm : Std.Symm (Function.onFun List.Disjoint spellings) := ⟨fun _ _ h _ hx hy => h hy hx⟩
  have hapart := (List.nodup_flatMap.1 nodup_listed).2
  exact hapart.forall hentry hother hne (hmatched h) (hmatched h')

theorem listed_letterOrDigit? : ∀ entry ∈ listed, ∀ known ∈ entry.names,
    letterOrDigit? known.toList = none := by
  decide +kernel

theorem listed_normal_ne_nil : ∀ entry ∈ listed, ∀ known ∈ entry.names,
    isSingle known.toList = false → normal known.toList ≠ [] := by
  decide +kernel

theorem letterOrDigit?_of_covers (hentry : entry ∈ listed) (h : entry.covers name = true) :
    letterOrDigit? name = none := by
  obtain ⟨known, hknown, hsame⟩ := List.any_eq_true.1 h
  cases hsingle : isSingle name with
  | true =>
    rw [same_of_isSingle hsingle, beq_iff_eq] at hsame
    rw [← hsame]
    exact listed_letterOrDigit? entry hentry known hknown
  | false =>
    cases hcode : letterOrDigit? name with
    | none => rfl
    | some code =>
      rw [isSingle_of_letterOrDigit? hcode] at hsingle
      cases hsingle

theorem functionNumber?_of_covers (hentry : entry ∈ listed) (h : entry.covers name = true) :
    functionNumber? name = none := by
  cases hn : functionNumber? name with
  | none => rfl
  | some n =>
    have hlong := isSingle_eq_false (two_le_length_of_functionNumber? hn)
    rw [functionNumber?_eq] at hn
    have hnormal := (Option.ite_none_left_eq_some.1 hn).2
    have hnone := List.find?_eq_none.1 (find?_covers_eq_none hlong hnormal) entry hentry
    exact absurd h hnone

theorem standsFor_of_covers (hentry : entry ∈ listed) (h : entry.covers name = true) :
    StandsFor name entry.code := by
  obtain ⟨known, hknown, hsame⟩ := List.any_eq_true.1 h
  cases hsingle : isSingle name with
  | true =>
    rw [same_of_isSingle hsingle, beq_iff_eq] at hsame
    rw [← hsame] at hsingle ⊢
    exact .listedByte hentry hknown (isSingle_iff.1 hsingle)
  | false =>
    rw [same_eq _ hsingle, Bool.and_eq_true, Bool.not_eq_true', beq_iff_eq] at hsame
    obtain ⟨hknownSingle, hnormal⟩ := hsame
    have hne := listed_normal_ne_nil entry hentry known hknown hknownSingle
    have hknownNe : known.toList ≠ [] := fun hnil => hne (by rw [hnil]; rfl)
    have hnameNe : name ≠ [] := fun hnil => hne (by rw [hnormal, hnil]; rfl)
    exact .listedName hentry hknown (one_lt_byteLength hknownNe hknownSingle)
      (one_lt_byteLength hnameNe hsingle) hnormal.symm

/-! The lookups that are tried one after the other. -/

def functionKey? (name : List Char) : Option KeyCode :=
  (functionNumber? name).map fun n => .function1 + .ofNat n - 1

/-- The code of the first entry of a table that has the name. -/
def lookUp (table : List KeyName) (name : List Char) : Option KeyCode :=
  (table.find? (·.covers name)).map (·.code)

def lookups (table : List KeyName) : List (List Char → Option KeyCode) :=
  [letterOrDigit?, functionKey?, lookUp table]

theorem lookUp_eq_some_iff {table : List KeyName} (htable : table.Perm listed) :
    lookUp table name = some code ↔
      ∃ entry ∈ listed, entry.covers name = true ∧ entry.code = code := by
  rw [lookUp, Option.map_eq_some_iff]
  constructor
  · rintro ⟨entry, hfound, hcode⟩
    have hentry := htable.mem_iff.1 (List.mem_of_find?_eq_some hfound)
    exact ⟨entry, hentry, by simpa using List.find?_some hfound, hcode⟩
  · rintro ⟨entry, hentry, hcovers, hcode⟩
    have hsome : (table.find? (·.covers name)).isSome :=
      List.find?_isSome.2 ⟨entry, htable.mem_iff.2 hentry, hcovers⟩
    obtain ⟨found, hfound⟩ := Option.isSome_iff_exists.1 hsome
    have hmem := htable.mem_iff.1 (List.mem_of_find?_eq_some hfound)
    have hfoundCovers : found.covers name = true := by simpa using List.find?_some hfound
    obtain rfl := entry_unique hmem hentry hfoundCovers hcovers
    exact ⟨found, hfound, hcode⟩

/-- What a lookup finds, a rule gives. -/
theorem standsFor_of_lookup {table : List KeyName} (htable : table.Perm listed)
    {lookup : List Char → Option KeyCode} (h : lookup ∈ lookups table)
    (hcode : lookup name = some code) : StandsFor name code := by
  rw [lookups, List.mem_cons, List.mem_cons, List.mem_singleton] at h
  rcases h with rfl | rfl | rfl
  · exact standsFor_of_letterOrDigit? hcode
  · obtain ⟨n, hn, rfl⟩ := Option.map_eq_some_iff.1 hcode
    obtain ⟨f, text, rfl, hf, hbyte, hone, htwelve⟩ := functionNumber?_eq_some_iff.1 hn
    exact .functionKey hf hbyte hone htwelve
  · obtain ⟨entry, hentry, hcovers, rfl⟩ := (lookUp_eq_some_iff htable).1 hcode
    exact standsFor_of_covers hentry hcovers

theorem findSome?_eq_of_perm {α β : Type} {fs gs : List (α → Option β)} (hperm : fs.Perm gs) {x : α}
    (hagree : ∀ f ∈ fs, ∀ y, f x = some y → gs.findSome? (· x) = some y) :
    fs.findSome? (· x) = gs.findSome? (· x) := by
  cases h : fs.findSome? (· x) with
  | some y =>
    obtain ⟨f, hf, hy⟩ := List.exists_of_findSome?_eq_some h
    exact (hagree f hf y hy).symm
  | none =>
    symm
    rw [List.findSome?_eq_none_iff] at h ⊢
    exact fun g hg => h g (hperm.mem_iff.2 hg)

end KeyName

namespace KeyCode
open KeyName
variable {name : List Char} {code : KeyCode}

theorem ofName?_eq_findSome? (name : List Char) :
    ofName? name = (lookups listed).findSome? (· name) := by
  rw [ofName?, lookups, List.findSome?_cons, List.findSome?_cons, List.findSome?_singleton]
  cases hsymbol : letterOrDigit? name with
  | some code => rfl
  | none =>
    cases hfunction : functionKey? name with
    | some code => rw [functionKey?] at hfunction; rw [hfunction]; rfl
    | none => rw [functionKey?] at hfunction; rw [hfunction]; rfl

theorem ofName?_of_covers {entry : KeyName} (hentry : entry ∈ listed) (h : entry.covers name = true) :
    ofName? name = some entry.code := by
  have hfound : lookUp listed name = some entry.code :=
    (lookUp_eq_some_iff (.refl _)).2 ⟨entry, hentry, h, rfl⟩
  rw [ofName?, letterOrDigit?_of_covers hentry h, functionNumber?_of_covers hentry h]
  exact hfound

theorem ofName?_of_standsFor (h : StandsFor name code) : ofName? name = some code := by
  cases h with
  | letter hletter => rw [ofName?, letterOrDigit?_of_letter hletter]; rfl
  | digit hdigit => rw [ofName?, letterOrDigit?_of_digit hdigit]; rfl
  | @functionKey f text n hf hbyte hone htwelve =>
    have hn : functionNumber? (f :: text) = some n :=
      functionNumber?_eq_some_iff.2 ⟨f, text, rfl, hf, hbyte, hone, htwelve⟩
    rw [ofName?_eq (two_le_length_of_functionNumber? hn), hn]
    rfl
  | @listedByte entry known hentry hknown hbyte =>
    exact ofName?_of_covers hentry (List.any_eq_true.2 ⟨known, hknown, same_self _⟩)
  | @listedName entry known name hentry hknown hknownLong hlong hnormal =>
    have hsame : same known.toList name = true := by
      simp [same, isSingle_of_one_lt hknownLong, isSingle_of_one_lt hlong, hnormal]
    exact ofName?_of_covers hentry (List.any_eq_true.2 ⟨known, hknown, hsame⟩)

theorem ofName?_eq_some_iff : ofName? name = some code ↔ StandsFor name code := by
  constructor
  · intro h
    rw [ofName?_eq_findSome?] at h
    obtain ⟨lookup, hlookup, hcode⟩ := List.exists_of_findSome?_eq_some h
    exact standsFor_of_lookup (.refl _) hlookup hcode
  · exact ofName?_of_standsFor

/-- Whatever the order of the lookups and of the table, the same code is found. -/
theorem findSome?_lookups {table : List KeyName} (htable : table.Perm listed)
    {tried : List (List Char → Option KeyCode)} (htried : tried.Perm (lookups table))
    (name : List Char) : tried.findSome? (· name) = ofName? name := by
  have hlisted : lookUp table name = lookUp listed name := by
    apply Option.ext
    intro code
    rw [lookUp_eq_some_iff htable, lookUp_eq_some_iff (.refl _)]
  have hsame : (lookups table).findSome? (· name) = ofName? name := by
    rw [ofName?_eq_findSome?]
    simp only [lookups, List.findSome?_cons, hlisted]
  rw [findSome?_eq_of_perm htried, hsame]
  intro lookup hlookup code hcode
  rw [hsame]
  exact ofName?_of_standsFor (standsFor_of_lookup htable (htried.mem_iff.1 hlookup) hcode)

/-- A name has a code exactly when a rule gives it one. No name is given two codes, and so neither the
order of the lookups nor that of the listed names matters. Every code that is given has a name, which
stands for it. -/
theorem code_unambiguous :
    (∀ name code, ofName? name = some code ↔ StandsFor name code) ∧
    (∀ name code other, StandsFor name code → StandsFor name other → code = other) ∧
    (∀ (table : List KeyName) (tried : List (List Char → Option KeyCode)), table.Perm listed →
      tried.Perm (lookups table) → ∀ name, tried.findSome? (· name) = ofName? name) ∧
    ∀ name code, StandsFor name code → ∃ first, code.name? = some first ∧ ofName? first = some code := by
  refine ⟨fun _ _ => ofName?_eq_some_iff, ?_, ?_, ?_⟩
  · intro name code other hcode hother
    have hsame := (ofName?_of_standsFor hcode).symm.trans (ofName?_of_standsFor hother)
    exact Option.some_inj.1 hsame
  · exact fun _ _ htable htried => findSome?_lookups htable htried
  · intro name code hcode
    obtain ⟨first, hfirst⟩ := exists_name?_of_ofName? (ofName?_of_standsFor hcode)
    exact ⟨first, hfirst, (name?_spec hfirst).1⟩

/-- A function key with a plus and zeros, and a listed name with marks that is looked up backwards in
the table that is turned round. -/
theorem code_unambiguous_reversed :
    IsByte "+012".toList 12 ∧ StandsFor "f+012".toList 0x45 ∧
      (∀ code, StandsFor "f+012".toList code → code = 0x45) ∧
      (lookups listed.reverse).reverse.findSome? (· "Page-Up".toList) = some 0x4b ∧
      ∃ first, name? 0x45 = some first ∧ ofName? first = some 0x45 := by
  obtain ⟨hiff, hunique, horder, hname⟩ := code_unambiguous
  have hbyte : IsByte "+012".toList 12 :=
    ⟨"012".toList, .inr (by decide), by decide, List.all_eq_true.1 rfl, by decide +kernel, by decide⟩
  have hcode : StandsFor "f+012".toList 0x45 := (hiff _ _).1 (by decide +kernel)
  have hlookup := horder _ _ (List.reverse_perm listed) (List.reverse_perm _) "Page-Up".toList
  refine ⟨hbyte, hcode, fun code h => hunique _ _ _ h hcode, ?_, hname _ _ hcode⟩
  rw [hlookup]
  decide +kernel

end KeyCode
end ChordPad
