import ChordPad.LayoutText

/-! The names of codes. A name that stands for a code is found again under the name that the code is
listed with first, and such a name is a word of a layout text that begins no comment. -/
namespace ChordPad

/-- A word of a layout text, and not the beginning of a comment. -/
structure LayoutText.IsNameWord (name : LayoutText.Word) : Prop where
  ne_nil : name ≠ []
  not_blank : ∀ c ∈ name, Text.isBlank c = false
  no_comment : name.head? ≠ some '#'

theorem LayoutText.isNameWord_iff {name : LayoutText.Word} : LayoutText.IsNameWord name ↔
    name ≠ [] ∧ (name.all fun c => !Text.isBlank c) = true ∧ name.head? ≠ some '#' := by
  simp only [List.all_eq_true, Bool.not_eq_true']
  exact ⟨fun h => ⟨h.ne_nil, h.not_blank, h.no_comment⟩, fun h => ⟨h.1, h.2.1, h.2.2⟩⟩

instance (name : LayoutText.Word) : Decidable (LayoutText.IsNameWord name) :=
  decidable_of_iff' _ LayoutText.isNameWord_iff

namespace KeyCode
open KeyName LayoutText

/-! The four kinds of names: each stands for its code, and that code is found to have a name. -/

theorem letter_spec : ∀ i (h : i < letters.length),
    ofName? [letters[i]] = some (letterA + .ofNat i) ∧ IsNameWord [letters[i]] ∧
      (name? (letterA + .ofNat i)).isSome := by
  decide +kernel

theorem digit_spec : ∀ i (h : i < digits.length),
    ofName? [digits[i]] = some (digit1 + .ofNat i) ∧ IsNameWord [digits[i]] ∧
      (name? (digit1 + .ofNat i)).isSome := by
  decide +kernel

theorem function_spec : ∀ n < 12, let name := 'F' :: (toString (n + 1)).toList
    ofName? name = some (function1 + .ofNat n) ∧ IsNameWord name ∧
      (name? (function1 + .ofNat n)).isSome := by
  decide +kernel

theorem listed_spec : ∀ entry ∈ listed,
    ofName? entry.first.toList = some entry.code ∧ IsNameWord entry.first.toList ∧
      (name? entry.code).isSome := by
  decide +kernel

variable {code : KeyCode} {name : List Char}

theorem name?_spec (h : code.name? = some name) :
    ofName? name = some code ∧ IsNameWord name := by
  have hoffset (first : KeyCode) : first + .ofNat (code - first).toNat = code := by
    rw [UInt8.ofNat_toNat, UInt8.add_comm, UInt8.sub_add_cancel]
  rw [name?, Option.or_eq_some_iff, Option.or_eq_some_iff, Option.or_eq_some_iff] at h
  rcases h with ((hletter | ⟨-, hdigit⟩) | ⟨-, hfunction⟩) | ⟨-, hlisted⟩
  · obtain ⟨c, hc, rfl⟩ := Option.map_eq_some_iff.1 hletter
    obtain ⟨hlt, rfl⟩ := List.getElem?_eq_some_iff.1 hc
    obtain ⟨hcode, hword, -⟩ := letter_spec _ hlt
    rw [hoffset] at hcode
    exact ⟨hcode, hword⟩
  · obtain ⟨c, hc, rfl⟩ := Option.map_eq_some_iff.1 hdigit
    obtain ⟨hlt, rfl⟩ := List.getElem?_eq_some_iff.1 hc
    obtain ⟨hcode, hword, -⟩ := digit_spec _ hlt
    rw [hoffset] at hcode
    exact ⟨hcode, hword⟩
  · obtain ⟨hlt, hname⟩ := Option.ite_none_right_eq_some.1 hfunction
    obtain ⟨hcode, hword, -⟩ := function_spec _ hlt
    rw [hoffset] at hcode
    cases hname
    exact ⟨hcode, hword⟩
  · obtain ⟨entry, hentry, rfl⟩ := Option.map_eq_some_iff.1 hlisted
    obtain ⟨hcode, hword, -⟩ := listed_spec entry (List.mem_of_find?_eq_some hentry)
    have hsame : entry.code = code := by simpa using List.find?_some hentry
    exact ⟨hsame ▸ hcode, hword⟩

theorem isSome_name?_of_letterOrDigit? (h : letterOrDigit? name = some code) : code.name?.isSome := by
  cases name with
  | nil => cases h
  | cons c rest =>
    cases rest with
    | cons d rest => cases h
    | nil =>
      rw [letterOrDigit?] at h
      split at h
      · rename_i i hi
        cases h
        exact (letter_spec i (List.idxOf?_eq_some_iff.1 hi).1).2.2
      · obtain ⟨i, hi, rfl⟩ := Option.map_eq_some_iff.1 h
        exact (digit_spec i (List.idxOf?_eq_some_iff.1 hi).1).2.2

theorem isSome_name?_of_functionNumber? {n : Nat} (h : functionNumber? name = some n) :
    (name? (function1 + .ofNat n - 1)).isSome := by
  have hrange : 1 ≤ n ∧ n ≤ 12 := by
    rw [functionNumber?.eq_def] at h
    split at h
    · simpa using (Option.filter_eq_some_iff.1 h).2
    · simpa using (Option.filter_eq_some_iff.1 h).2
    · cases h
  obtain ⟨k, rfl⟩ : ∃ k, n = k + 1 := ⟨n - 1, by omega⟩
  have hcode : function1 + .ofNat (k + 1) - 1 = function1 + .ofNat k := by
    rw [UInt8.ofNat_add, ← UInt8.add_assoc]
    exact UInt8.add_sub_cancel _ _
  rw [hcode]
  exact (function_spec k (by omega)).2.2

theorem exists_name?_of_ofName? (h : ofName? name = some code) : ∃ first, code.name? = some first := by
  rw [← Option.isSome_iff_exists]
  rw [ofName?, Option.or_eq_some_iff, Option.or_eq_some_iff] at h
  rcases h with (hsingle | ⟨-, hfunction⟩) | ⟨-, hlisted⟩
  · exact isSome_name?_of_letterOrDigit? hsingle
  · obtain ⟨n, hn, rfl⟩ := Option.map_eq_some_iff.1 hfunction
    exact isSome_name?_of_functionNumber? hn
  · obtain ⟨entry, hentry, rfl⟩ := Option.map_eq_some_iff.1 hlisted
    exact (listed_spec entry (List.mem_of_find?_eq_some hentry)).2.2

end KeyCode
end ChordPad
