/-! The first member of a list that has stood in it before. -/
namespace ChordPad
variable {α : Type}

/-- Index and value of the first member that is already among `seen` or stands earlier in the list.
Members that do not `count` are passed over. -/
def firstRepeat? [BEq α] (count : α → Bool) (seen : List α) : List α → Option (Nat × α)
  | [] => none
  | x :: xs =>
    if count x && seen.contains x then some (0, x)
    else (firstRepeat? count (x :: seen) xs).map fun (i, y) => (i + 1, y)

/-- There is none exactly when the members that count are new and differ from each other. -/
theorem firstRepeat?_eq_none_iff [BEq α] [LawfulBEq α] {count : α → Bool} {seen xs : List α} :
    firstRepeat? count seen xs = none ↔
      (∀ x ∈ xs, count x = true → x ∉ seen) ∧ (xs.filter count).Nodup := by
  induction xs generalizing seen with
  | nil => simp [firstRepeat?]
  | cons x xs ih =>
    have step : (∀ y ∈ xs, count y = true → y ∉ x :: seen) ↔
        (∀ y ∈ xs, count y = true → y ∉ seen) ∧ (count x = true → x ∉ xs) := by
      constructor
      · intro h
        exact ⟨fun y hy hc hs => h y hy hc (List.mem_cons_of_mem x hs),
          fun hc hx => h x hx hc List.mem_cons_self⟩
      · intro ⟨h, hx⟩ y hy hc hs
        rcases List.mem_cons.1 hs with rfl | hs
        · exact hx hc hy
        · exact h y hy hc hs
    rw [firstRepeat?]
    by_cases hc : count x = true
    · by_cases hs : x ∈ seen
      · simp [hc, hs]
      · rw [if_neg (by simp [hs]), Option.map_eq_none_iff, ih, step]
        simp [hc, hs, and_assoc]
    · rw [if_neg (by simp [hc]), Option.map_eq_none_iff, ih, step]
      simp [hc]

/-- It is the first member that counts and is not new, where no earlier one is such a member. -/
theorem firstRepeat?_eq_some_iff [BEq α] [LawfulBEq α] {count : α → Bool} {seen xs : List α}
    {i : Nat} {x : α} :
    firstRepeat? count seen xs = some (i, x) ↔ xs[i]? = some x ∧ count x = true ∧
      (x ∈ seen ∨ x ∈ xs.take i) ∧ firstRepeat? count seen (xs.take i) = none := by
  induction xs generalizing seen i with
  | nil => simp [firstRepeat?]
  | cons y xs ih =>
    rw [firstRepeat?]
    by_cases hrepeat : (count y && seen.contains y) = true
    · rw [if_pos hrepeat]
      cases i with
      | zero =>
        simp only [Option.some.injEq, Prod.mk.injEq, true_and, List.getElem?_cons_zero,
          List.take_zero, List.not_mem_nil, or_false, firstRepeat?, and_true]
        constructor
        · rintro rfl
          simpa using hrepeat
        · exact fun h => h.1
      | succ i =>
        rw [List.take_succ_cons, firstRepeat?, if_pos hrepeat]
        simp
    · rw [if_neg hrepeat]
      cases i with
      | zero =>
        simp only [Option.map_eq_some_iff, Prod.mk.injEq, Nat.add_one_ne_zero, false_and, and_false,
          exists_false, List.getElem?_cons_zero, List.take_zero, List.not_mem_nil, or_false,
          false_iff, Option.some.injEq]
        rintro ⟨rfl, hcount, hseen, -⟩
        exact hrepeat (by simpa using ⟨hcount, hseen⟩)
      | succ i =>
        have hstep : (firstRepeat? count (y :: seen) xs).map (fun (j, z) => (j + 1, z)) =
            some (i + 1, x) ↔ firstRepeat? count (y :: seen) xs = some (i, x) := by
          rw [Option.map_eq_some_iff]
          constructor
          · rintro ⟨⟨j, z⟩, hfound, hsame⟩
            cases hsame
            exact hfound
          · exact fun hfound => ⟨(i, x), hfound, rfl⟩
        rw [hstep, ih, List.take_succ_cons, firstRepeat?, if_neg hrepeat, Option.map_eq_none_iff,
          List.getElem?_cons_succ, List.mem_cons, List.mem_cons, or_assoc]
        exact and_congr_right fun _ => and_congr_right fun _ => and_congr_left fun _ => or_left_comm

section Unseen
variable [BEq α] [LawfulBEq α] {count : α → Bool} {xs : List α} {i : Nat} {x : α}

/-- With nothing seen before, a member repeats if it stands among those in front of it. -/
theorem firstRepeat?_nil_eq_none_iff : firstRepeat? count [] xs = none ↔
    ∀ i x, xs[i]? = some x → count x = true → x ∉ xs.take i := by
  constructor
  · intro h i x hx hcount hbefore
    have hnodup := (firstRepeat?_eq_none_iff.1 h).2
    rw [← List.take_append_drop i xs, List.filter_append, List.nodup_append] at hnodup
    have hbehind : x ∈ xs.drop i :=
      List.mem_of_getElem? (i := 0) (by rw [List.getElem?_drop, Nat.add_zero, hx])
    exact hnodup.2.2 x (List.mem_filter.2 ⟨hbefore, hcount⟩) x
      (List.mem_filter.2 ⟨hbehind, hcount⟩) rfl
  · intro h
    cases hfound : firstRepeat? count [] xs with
    | none => rfl
    | some found =>
      obtain ⟨hx, hcount, hbefore, -⟩ := firstRepeat?_eq_some_iff.1 hfound
      exact absurd (hbefore.resolve_left List.not_mem_nil) (h _ _ hx hcount)

theorem firstRepeat?_nil_eq_some_iff : firstRepeat? count [] xs = some (i, x) ↔
    xs[i]? = some x ∧ count x = true ∧ x ∈ xs.take i ∧
      ∀ j, j < i → ∀ y, xs[j]? = some y → count y = true → y ∉ xs.take j := by
  have htake (j : Nat) (hj : j < i) : (xs.take i).take j = xs.take j := by
    rw [List.take_take, Nat.min_eq_left (Nat.le_of_lt hj)]
  have hfirst : firstRepeat? count [] (xs.take i) = none ↔
      ∀ j, j < i → ∀ y, xs[j]? = some y → count y = true → y ∉ xs.take j := by
    rw [firstRepeat?_nil_eq_none_iff]
    simp only [List.getElem?_take, Option.ite_none_right_eq_some, and_imp]
    constructor
    · intro h j hj y hy hcount
      rw [← htake j hj]
      exact h j y hj hy hcount
    · intro h j y hj hy hcount
      rw [htake j hj]
      exact h j hj y hy hcount
  rw [firstRepeat?_eq_some_iff, hfirst]
  simp only [List.not_mem_nil, false_or]

end Unseen

end ChordPad
