import ChordPad.Proofs.Positions

/-! How a pass settles its switches, one by one. What happens to a switch depends on the switch, on
whether its position has a key, and on how many keys were reported before it. -/
namespace ChordPad.Scanner
variable (debounce : Debounce) (now : Nat)

/-- A switch after a pass that has room for `room` more keys. -/
def settled (debounce : Debounce) (now room : Nat) : KeyCode × Switch → Switch
  | (key, switch) =>
    if switch.isConfirmed debounce now ∧ (switch.raw = true → key ≠ .noKey → 0 < room) then
      switch.commit
    else switch

/-- The earlier switches settle without the later ones, and leave them the room that they did not
need. -/
theorem settle_append (room : Nat) (u v : List (KeyCode × Switch)) :
    settle debounce now room (u ++ v) =
      let left := room - (settle debounce now room u).2.length
      ((settle debounce now room u).1 ++ (settle debounce now left v).1,
        (settle debounce now room u).2 ++ (settle debounce now left v).2) := by
  fun_induction settle debounce now room u with
  | case1 => simp
  | case2 key switch rest hc hp switches keys hs ih =>
    have hkeys : keys = [] := by
      have := length_settle_keys_le debounce now 0 rest
      rw [hs] at this
      simpa using this
    subst hkeys
    simp_all [settle]
  | case3 key switch rest hc hp room switches keys hs ih => simp_all [settle]
  | case4 room key switch rest hc hp switches keys hs ih => simp_all [settle]
  | case5 room key switch rest hc switches keys hs ih => simp_all [settle]

theorem settle_switches_take (room i : Nat) (slots : List (KeyCode × Switch)) :
    (settle debounce now room slots).1.take i = (settle debounce now room (slots.take i)).1 := by
  have hsplit := settle_append debounce now room (slots.take i) (slots.drop i)
  rw [List.take_append_drop] at hsplit
  rcases Nat.le_total i slots.length with hi | hi
  · rw [hsplit]
    apply List.take_left'
    rw [length_settle, List.length_take, Nat.min_eq_left hi]
  · rw [List.take_of_length_le hi, List.take_of_length_le (by rw [length_settle]; exact hi)]

/-- The keys of the first switches come first. -/
theorem settle_keys_take_prefix (room i : Nat) (slots : List (KeyCode × Switch)) :
    (settle debounce now room (slots.take i)).2 <+: (settle debounce now room slots).2 := by
  have hsplit := settle_append debounce now room (slots.take i) (slots.drop i)
  rw [List.take_append_drop] at hsplit
  rw [hsplit]
  exact List.prefix_append _ _

theorem settle_switches_cons (room : Nat) (slot : KeyCode × Switch)
    (rest : List (KeyCode × Switch)) :
    (settle debounce now room (slot :: rest)).1[0]? = some (settled debounce now room slot) := by
  obtain ⟨key, switch⟩ := slot
  by_cases hc : switch.isConfirmed debounce now = true
  · by_cases hp : switch.raw = true ∧ key ≠ KeyCode.noKey
    · cases room with
      | zero => simp [settle, settled, hc, hp]
      | succ room => simp [settle, settled, hc, hp]
    · have hopen : switch.raw = true → key = KeyCode.noKey := by simpa using hp
      cases hr : switch.raw with
      | false => simp [settle, settled, hc, hr]
      | true => simp [settle, settled, hc, hr, hopen hr]
  · simp [settle, settled, hc]

theorem settle_switches_getElem? (room : Nat) {slots : List (KeyCode × Switch)} {i : Nat}
    {slot : KeyCode × Switch} (hi : slots[i]? = some slot) :
    (settle debounce now room slots).1[i]? =
      some (settled debounce now
        (room - (settle debounce now room (slots.take i)).2.length) slot) := by
  have hlt : i < slots.length := (List.getElem?_eq_some_iff.1 hi).1
  have hslots : slots = slots.take i ++ slot :: slots.drop (i + 1) := by
    have hget := (List.getElem?_eq_some_iff.1 hi).2
    rw [← hget, List.getElem_cons_drop, List.take_append_drop]
  have hlen : (settle debounce now room (slots.take i)).1.length = i := by
    rw [length_settle, List.length_take, Nat.min_eq_left (Nat.le_of_lt hlt)]
  have hsplit := settle_append debounce now room (slots.take i)
    (slot :: slots.drop (i + 1))
  rw [← hslots] at hsplit
  rw [hsplit]
  simp only
  rw [List.getElem?_append_right (by omega), hlen, Nat.sub_self, settle_switches_cons]

/-- The key that a switch has to report once it settles. -/
def dueKey? : KeyCode × Switch → Option KeyCode
  | (key, switch) =>
    if switch.isConfirmed debounce now && switch.raw then
      (some key).filter (· != KeyCode.noKey) else none

/-- The keys of a pass are the first ones that are due, as many as there is room for. -/
theorem settle_keys_eq_take (room : Nat) (slots : List (KeyCode × Switch)) :
    (settle debounce now room slots).2 = (slots.filterMap (dueKey? debounce now)).take room := by
  fun_induction settle debounce now room slots with
  | case1 => rw [List.filterMap_nil, List.take_nil]
  | case2 key switch rest hc hp switches keys hs ih =>
    rw [hs, List.take_zero] at ih
    rw [List.take_zero]
    exact ih
  | case3 key switch rest hc hp room switches keys hs ih =>
    have hsome : dueKey? debounce now (key, switch) = some key := by
      simp_all [dueKey?, Option.filter]
    rw [hs] at ih
    rw [List.filterMap_cons_some hsome, List.take_succ_cons, ← ih]
  | case4 room key switch rest hc hp switches keys hs ih =>
    have hnone : dueKey? debounce now (key, switch) = none := by
      simp_all [dueKey?, Option.filter]
    rw [hs] at ih
    rw [List.filterMap_cons_none hnone]
    exact ih
  | case5 room key switch rest hc switches keys hs ih =>
    have hnone : dueKey? debounce now (key, switch) = none := by
      simp [dueKey?, hc]
    rw [hs] at ih
    rw [List.filterMap_cons_none hnone]
    exact ih

theorem settle_keys_sublist (room : Nat) (slots : List (KeyCode × Switch)) :
    (settle debounce now room slots).2.Sublist
      ((slots.map (·.1)).filter (· != KeyCode.noKey)) := by
  fun_induction settle debounce now room slots with
  | case1 => simp
  | case2 key switch rest hc hp switches keys hs ih =>
    rw [hs] at ih
    exact ih.trans ((List.sublist_cons_self _ _).filter _)
  | case3 key switch rest hc hp room switches keys hs ih =>
    have hk : (key != KeyCode.noKey) = true := (Bool.and_eq_true _ _ ▸ hp).2
    rw [hs] at ih
    simpa [hk] using ih
  | case4 room key switch rest hc hp switches keys hs ih =>
    rw [hs] at ih
    exact ih.trans ((List.sublist_cons_self _ _).filter _)
  | case5 room key switch rest hc switches keys hs ih =>
    rw [hs] at ih
    exact ih.trans ((List.sublist_cons_self _ _).filter _)

/-- The key of a slot that became pressed, by the slot before a pass and its switch after it. -/
def pressedKey? : (KeyCode × Switch) × Switch → Option KeyCode
  | ((key, before), after) =>
    if !before.pressed && after.pressed then (some key).filter (· != KeyCode.noKey) else none

theorem pressedKey?_self (key : KeyCode) (switch : Switch) :
    pressedKey? ((key, switch), switch) = none := by
  simp [pressedKey?]

theorem pressedKey?_commit {key : KeyCode} {switch : Switch} (hne : switch.raw ≠ switch.pressed) :
    pressedKey? ((key, switch), switch.commit) =
      if switch.raw && key != KeyCode.noKey then some key else none := by
  cases hr : switch.raw with
  | false => simp [pressedKey?, Switch.commit, hr]
  | true =>
    have hopen : switch.pressed = false := by simpa [hr] using hne
    simp [pressedKey?, Switch.commit, hr, hopen, Option.filter]

/-- When only contacts that disagree are confirmed, the keys are those that became pressed. -/
theorem settle_keys_eq_filterMap (room : Nat) {slots : List (KeyCode × Switch)}
    (h : ∀ slot ∈ slots, slot.2.isConfirmed debounce now = true → slot.2.raw ≠ slot.2.pressed) :
    (settle debounce now room slots).2 =
      (slots.zip (settle debounce now room slots).1).filterMap pressedKey? := by
  fun_induction settle debounce now room slots with
  | case1 => rfl
  | case2 key switch rest hc hp switches keys hs ih =>
    have hrest := ih fun slot hslot => h slot (List.mem_cons_of_mem _ hslot)
    rw [hs] at hrest
    rw [List.zip_cons_cons, List.filterMap_cons_none (pressedKey?_self key switch)]
    exact hrest
  | case3 key switch rest hc hp room switches keys hs ih =>
    have hrest := ih fun slot hslot => h slot (List.mem_cons_of_mem _ hslot)
    rw [hs] at hrest
    have hhead := @pressedKey?_commit key switch (h (key, switch) (by simp) hc)
    rw [if_pos hp] at hhead
    rw [List.zip_cons_cons, List.filterMap_cons_some hhead]
    exact congrArg (key :: ·) hrest
  | case4 room key switch rest hc hp switches keys hs ih =>
    have hrest := ih fun slot hslot => h slot (List.mem_cons_of_mem _ hslot)
    rw [hs] at hrest
    have hhead := @pressedKey?_commit key switch (h (key, switch) (by simp) hc)
    rw [if_neg hp] at hhead
    rw [List.zip_cons_cons, List.filterMap_cons_none hhead]
    exact hrest
  | case5 room key switch rest hc switches keys hs ih =>
    have hrest := ih fun slot hslot => h slot (List.mem_cons_of_mem _ hslot)
    rw [hs] at hrest
    rw [List.zip_cons_cons, List.filterMap_cons_none (pressedKey?_self key switch)]
    exact hrest

end ChordPad.Scanner
