import ChordPad.Proofs.Scanner.Edges
import ChordPad.Proofs.Scanner.Room

/-! What the positions of a matrix do to one another. All share the list of keys that a pass can
report, and earlier positions take from it first. So a contact may put off a press at a later
position, but nothing at an earlier one depends on it; with room for all keys, nothing at all does. -/
namespace ChordPad

/-- Those of the keys that sit at the positions up to number `k`. -/
def KeyLayout.keysUpTo (layout : KeyLayout) (k : Nat) (keys : List KeyCode) : List KeyCode :=
  keys.filter fun key => layout.codes.idxOf key ≤ k

namespace Scanner

/-- Scanners that can differ only behind position number `k`. -/
structure AgreeUpTo (k : Nat) (s o : Scanner) : Prop where
  layout_eq : s.layout = o.layout
  config_eq : s.config = o.config
  capacity_eq : s.capacity = o.capacity
  switches_eq : s.switches.take (k + 1) = o.switches.take (k + 1)

namespace AgreeUpTo
variable {k : Nat} {s o : Scanner} {p q : Pass}

theorem switchAt_eq (h : AgreeUpTo k s o) {row col : Nat} (hk : row * s.layout.cols + col ≤ k) :
    s.switchAt row col = o.switchAt row col := by
  have hlt : row * s.layout.cols + col < k + 1 := Nat.lt_succ_of_le hk
  rw [switchAt, switchAt, ← h.layout_eq, ← List.getElem?_take_of_lt hlt, h.switches_eq,
    List.getElem?_take_of_lt hlt]

theorem readings_take (h : AgreeUpTo k s o) (hs : s.Sound)
    (hcontact : ∀ row < s.layout.rows, ∀ col < s.layout.cols, row * s.layout.cols + col ≤ k →
      contactAt s.config.rowsDriven p.2 (row, col) = contactAt o.config.rowsDriven q.2 (row, col)) :
    (s.readings p.2).take (k + 1) = (o.readings q.2).take (k + 1) := by
  rw [readings, readings, ← h.layout_eq, ← List.map_take, ← List.map_take]
  apply List.map_congr_left
  intro position hposition
  obtain ⟨i, hi, rfl⟩ := List.mem_iff_getElem.1 hposition
  rw [List.length_take, KeyLayout.length_positions hs.proper] at hi
  rw [List.getElem_take, KeyLayout.positions_getElem hs.proper]
  apply hcontact
  · exact KeyLayout.div_lt_rows hs.proper (by omega)
  · exact Nat.mod_lt i hs.proper.cols_pos
  · rw [Nat.mul_comm, Nat.div_add_mod]
    omega

theorem slots_take (h : AgreeUpTo k s o) (htime : p.1 = q.1)
    (hreadings : (s.readings p.2).take (k + 1) = (o.readings q.2).take (k + 1)) :
    (s.slots p.1 p.2).take (k + 1) = (o.slots q.1 q.2).take (k + 1) := by
  simp only [slots, observe, List.zip_eq_zipWith, List.take_zipWith, hreadings, h.switches_eq,
    h.layout_eq, htime]

theorem pass (h : AgreeUpTo k s o) (htime : p.1 = q.1)
    (hreadings : (s.readings p.2).take (k + 1) = (o.readings q.2).take (k + 1)) :
    AgreeUpTo k (s.pass p.1 p.2).1 (o.pass q.1 q.2).1 := by
  refine ⟨h.layout_eq, h.config_eq, h.capacity_eq, ?_⟩
  rw [pass_eq_settle, pass_eq_settle, settle_switches_take, settle_switches_take,
    h.slots_take htime hreadings, h.config_eq, h.capacity_eq, htime]

/-- The keys up to position `k` are the same ones, and each list of keys begins with them. -/
theorem pass_keys (h : AgreeUpTo k s o) (hs : s.Sound) (ho : o.Sound) (htime : p.1 = q.1)
    (hreadings : (s.readings p.2).take (k + 1) = (o.readings q.2).take (k + 1)) :
    s.layout.keysUpTo k (s.pass p.1 p.2).2 = s.layout.keysUpTo k (o.pass q.1 q.2).2 ∧
      s.layout.keysUpTo k (s.pass p.1 p.2).2 <+: (s.pass p.1 p.2).2 ∧
      s.layout.keysUpTo k (o.pass q.1 q.2).2 <+: (o.pass q.1 q.2).2 := by
  have hfirst : s.layout.keysUpTo k (s.pass p.1 p.2).2 =
      (settle s.config.debounce p.1 s.capacity ((s.slots p.1 p.2).take (k + 1))).2 := by
    simp only [← filter_pass_keys hs, KeyLayout.keysUpTo, Nat.lt_succ_iff]
  have hsecond : s.layout.keysUpTo k (o.pass q.1 q.2).2 =
      (settle o.config.debounce q.1 o.capacity ((o.slots q.1 q.2).take (k + 1))).2 := by
    simp only [← filter_pass_keys ho, KeyLayout.keysUpTo, Nat.lt_succ_iff, h.layout_eq]
  refine ⟨?_, ?_, ?_⟩
  · rw [hfirst, hsecond, h.slots_take htime hreadings, h.config_eq, h.capacity_eq, htime]
  · rw [hfirst, pass_eq_settle]
    exact settle_keys_take_prefix _ _ _ _ _
  · rw [hsecond, pass_eq_settle]
    exact settle_keys_take_prefix _ _ _ _ _

end AgreeUpTo

section Runs
variable {s o : Scanner} {passes others : List Pass} {k t row col : Nat}

/-- Two runs find the same contact at a position, pass by pass. -/
def SameContact (s o : Scanner) (passes others : List Pass) (row col : Nat) : Prop :=
  ∀ t < passes.length, s.reading passes t row col = o.reading others t row col

theorem Fresh.eq_of_alike (hs : s.Fresh) (ho : o.Fresh) (hlayout : s.layout = o.layout)
    (hconfig : s.config = o.config) (hcapacity : s.capacity = o.capacity) : s = o := by
  have hswitches : s.switches = o.switches := by rw [hs.eq, ho.eq, hlayout]
  cases s
  cases o
  simp_all

theorem length_eq_of_clock (hclock : passes.map (·.1) = others.map (·.1)) :
    passes.length = others.length := by
  simpa using congrArg List.length hclock

theorem timeOf_eq_of_clock (hclock : passes.map (·.1) = others.map (·.1)) (t : Nat) :
    timeOf passes t = timeOf others t := by
  have htimes (run : List Pass) : timeOf run t = ((run.map (·.1))[t]?).getD 0 := by
    rw [timeOf, List.getElem?_map]
    cases run[t]? <;> rfl
  rw [htimes, htimes, hclock]

theorem readings_take_after (h : AgreeUpTo k (s.after passes t) (s.after others t)) (hs : s.Sound)
    (ht : t < passes.length) (ht' : t < others.length)
    (hcontact : ∀ row < s.layout.rows, ∀ col < s.layout.cols, row * s.layout.cols + col ≤ k →
      SameContact s s passes others row col) :
    ((s.after passes t).readings passes[t].2).take (k + 1) =
      ((s.after others t).readings others[t].2).take (k + 1) := by
  apply h.readings_take (after_sound hs passes t)
  rw [after_layout, after_config, after_config]
  intro row hrow col hcol hk
  rw [← reading_eq ht, ← reading_eq ht']
  exact hcontact row hrow col hcol hk t ht

theorem agreeUpTo_after (hs : s.Sound) (hclock : passes.map (·.1) = others.map (·.1))
    (ht : t ≤ passes.length)
    (hcontact : ∀ row < s.layout.rows, ∀ col < s.layout.cols, row * s.layout.cols + col ≤ k →
      SameContact s s passes others row col) :
    AgreeUpTo k (s.after passes t) (s.after others t) := by
  induction t with
  | zero => exact ⟨rfl, rfl, rfl, rfl⟩
  | succ t ih =>
    have hagree := ih (Nat.le_of_lt ht)
    have ht' : t < others.length := length_eq_of_clock hclock ▸ ht
    rw [after_succ ht, after_succ ht']
    refine hagree.pass ?_ (readings_take_after hagree hs ht ht' hcontact)
    rw [← timeOf_eq ht, ← timeOf_eq ht', timeOf_eq_of_clock hclock]

theorem reported_upTo (hs : s.Sound) (hclock : passes.map (·.1) = others.map (·.1))
    (ht : t < passes.length)
    (hcontact : ∀ row < s.layout.rows, ∀ col < s.layout.cols, row * s.layout.cols + col ≤ k →
      SameContact s s passes others row col) :
    s.layout.keysUpTo k (s.reported passes t) = s.layout.keysUpTo k (s.reported others t) ∧
      s.layout.keysUpTo k (s.reported passes t) <+: s.reported passes t ∧
      s.layout.keysUpTo k (s.reported others t) <+: s.reported others t := by
  have hagree := agreeUpTo_after hs hclock (Nat.le_of_lt ht) hcontact
  have ht' : t < others.length := length_eq_of_clock hclock ▸ ht
  have htime : passes[t].1 = others[t].1 := by
    rw [← timeOf_eq ht, ← timeOf_eq ht', timeOf_eq_of_clock hclock]
  have hkeys := hagree.pass_keys (after_sound hs passes t) (after_sound hs others t) htime
    (readings_take_after hagree hs ht ht' hcontact)
  rwa [after_layout, ← reported_eq_pass ht, ← reported_eq_pass ht'] at hkeys

theorem switchAt_after_eq_of_room (hs : s.Sound) (hroom : s.layout.keyCount ≤ s.capacity)
    (hclock : passes.map (·.1) = others.map (·.1)) (hrow : row < s.layout.rows)
    (hcol : col < s.layout.cols) (hcontact : SameContact s s passes others row col)
    (ht : t ≤ passes.length) :
    (s.after passes t).switchAt row col = (s.after others t).switchAt row col := by
  induction t with
  | zero => rfl
  | succ t ih =>
    have ht' : t < others.length := length_eq_of_clock hclock ▸ ht
    rw [switchAt_after_succ hs hroom ht hrow hcol, switchAt_after_succ hs hroom ht' hrow hcol,
      ih (Nat.le_of_lt ht), timeOf_eq_of_clock hclock, hcontact t ht]

/-- A key is reported where its switch becomes pressed, so the switches around a pass tell how often. -/
theorem count_reported_eq (hs : s.Sound) (ht : t < passes.length) (ht' : t < others.length)
    {key : KeyCode} (hkey : s.layout.key? row col = some key)
    (hswitch : ∀ u ≤ t + 1, (s.after passes u).switchAt row col = (s.after others u).switchAt row col) :
    (s.reported passes t).count key = (s.reported others t).count key := by
  have hrow := KeyLayout.row_lt_of_key? hs.proper hkey
  have hcol := (KeyLayout.key?_eq_some hkey).1
  have hpressed (u : Nat) (hu : u ≤ t + 1) :
      (s.after passes u).isPressed row col = (s.after others u).isPressed row col := by
    rw [isPressed_eq (by rw [after_layout]; exact hrow) (by rw [after_layout]; exact hcol),
      isPressed_eq (by rw [after_layout]; exact hrow) (by rw [after_layout]; exact hcol),
      hswitch u hu]
  rw [count_reported hs ht hkey, count_reported hs ht' hkey, hpressed t (by omega),
    hpressed (t + 1) (by omega)]

/-- Two runs with the same clock whose contacts agree up to position `k` cannot be told apart there:
the switches stay the same, and both lists of keys begin with the same keys, which are all those up to
that position. With room for all keys this holds of each position alone. -/
theorem earlier_unaffected_by_later (hs : s.Fresh) (ho : o.Fresh) (hlayout : s.layout = o.layout)
    (hconfig : s.config = o.config) (hcapacity : s.capacity = o.capacity)
    (hclock : passes.map (·.1) = others.map (·.1)) :
    (∀ k, (∀ row < s.layout.rows, ∀ col < s.layout.cols, row * s.layout.cols + col ≤ k →
        SameContact s o passes others row col) →
      (∀ t ≤ passes.length, ∀ row < s.layout.rows, ∀ col < s.layout.cols,
        row * s.layout.cols + col ≤ k →
          (s.after passes t).switchAt row col = (o.after others t).switchAt row col) ∧
      ∀ t < passes.length,
        s.layout.keysUpTo k (s.reported passes t) = s.layout.keysUpTo k (o.reported others t) ∧
        s.layout.keysUpTo k (s.reported passes t) <+: s.reported passes t ∧
        s.layout.keysUpTo k (o.reported others t) <+: o.reported others t) ∧
    (s.layout.keyCount ≤ s.capacity → ∀ row < s.layout.rows, ∀ col < s.layout.cols,
      SameContact s o passes others row col →
      (∀ t ≤ passes.length,
        (s.after passes t).switchAt row col = (o.after others t).switchAt row col) ∧
      ∀ t < passes.length, ∀ key, s.layout.key? row col = some key →
        (s.reported passes t).count key = (o.reported others t).count key) := by
  obtain rfl := hs.eq_of_alike ho hlayout hconfig hcapacity
  constructor
  · intro k hcontact
    refine ⟨?_, fun t ht => reported_upTo hs.sound hclock ht hcontact⟩
    intro t ht row hrow col hcol hk
    exact (agreeUpTo_after hs.sound hclock ht hcontact).switchAt_eq (by rwa [after_layout])
  · intro hroom row hrow col hcol hcontact
    have hswitch (t : Nat) (ht : t ≤ passes.length) :=
      switchAt_after_eq_of_room hs.sound hroom hclock hrow hcol hcontact ht
    refine ⟨hswitch, ?_⟩
    intro t ht key hkey
    exact count_reported_eq hs.sound ht (length_eq_of_clock hclock ▸ ht) hkey
      fun u hu => hswitch u (by omega)

/-- In one run a later key is pressed too. With room for one key it waits for the next pass and the
earlier ones do not notice; with room for all keys the third one does not notice the first. -/
theorem earlier_unaffected_by_later_twoByTwo :
    let s := twoByTwo (.passes 1) 1
    let r := twoByTwo (.passes 1) 3
    let passes := [Pass.touching 0 [(0, 1)], Pass.touching 1 [(0, 1)]]
    let others := [Pass.touching 0 [(0, 1), (1, 0)], Pass.touching 1 [(0, 1), (1, 0)]]
    let more := [Pass.touching 0 [(0, 0), (1, 0)], Pass.touching 1 [(1, 0)]]
    s.Fresh ∧ r.Fresh ∧ passes.map (·.1) = others.map (·.1) ∧ others.map (·.1) = more.map (·.1) ∧
      (∀ row < s.layout.rows, ∀ col < s.layout.cols, row * s.layout.cols + col ≤ 1 →
        SameContact s s passes others row col) ∧
      s.reported others 0 = [0x05] ∧ s.reported others 1 = [0x06] ∧
      (s.after passes 2).switchAt 0 1 = (s.after others 2).switchAt 0 1 ∧
      s.layout.keysUpTo 1 (s.reported passes 0) = s.layout.keysUpTo 1 (s.reported others 0) ∧
      r.layout.keyCount ≤ r.capacity ∧ SameContact r r others more 1 0 ∧
      r.reported others 0 = [0x05, 0x06] ∧
      (r.reported others 0).count 0x06 = (r.reported more 0).count 0x06 := by
  intro s r passes others more
  have hs : s.Fresh := fresh_twoByTwo _ _
  have hr : r.Fresh := fresh_twoByTwo _ _
  have hclock : passes.map (·.1) = others.map (·.1) := rfl
  have hclock' : others.map (·.1) = more.map (·.1) := rfl
  have hcontact : ∀ row < s.layout.rows, ∀ col < s.layout.cols, row * s.layout.cols + col ≤ 1 →
      SameContact s s passes others row col := by
    unfold SameContact
    decide
  have hcontact' : SameContact r r others more 1 0 := by
    unfold SameContact
    decide
  obtain ⟨hswitch, hkeys⟩ :=
    (earlier_unaffected_by_later hs hs rfl rfl rfl hclock).1 1 hcontact
  obtain ⟨-, hcount⟩ := (earlier_unaffected_by_later hr hr rfl rfl rfl hclock').2 (by decide) 1
    (by decide) 0 (by decide) hcontact'
  exact ⟨hs, hr, hclock, hclock', hcontact, by decide, by decide,
    hswitch 2 (by decide) 0 (by decide) 1 (by decide) (by decide), (hkeys 0 (by decide)).1,
    by decide, hcontact', by decide, hcount 0 (by decide) 0x06 (by decide)⟩

end Runs
end Scanner
end ChordPad
