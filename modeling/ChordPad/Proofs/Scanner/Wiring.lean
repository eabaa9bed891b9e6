import Mathlib.Data.List.Forall2
import ChordPad.Board.Rig
import ChordPad.Proofs.Rounds

/-! Both ways to wire a matrix: its rows on the driven lines and its columns on the read ones, or the
other way round. Scanners that are wired differently sample their contacts in another order, but
find the same keys as long as they find the same contacts at the same times. -/
namespace ChordPad.Scanner

/-- Both passes begin at the same time and find the same contact at every position, the first with the
rows driven and the second with the columns driven. -/
structure Mirrors (layout : KeyLayout) (p q : Pass) : Prop where
  time_eq : p.1 = q.1
  contact_eq : ∀ row < layout.rows, ∀ col < layout.cols, p.2 row col = q.2 col row

/-- Scanners that differ in their wiring only, and in the pauses that it needs. -/
structure Twins (s t : Scanner) : Prop where
  rowsDriven : s.config.rowsDriven = true
  colsDriven : t.config.rowsDriven = false
  layout_eq : s.layout = t.layout
  debounce_eq : s.config.debounce = t.config.debounce
  capacity_eq : s.capacity = t.capacity
  switches_eq : s.switches = t.switches

namespace Twins
variable {s t : Scanner} {p q : Pass}

theorem readings_eq (h : Twins s t) (hmirrors : Mirrors s.layout p q) :
    s.readings p.2 = t.readings q.2 := by
  rw [readings, readings, ← h.layout_eq]
  apply List.map_congr_left
  intro position hposition
  obtain ⟨row, col⟩ := position
  obtain ⟨hrow, hcol⟩ := KeyLayout.mem_positions.1 hposition
  rw [h.rowsDriven, h.colsDriven]
  exact hmirrors.contact_eq row hrow col hcol

theorem slots_eq (h : Twins s t) (hmirrors : Mirrors s.layout p q) :
    s.slots p.1 p.2 = t.slots q.1 q.2 := by
  rw [slots, slots, h.readings_eq hmirrors, hmirrors.time_eq, h.layout_eq, h.switches_eq]

theorem pass (h : Twins s t) (hmirrors : Mirrors s.layout p q) :
    Twins (s.pass p.1 p.2).1 (t.pass q.1 q.2).1 ∧ (s.pass p.1 p.2).2 = (t.pass q.1 q.2).2 := by
  have hsettle : settle s.config.debounce p.1 s.capacity (s.slots p.1 p.2) =
      settle t.config.debounce q.1 t.capacity (t.slots q.1 q.2) := by
    rw [h.slots_eq hmirrors, h.debounce_eq, h.capacity_eq, hmirrors.time_eq]
  rw [pass_eq_settle, pass_eq_settle, hsettle]
  exact ⟨⟨h.rowsDriven, h.colsDriven, h.layout_eq, h.debounce_eq, h.capacity_eq, rfl⟩, rfl⟩

theorem isPressed_eq (h : Twins s t) (row col : Nat) : s.isPressed row col = t.isPressed row col := by
  rw [isPressed, isPressed, h.layout_eq, h.switches_eq]

end Twins

section Boards
variable {β γ : Type} [Board β] [Board γ]

/-- Both scans report the same keys and leave the same switches pressed. -/
structure SameResult (layout : KeyLayout) (x y : Scanner × List KeyCode) : Prop where
  keys_eq : x.2 = y.2
  isPressed_eq : ∀ row col, x.1.isPressed row col = y.1.isPressed row col
  outside : ∀ row col, ¬ (row < layout.rows ∧ col < layout.cols) → x.1.isPressed row col = false

theorem Twins.scans {s t : Scanner} (h : Twins s t) {b : β} {c : γ} {changes : List (β → β)}
    {others : List (γ → γ)}
    (hsights : List.Forall₂ (Mirrors s.layout) (s.sights b changes) (t.sights c others)) :
    List.Forall₂ (SameResult s.layout) (s.scans b changes) (t.scans c others) := by
  induction changes generalizing s t b c others with
  | nil =>
    cases others with
    | nil => exact .nil
    | cons other others => cases hsights
  | cons change changes ih =>
    cases others with
    | nil => cases hsights
    | cons other others =>
      obtain ⟨hsight, hrest⟩ := List.forall₂_cons.1 hsights
      obtain ⟨hnext, hkeys⟩ := h.pass hsight
      have houtside (row col : Nat) (hout : ¬ (row < s.layout.rows ∧ col < s.layout.cols)) :
          (s.scan (change b)).1.isPressed row col = false := by
        rw [isPressed]
        exact if_neg hout
      exact .cons ⟨hkeys, hnext.isPressed_eq, houtside⟩ (ih hnext hrest)

/-- Over any two boards, scanners of both wirings report the same keys in every scan and leave the same
switches pressed, as long as their scans begin at the same times and find the same contacts. -/
theorem wiring_invisible {rows : List (List KeyCode)} {width : Nat} {layout : KeyLayout}
    (hrows : ∀ row ∈ rows, row.length = width) (hlayout : KeyLayout.ofRows rows = .ok layout)
    (debounce : Debounce) (capacity pause otherPause : Nat) (b : β) (c : γ) :
    layout.rows = rows.length ∧ layout.cols = width ∧
    ∃ s b' t c', start layout ⟨debounce, true, pause⟩ capacity rows.length width b = .ok (s, b') ∧
      start layout ⟨debounce, false, otherPause⟩ capacity width rows.length c = .ok (t, c') ∧
      ∀ (changes : List (β → β)) (others : List (γ → γ)),
        List.Forall₂ (Mirrors layout) (s.sights b' changes) (t.sights c' others) →
        List.Forall₂ (SameResult layout) (s.scans b' changes) (t.scans c' others) := by
  obtain ⟨hheight, hwidth⟩ := KeyLayout.dimensions_of_ofRows hrows hlayout
  let s : Scanner := ⟨layout, ⟨debounce, true, pause⟩, capacity, List.replicate layout.codes.length {}⟩
  let t : Scanner :=
    ⟨layout, ⟨debounce, false, otherPause⟩, capacity, List.replicate layout.codes.length {}⟩
  have hmake : make layout s.config capacity rows.length width = .ok s :=
    make_eq_ok (by simp [s, hheight, hwidth])
  have hother : make layout t.config capacity width rows.length = .ok t :=
    make_eq_ok (by simp [t, hheight, hwidth])
  have htwins : Twins s t := ⟨rfl, rfl, rfl, rfl, rfl, rfl⟩
  refine ⟨hheight, hwidth, s, Board.release b (List.range rows.length), t,
    Board.release c (List.range width), ?_, ?_, fun changes others => htwins.scans⟩
  · rw [start, hmake]
    rfl
  · rw [start, hother]
    rfl

/-- Two rows of three positions, where two keys go down at once and one can be reported at a time. The
contacts of a rig are known by input and output line. -/
theorem wiring_invisible_twoByThree :
    let rows : List (List KeyCode) := [[0x04, 0x05, 0x06], [0x07, 0x08, 0x00]]
    let layout : KeyLayout := ⟨rows.flatten, 3⟩
    let b : Rig := { time := 0, outputs := List.replicate 2 {} }
    let c : Rig := { time := 0, outputs := List.replicate 3 {} }
    let touch (closed : Contacts) (rig : Rig) : Rig :=
      { rig with contacts := closed, time := rig.time + 1000 }
    let changes := [touch [], touch [(2, 0), (0, 1)], touch [(2, 0), (0, 1)]]
    let others := [touch [], touch [(0, 2), (1, 0)], touch [(0, 2), (1, 0)]]
    (∀ row ∈ rows, row.length = 3) ∧ KeyLayout.ofRows rows = .ok layout ∧
    ∃ s b' t c', start layout ⟨.passes 1, true, 0⟩ 1 2 3 b = .ok (s, b') ∧
      start layout ⟨.passes 1, false, 0⟩ 1 3 2 c = .ok (t, c') ∧
      List.Forall₂ (Mirrors layout) (s.sights b' changes) (t.sights c' others) ∧
      List.Forall₂ (SameResult layout) (s.scans b' changes) (t.scans c' others) ∧
      (s.scans b' changes).map (·.2) = [[], [0x06], [0x07]] := by
  intro rows layout b c touch changes others
  have hrows : ∀ row ∈ rows, row.length = 3 := by decide
  have hlayout : KeyLayout.ofRows rows = .ok layout := rfl
  obtain ⟨-, -, s, b', t, c', hs, ht, hrun⟩ := wiring_invisible hrows hlayout (.passes 1) 1 0 0 b c
  refine ⟨hrows, hlayout, s, b', t, c', hs, ht, ?_⟩
  rw [start, make_eq_ok (by decide)] at hs ht
  cases hs
  cases ht
  refine ⟨?sights, hrun changes others ?sights, by decide +kernel⟩
  refine .cons ⟨?_, ?_⟩ (.cons ⟨?_, ?_⟩ (.cons ⟨?_, ?_⟩ .nil)) <;> decide +kernel

end Boards
end ChordPad.Scanner
