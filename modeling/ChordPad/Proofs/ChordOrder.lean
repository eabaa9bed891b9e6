import Mathlib.Data.List.Nodup
import Mathlib.Data.List.Induction
import ChordPad.Station

/-! Whether the order of a chord map matters. A key is looked up in its first entry, so an entry whose
key an earlier one has is never used. Where there is no such entry, any order will do. -/
namespace ChordPad
namespace ChordMap
variable {map other : ChordMap} {entry : KeyCode × List KeyCode} {key : KeyCode}
  {chord : List KeyCode} {i : Nat}

def keys (map : ChordMap) : List KeyCode := map.map (·.1)

/-- This is the first entry whose key an earlier entry has. -/
structure RepeatsFirst (map : ChordMap) (key : KeyCode) (i : Nat) : Prop where
  key_eq : map.keys[i]? = some key
  stood_before : key ∈ map.keys.take i
  first : ∀ j < i, ∀ k, map.keys[j]? = some k → k ∉ map.keys.take j

/-- The entries without those whose key an earlier entry has. -/
def firsts (map : ChordMap) : ChordMap :=
  (map.zipIdx.filter fun (entry, i) => !(map.keys.take i).contains entry.1).map (·.1)

/-! The key that is reported to repeat. -/

theorem duplicate?_eq_none_iff : map.duplicate? = none ↔ map.keys.Nodup := by
  rw [duplicate?, Option.map_eq_none_iff, firstRepeat?_eq_none_iff]
  simp [keys]

theorem duplicate?_eq_some_iff : map.duplicate? = some key ↔ ∃ i, map.RepeatsFirst key i := by
  rw [duplicate?, Option.map_eq_some_iff]
  constructor
  · intro h
    obtain ⟨⟨i, k⟩, hfound, rfl⟩ := h
    obtain ⟨hkey, -, hbefore, hfirst⟩ := firstRepeat?_nil_eq_some_iff.1 hfound
    exact ⟨i, hkey, hbefore, fun j hj k hk => hfirst j hj k hk rfl⟩
  · intro h
    obtain ⟨i, hkey, hbefore, hfirst⟩ := h
    refine ⟨(i, key), firstRepeat?_nil_eq_some_iff.2 ⟨hkey, rfl, hbefore, ?_⟩, rfl⟩
    exact fun j hj k hk _ => hfirst j hj k hk

/-! What is looked up. -/

theorem chord?_append (map other : ChordMap) (key : KeyCode) :
    (map ++ other : ChordMap).chord? key = (map.chord? key).or (other.chord? key) := by
  rw [chord?, List.find?_append, Option.map_or]
  rfl

theorem chord?_cons (entry : KeyCode × List KeyCode) (map : ChordMap) (key : KeyCode) :
    chord? (entry :: map) key = if entry.1 = key then some entry.2 else map.chord? key := by
  by_cases hkey : entry.1 = key
  · rw [chord?, List.find?_cons_of_pos (by simpa using hkey), if_pos hkey]
    rfl
  · rw [chord?, List.find?_cons_of_neg (by simpa using hkey), if_neg hkey]
    rfl

theorem mem_of_chord? (h : map.chord? key = some chord) : (key, chord) ∈ map := by
  obtain ⟨entry, hfound, rfl⟩ := Option.map_eq_some_iff.1 h
  have hkey : entry.1 = key := by simpa using List.find?_some hfound
  rw [← hkey]
  exact List.mem_of_find?_eq_some hfound

theorem chord?_eq_none_iff : map.chord? key = none ↔ key ∉ map.keys := by
  rw [chord?, Option.map_eq_none_iff, List.find?_eq_none, keys, List.mem_map]
  simp only [beq_iff_eq, not_exists, not_and]

theorem chord?_eq_some_iff (h : map.keys.Nodup) :
    map.chord? key = some chord ↔ (key, chord) ∈ map := by
  refine ⟨mem_of_chord?, ?_⟩
  intro hentry
  induction map with
  | nil => cases hentry
  | cons entry map ih =>
    obtain ⟨hnew, hrest⟩ := List.nodup_cons.1 h
    rw [chord?_cons]
    cases List.mem_cons.1 hentry with
    | inl hsame =>
      subst hsame
      exact if_pos rfl
    | inr hmem =>
      have hkey : key ∈ keys map := List.mem_map.2 ⟨_, hmem, rfl⟩
      have hother : entry.1 ≠ key := by
        intro hsame
        subst hsame
        exact hnew hkey
      rw [if_neg hother, ih hrest hmem]

/-! Orders of the entries. -/

theorem chord?_eq_some_iff_of_perm (h : map.keys.Nodup) (hperm : other.Perm map) :
    other.chord? key = some chord ↔ (key, chord) ∈ map := by
  have hother : other.keys.Nodup := (hperm.map _).nodup_iff.2 h
  rw [chord?_eq_some_iff hother, hperm.mem_iff]

theorem chord?_eq_of_perm (h : map.keys.Nodup) (hperm : other.Perm map) :
    other.chord? key = map.chord? key := by
  refine Option.ext fun chord => ?_
  rw [chord?_eq_some_iff_of_perm h hperm, chord?_eq_some_iff h]

/-- An entry that comes first is the one that is used. -/
theorem chord?_of_order_free (h : ∀ other : ChordMap, other.Perm map → ∀ key,
    other.chord? key = map.chord? key) (hentry : entry ∈ map) :
    map.chord? entry.1 = some entry.2 := by
  rw [← h (entry :: map.erase entry) (List.perm_cons_erase hentry).symm, chord?_cons, if_pos rfl]

theorem nodup_keys_of_order_free (hmap : map.Nodup) (h : ∀ other : ChordMap, other.Perm map →
    ∀ key, other.chord? key = map.chord? key) : map.keys.Nodup := by
  refine hmap.map_on ?_
  intro entry hentry entry' hentry' hkey
  have hchord := chord?_of_order_free h hentry
  rw [hkey, chord?_of_order_free h hentry', Option.some_inj] at hchord
  exact Prod.ext hkey hchord.symm

/-! Entries that are never used. -/

theorem firsts_concat (map : ChordMap) (entry : KeyCode × List KeyCode) :
    firsts (map ++ [entry]) = if entry.1 ∈ map.keys then map.firsts else map.firsts ++ [entry] := by
  have hkeys : keys (map ++ [entry]) = map.keys ++ [entry.1] := List.map_append
  have hearlier : map.zipIdx.filter (fun (e, i) => !((keys (map ++ [entry])).take i).contains e.1) =
      map.zipIdx.filter fun (e, i) => !(map.keys.take i).contains e.1 := by
    refine List.filter_congr ?_
    intro pair hmem
    obtain ⟨e, i⟩ := pair
    have hi : i < map.length := List.snd_lt_of_mem_zipIdx hmem
    dsimp only
    rw [hkeys, List.take_append_of_le_length (by rw [keys, List.length_map]; omega)]
  have hlast : (keys (map ++ [entry])).take map.length = map.keys := by
    rw [hkeys, List.take_left' (by rw [keys, List.length_map])]
  rw [firsts, List.zipIdx_append, List.filter_append, List.map_append, hearlier]
  by_cases hkey : entry.1 ∈ map.keys
  · simp [hlast, hkey, firsts]
  · simp [hlast, hkey, firsts]

theorem chord?_firsts (map : ChordMap) (key : KeyCode) : map.firsts.chord? key = map.chord? key := by
  induction map using List.reverseRecOn with
  | nil => rfl
  | append_singleton map entry ih =>
    rw [firsts_concat, chord?_append]
    split
    · rename_i hkey
      rw [ih, chord?_cons]
      split
      · -- The entry is hidden by an earlier one.
        rename_i hsame
        obtain ⟨chord, hchord⟩ := Option.ne_none_iff_exists'.1
          (mt chord?_eq_none_iff.1 (not_not_intro (hsame ▸ hkey)))
        rw [hchord, Option.some_or]
      · exact (Option.or_none).symm
    · rw [chord?_append, ih]

theorem mem_keys_firsts : key ∈ map.firsts.keys ↔ key ∈ map.keys := by
  rw [← not_iff_not, ← chord?_eq_none_iff, ← chord?_eq_none_iff, chord?_firsts]

theorem nodup_keys_firsts (map : ChordMap) : map.firsts.keys.Nodup := by
  induction map using List.reverseRecOn with
  | nil => exact List.nodup_nil
  | append_singleton map entry ih =>
    rw [firsts_concat]
    split
    · exact ih
    · rename_i hkey
      have hkeys : keys (firsts map ++ [entry]) = keys (firsts map) ++ [entry.1] :=
        List.map_append
      rw [hkeys, ← List.concat_eq_append]
      exact ih.concat (mt mem_keys_firsts.1 hkey)

/-! Maps with the same chords. -/

theorem chords_congr (h : ∀ key, map.chord? key = other.chord? key) (pressed : List KeyCode) :
    map.chords pressed = other.chords pressed := by
  rw [chords, chords, funext h]

theorem sentCount_congr (h : ∀ key, map.chord? key = other.chord? key) (pressed : List KeyCode) :
    map.sentCount pressed = other.sentCount pressed := by
  rw [sentCount_eq_length_chords, sentCount_eq_length_chords, chords_congr h]

theorem requests_congr (h : ∀ key, map.chord? key = other.chord? key) (pressed : List KeyCode) :
    map.requests pressed = other.requests pressed := by
  rw [requests, requests, chords_congr h]

/-- No key is reported exactly when the keys of all entries differ. Then each entry is the one that is
used for its key, in whatever order they stand; otherwise the order matters, unless an entry stands there
twice. The key that is reported is that of the first entry whose key an earlier one has. Without all such
entries the same chords are found and sent. -/
theorem order_matters_iff_duplicate (map : ChordMap) :
    (map.duplicate? = none ↔ map.keys.Nodup) ∧
    (map.duplicate? = none → ∀ other : ChordMap, other.Perm map → ∀ key chord,
      other.chord? key = some chord ↔ (key, chord) ∈ map) ∧
    (map.Nodup → (map.duplicate? = none ↔ ∀ other : ChordMap, other.Perm map → ∀ key,
      other.chord? key = map.chord? key)) ∧
    (∀ key, map.duplicate? = some key ↔ ∃ i, map.RepeatsFirst key i) ∧
    (∀ key, map.firsts.chord? key = map.chord? key) ∧
    map.firsts.duplicate? = none ∧
    ∀ pressed : List KeyCode,
      map.firsts.sentCount pressed = map.sentCount pressed ∧
      map.firsts.requests pressed = map.requests pressed ∧
      ∀ {ε : Type} [Endpoint ε] (st : Station ε),
        st.dispatch map.firsts pressed = st.dispatch map pressed := by
  refine ⟨duplicate?_eq_none_iff, ?_, ?_, fun key => duplicate?_eq_some_iff, chord?_firsts map,
    duplicate?_eq_none_iff.2 (nodup_keys_firsts map), ?_⟩
  · intro hnone other hperm key chord
    exact chord?_eq_some_iff_of_perm (duplicate?_eq_none_iff.1 hnone) hperm
  · intro hmap
    rw [duplicate?_eq_none_iff]
    exact ⟨fun h other hperm key => chord?_eq_of_perm h hperm, nodup_keys_of_order_free hmap⟩
  · intro pressed
    have hrequests := requests_congr (chord?_firsts map) pressed
    refine ⟨sentCount_congr (chord?_firsts map) pressed, hrequests, ?_⟩
    intro ε _ st
    rw [Station.dispatch, Station.dispatch, hrequests]

/-- The entries of two keys stand between each other. -/
theorem order_matters_iff_duplicate_interleaved :
    let map : ChordMap := [(4, [5]), (6, [7]), (6, [8]), (4, [9]), (6, [5])]
    let apart : ChordMap := [(4, [5]), (6, [7])]
    (∃ i, map.RepeatsFirst 6 i) ∧ map.firsts = apart ∧ apart.duplicate? = none ∧
      (∀ key, apart.chord? key = map.chord? key) ∧ chord? [(6, [7]), (4, [5])] 4 = some [5] := by
  intro map apart
  obtain ⟨-, -, -, hrepeats, hchords, -⟩ := order_matters_iff_duplicate map
  obtain ⟨-, horders, -⟩ := order_matters_iff_duplicate apart
  have hother : List.Perm [(6, [7]), (4, [5])] apart := .swap _ _ _
  exact ⟨(hrepeats 6).1 rfl, rfl, rfl, hchords, (horders rfl _ hother 4 [5]).2 (by decide)⟩

end ChordMap
end ChordPad
