/-! The closed switches of a matrix, each known by its input and output line. -/
namespace ChordPad

abbrev Contacts := List (Nat × Nat)

namespace Contacts

def isClosed (contacts : Contacts) (input output : Nat) : Bool := contacts.contains (input, output)

def set (contacts : Contacts) (input output : Nat) (closed : Bool) : Contacts :=
  let others := contacts.filter (· != (input, output))
  if closed then (input, output) :: others else others

theorem isClosed_set (contacts : Contacts) (input output i o : Nat) (closed : Bool) :
    (contacts.set input output closed).isClosed i o =
      if i = input ∧ o = output then closed else contacts.isClosed i o := by
  by_cases h : i = input ∧ o = output
  · obtain ⟨rfl, rfl⟩ := h
    cases closed <;> simp [set, isClosed]
  · have h' : ¬ ((i, o) = (input, output)) := by simpa using h
    cases closed <;> simp [set, isClosed, h, h', List.contains_eq_mem]

end Contacts
end ChordPad
