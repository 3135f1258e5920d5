/-!
# Scripts

A script is a list of things that are to happen. Whoever can use an entry takes the earliest that
fits.
-/

namespace VmxControl.Script

variable {α : Type}

/-- The earliest entry that fits, and the script without it. -/
def take? (fits : α → Bool) : List α → Option (α × List α)
  | [] => none
  | x :: rest => if fits x then some (x, rest) else (take? fits rest).map fun r => (r.1, x :: r.2)

/-- The entry that is taken is the one that a search finds. -/
theorem take?_eq (fits : α → Bool) (xs : List α) :
    take? fits xs = (xs.find? fits).map fun x => (x, xs.eraseP fits) := by
  induction xs with
  | nil => rfl
  | cons y ys ih =>
    by_cases hy : fits y
    · simp [take?, hy]
    · simp [take?, hy, ih, Function.comp_def]

variable {fits : α → Bool} {xs rest : List α} {x : α}

theorem take?_eq_none : take? fits xs = none ↔ ∀ x ∈ xs, fits x = false := by
  simp [take?_eq]

theorem take?_eq_some :
    take? fits xs = some (x, rest) ↔ xs.find? fits = some x ∧ xs.eraseP fits = rest := by
  rw [take?_eq, Option.map_eq_some_iff]
  constructor
  · rintro ⟨y, hy, he⟩
    cases he
    exact ⟨hy, rfl⟩
  · rintro ⟨hx, rfl⟩
    exact ⟨x, hx, rfl⟩

theorem find?_of_take? (h : take? fits xs = some (x, rest)) : xs.find? fits = some x :=
  (take?_eq_some.1 h).1

theorem fits_of_take? (h : take? fits xs = some (x, rest)) : fits x = true ∧ x ∈ xs :=
  ⟨List.find?_some (find?_of_take? h), List.mem_of_find?_eq_some (find?_of_take? h)⟩

/-- What is left was there before. -/
theorem sublist_of_take? (h : take? fits xs = some (x, rest)) : rest.Sublist xs := by
  obtain ⟨-, rfl⟩ := take?_eq_some.1 h
  exact List.eraseP_sublist

/-- Entries that do not fit stay. -/
theorem any_of_take? {other : α → Bool} (h : take? fits xs = some (x, rest))
    (ho : ∀ y, fits y = true → other y = false) : rest.any other = xs.any other := by
  obtain ⟨hx, hmem⟩ := fits_of_take? h
  obtain ⟨-, rfl⟩ := take?_eq_some.1 h
  obtain ⟨y, before, behind, -, hy, hxs, hrest⟩ := List.exists_of_eraseP hmem hx
  rw [hrest, hxs, List.any_append, List.any_append, List.any_cons, ho y hy, Bool.false_or]

end VmxControl.Script
