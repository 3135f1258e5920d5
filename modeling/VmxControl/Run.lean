/-!
# Runs

A run takes a list of inputs through a state, one after the other, and gives the answer to each. A
journal keeps the latest entry in front; `newest` is what it has gained.
-/

namespace VmxControl.Run

variable {σ α β : Type}

def answers (f : σ → α → β × σ) (s : σ) : List α → List β × σ
  | [] => ([], s)
  | x :: rest =>
    let (y, s) := f s x
    let (ys, s) := answers f s rest
    (y :: ys, s)

@[simp] theorem answers_nil (f : σ → α → β × σ) (s : σ) : answers f s [] = ([], s) := rfl

@[simp] theorem answers_cons (f : σ → α → β × σ) (s : σ) (x : α) (xs : List α) :
    answers f s (x :: xs) =
      ((f s x).1 :: (answers f (f s x).2 xs).1, (answers f (f s x).2 xs).2) := rfl

theorem answers_length (f : σ → α → β × σ) (s : σ) (xs : List α) :
    (answers f s xs).1.length = xs.length := by
  induction xs generalizing s with
  | nil => rfl
  | cons x xs ih => simp [ih]

/-- What comes later changes no earlier answer. -/
theorem answers_append (f : σ → α → β × σ) (s : σ) (xs ys : List α) :
    answers f s (xs ++ ys) =
      ((answers f s xs).1 ++ (answers f (answers f s xs).2 ys).1,
       (answers f (answers f s xs).2 ys).2) := by
  induction xs generalizing s with
  | nil => rfl
  | cons x xs ih => simp [ih]

/-- What was put in front of a list since it had `seen` entries, the earliest first. -/
def newest (xs : List α) (seen : Nat) : List α := (xs.take (xs.length - seen)).reverse

theorem newest_append (new old : List α) : newest (new ++ old) old.length = new.reverse := by
  simp [newest]

/-- What the journal has gained, if that is known. -/
theorem newest_of_eq {xs new old : List α} (h : xs = new.reverse ++ old) :
    newest xs old.length = new := by
  rw [h, newest_append, List.reverse_reverse]

end VmxControl.Run
