/-!
# Total stores

A store answers every key: with the value last put there, or with the blank value where nothing
was put. Only the keys that were put are kept, each once.
-/

namespace VmxControl

structure Store (κ ν : Type) where
  blank : ν
  entries : List (κ × ν)
  deriving Repr

namespace Store

variable {κ ν : Type} [DecidableEq κ]

def const (d : ν) : Store κ ν := ⟨d, []⟩

def find (d : ν) (k : κ) : List (κ × ν) → ν
  | [] => d
  | e :: rest => if k = e.1 then e.2 else find d k rest

def insert (k : κ) (v : ν) : List (κ × ν) → List (κ × ν)
  | [] => [(k, v)]
  | e :: rest => if k = e.1 then (k, v) :: rest else e :: insert k v rest

def get (s : Store κ ν) (k : κ) : ν := find s.blank k s.entries

def put (s : Store κ ν) (k : κ) (v : ν) : Store κ ν := ⟨s.blank, insert k v s.entries⟩

def ofList (d : ν) (es : List (κ × ν)) : Store κ ν := es.foldl (fun s e => s.put e.1 e.2) (const d)

theorem find_insert (d : ν) (k j : κ) (v : ν) (es : List (κ × ν)) :
    find d j (insert k v es) = if j = k then v else find d j es := by
  induction es with
  | nil => simp [insert, find]
  | cons e rest ih =>
    by_cases hk : k = e.1
    · by_cases hj : j = k
      · simp [insert, find, ← hk, hj]
      · simp [insert, find, ← hk, hj]
    · by_cases hj : j = e.1
      · subst hj
        simp [insert, find, hk, Ne.symm hk]
      · simp [insert, find, hk, hj, ih]

@[simp] theorem get_const (d : ν) (k : κ) : (const d : Store κ ν).get k = d := rfl

/-- The store after a put, seen through all its keys. -/
theorem get_put (s : Store κ ν) (k j : κ) (v : ν) :
    (s.put k v).get j = if j = k then v else s.get j :=
  find_insert s.blank k j v s.entries

@[simp] theorem get_put_same (s : Store κ ν) (k : κ) (v : ν) : (s.put k v).get k = v := by
  simp [get_put]

@[simp] theorem get_put_other (s : Store κ ν) {k j : κ} (v : ν) (h : j ≠ k) :
    (s.put k v).get j = s.get j := by
  simp [get_put, h]

end Store

end VmxControl
