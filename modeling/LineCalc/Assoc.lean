/-!
# Association lists

A list of keys and what they stand for, each key once. A new value under a key takes the place of
the old one.
-/

namespace LineCalc

/-- What keys stand for, in the order in which the keys were first entered. -/
abbrev Assoc (α : Type) := List (String × α)

namespace Assoc

variable {α : Type}

/-- What a key stands for. -/
def find? (l : Assoc α) (key : String) : Option α :=
  match l with
  | [] => none
  | (k, a) :: rest => if k = key then some a else find? rest key

/-- The list in which a key stands for `a`. -/
def put (l : Assoc α) (key : String) (a : α) : Assoc α :=
  match l with
  | [] => [(key, a)]
  | (k, b) :: rest => if k = key then (k, a) :: rest else (k, b) :: put rest key a

def keys (l : Assoc α) : List String :=
  l.map (·.1)

/-- A new value is found under its key, and no other key is touched. -/
theorem find?_put (l : Assoc α) (key other : String) (a : α) :
    (l.put key a).find? other = if key = other then some a else l.find? other := by
  induction l with
  | nil => simp [put, find?]
  | cons entry rest ih =>
    obtain ⟨k, b⟩ := entry
    unfold put
    split
    · rename_i hk
      subst hk
      simp only [find?]
      split <;> rfl
    · rename_i hk
      simp only [find?, ih]
      split
      · rename_i ho
        rw [if_neg (fun h => hk (ho.trans h.symm))]
      · rfl

end Assoc

end LineCalc
