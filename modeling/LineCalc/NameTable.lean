import LineCalc.Assoc
import LineCalc.Sorting
import LineCalc.Text.Lowercase

/-!
# Tables by name

Names are looked up whatever the case they are typed in: a table keeps its entries by lowercase
name.
-/

namespace LineCalc

/-- What lowercase names stand for. -/
structure NameTable (α : Type) where
  entries : Assoc α := []

namespace NameTable

variable {α : Type}

instance : Inhabited (NameTable α) := ⟨{}⟩

/-- What a name stands for, in any case. -/
def find? (t : NameTable α) (name : String) : Option α :=
  t.entries.find? (Text.lowercase name)

/-- The table in which a name stands for `a`. -/
def insert (t : NameTable α) (name : String) (a : α) : NameTable α :=
  ⟨t.entries.put (Text.lowercase name) a⟩

def names (t : NameTable α) : List String :=
  t.entries.keys

/-- An entry is found under its name in any case, and no other entry is touched. -/
theorem find?_insert (t : NameTable α) (name other : String) (a : α) :
    (t.insert name a).find? other =
      if Text.lowercase name = Text.lowercase other then some a else t.find? other :=
  Assoc.find?_put _ _ _ _

end NameTable

/-- Names in the order of their code points. -/
def sortNames (names : List String) : List String :=
  sorted (fun a b => decide (a ≤ b)) names

end LineCalc
