/-!
# Sets of code points

The classes of characters that a vocabulary distinguishes are unions of intervals of code points.
-/

namespace LineCalc.Text

/-- Closed intervals of code points, in ascending order. -/
abbrev Intervals := List (Nat × Nat)

/--
Whether one of the intervals holds `n`. The search ends at the first interval that starts above
`n`, which the ascending order allows.
-/
def Intervals.covers : Intervals → Nat → Bool
  | [], _ => false
  | (first, last) :: rest, n =>
    if n < first then false
    else if n ≤ last then true
    else covers rest n

/-- What is covered lies in one of the intervals. -/
theorem Intervals.exists_of_covers {s : Intervals} {n : Nat} (h : s.covers n = true) :
    ∃ p ∈ s, p.1 ≤ n ∧ n ≤ p.2 := by
  induction s with
  | nil => simp [covers] at h
  | cons p rest ih =>
    obtain ⟨first, last⟩ := p
    unfold covers at h
    split at h
    · simp at h
    · split at h
      · exact ⟨(first, last), by simp, by simp; omega⟩
      · obtain ⟨p, hp, hle⟩ := ih h
        exact ⟨p, List.mem_cons_of_mem _ hp, hle⟩

end LineCalc.Text
