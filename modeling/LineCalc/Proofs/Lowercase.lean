import LineCalc.Text.Blank
import LineCalc.Text.Lowercase
import LineCalc.Text.Numeric
import Mathlib.Data.List.Forall2

/-!
# Texts and their lowercase

Two things make the lowercase of a text more than that of its characters: the final sigma and the
capital I with a dot. Where neither occurs, lowercase goes character by character, and a part of the
text has the same part of the lowercase.

* **`LowersTo`**: lowercase character by character.
* **`lowersTo_of_lower`**: a lowercase without the special characters comes about that way.
* **`isBlank_of_lowerChar`**, **`isDigit_of_lowerChar`**: white space and digits have no case.
* **`eq_of_lowerChar`**: a character to which the table moves none is the lowercase of no other.
* **`lower_lower`**: a lowercase text is its own lowercase, whatever characters it comes from.
-/

namespace LineCalc.Text

/-! ## Character by character -/

/-- The characters that appear in lowercase texts only by the special rules. -/
def specialLowercase : List Char := ['σ', 'ς', Char.ofNat 0x0307]

/-- The second text is the lowercase of the first one, character by character. -/
def LowersTo (text lowered : List Char) : Prop :=
  List.Forall₂ (fun x y => x ≠ 'Σ' ∧ lowerChar x = [y]) text lowered

theorem lowerAfter_of_lowersTo {text lowered : List Char} (h : LowersTo text lowered)
    (before : List Char) : lowerAfter before text = lowered := by
  induction h generalizing before with
  | nil => rfl
  | cons hhead _ ih =>
    rw [lowerAfter, if_neg hhead.1, hhead.2, ih, List.singleton_append]

theorem LowersTo.lower_eq {text lowered : List Char} (h : LowersTo text lowered) :
    lower text = lowered :=
  lowerAfter_of_lowersTo h []

theorem LowersTo.length_eq {text lowered : List Char} (h : LowersTo text lowered) :
    text.length = lowered.length :=
  List.Forall₂.length_eq h

theorem LowersTo.take {text lowered : List Char} (h : LowersTo text lowered) (n : Nat) :
    LowersTo (text.take n) (lowered.take n) :=
  List.forall₂_take n h

theorem LowersTo.drop {text lowered : List Char} (h : LowersTo text lowered) (n : Nat) :
    LowersTo (text.drop n) (lowered.drop n) :=
  List.forall₂_drop n h

theorem lowersTo_of_lowerAfter {text lowered before : List Char}
    (h : lowerAfter before text = lowered) (hplain : ∀ y ∈ lowered, y ∉ specialLowercase) :
    LowersTo text lowered := by
  induction text generalizing before lowered with
  | nil =>
    subst h
    exact .nil
  | cons x text ih =>
    subst h
    rw [lowerAfter] at hplain ⊢
    obtain ⟨hhead, htail⟩ := List.forall_mem_append.1 hplain
    -- the rules for sigma and for the dotted capital leave special characters behind
    have hsigma : x ≠ 'Σ' := by
      rintro rfl
      rw [if_pos rfl] at hhead
      split at hhead <;> simp [specialLowercase] at hhead
    rw [if_neg hsigma] at hhead ⊢
    have hdotted : x ≠ 'İ' := by
      rintro rfl
      simp [lowerChar, specialLowercase] at hhead
    have hlower : lowerChar x = [Char.ofNat (shiftedCode x.toNat lowercaseShifts)] := by
      rw [lowerChar, if_neg hdotted]
    rw [hlower]
    exact .cons ⟨hsigma, hlower⟩ (ih rfl htail)

theorem lowersTo_of_lower {text lowered : List Char} (h : lower text = lowered)
    (hplain : ∀ y ∈ lowered, y ∉ specialLowercase) : LowersTo text lowered :=
  lowersTo_of_lowerAfter h hplain

/-! ## Characters without case -/

/-- No row of the table reaches into the intervals. -/
def uncased (s : Intervals) : Bool :=
  s.all fun p => (p.2 < 0x0130 || 0x0130 < p.1) &&
    lowercaseShifts.all fun row => p.2 < row.1 || row.2.1 < p.1

theorem shiftedCode_of_outside {n : Nat} {rows : List (Nat × Nat × Nat × Int)}
    (h : ∀ row ∈ rows, n < row.1 ∨ row.2.1 < n) : shiftedCode n rows = n := by
  induction rows with
  | nil => rfl
  | cons row rows ih =>
    obtain ⟨first, last, step, shift⟩ := row
    obtain ⟨hrow, hrows⟩ := List.forall_mem_cons.1 h
    unfold shiftedCode
    split
    · rfl
    · -- a row that starts before the character ends before it as well, so the search goes on
      rw [if_neg (by dsimp only at hrow; omega), ih hrows]

theorem lowerChar_of_uncased {s : Intervals} (hs : uncased s = true) {c : Char}
    (hc : s.covers c.toNat = true) : lowerChar c = [c] := by
  obtain ⟨p, hp, hfirst, hlast⟩ := Intervals.exists_of_covers hc
  simp only [uncased, List.all_eq_true, Bool.and_eq_true, Bool.or_eq_true, decide_eq_true_eq] at hs
  obtain ⟨hdot, hrows⟩ := hs p hp
  have hdotted : c ≠ 'İ' := by
    rintro rfl
    have hcode : 'İ'.toNat = 0x0130 := rfl
    omega
  -- the interval lies between the rows, so none of them moves the character
  have hshift : shiftedCode c.toNat lowercaseShifts = c.toNat :=
    shiftedCode_of_outside fun row hrow => by
      have hdisjoint := hrows row hrow
      omega
  rw [lowerChar, if_neg hdotted, hshift, Char.ofNat_toNat]

/-- A character whose lowercase is not in such intervals is not in them either. -/
theorem covers_of_lowerChar {s : Intervals} (hs : uncased s = true) {x y : Char}
    (h : lowerChar x = [y]) (hy : s.covers y.toNat = false) : s.covers x.toNat = false := by
  cases hx : s.covers x.toNat with
  | false => rfl
  | true =>
    have hself := lowerChar_of_uncased hs hx
    rw [h] at hself
    cases hself
    rw [hy] at hx
    cases hx

theorem isBlank_of_lowerChar {x y : Char} (h : lowerChar x = [y]) (hy : isBlank y = false) :
    isBlank x = false :=
  covers_of_lowerChar (by decide +kernel) h hy

theorem isDigit_of_lowerChar {x y : Char} (h : lowerChar x = [y]) (hy : isDigit y = false) :
    isDigit x = false :=
  covers_of_lowerChar (by decide +kernel) h hy

/-- Characters that are their own lowercase are the lowercase of no others. -/
theorem not_mem_of_lowerChar {x y : Char} {fixed : List Char}
    (hfixed : ∀ c ∈ fixed, lowerChar c = [c]) (h : lowerChar x = [y]) (hy : y ∉ fixed) :
    x ∉ fixed := by
  intro hx
  have hself := hfixed x hx
  rw [h] at hself
  cases hself
  exact hy hx

/-! ## Characters that are the lowercase of no other -/

/-- No row of the table moves anything to the code point. -/
def untouched (n : Nat) : Bool :=
  n != 0 && lowercaseShifts.all fun row =>
    (row.2.1 : Int) + row.2.2.2 < n || (n : Int) < row.1 + row.2.2.2

theorem eq_of_shiftedCode {n m : Nat} {rows : List (Nat × Nat × Nat × Int)} (hm : m ≠ 0)
    (h : ∀ row ∈ rows, (row.2.1 : Int) + row.2.2.2 < m ∨ (m : Int) < row.1 + row.2.2.2)
    (hshift : shiftedCode n rows = m) : n = m := by
  induction rows with
  | nil => exact hshift
  | cons row rows ih =>
    obtain ⟨first, last, step, shift⟩ := row
    obtain ⟨hrow, hrows⟩ := List.forall_mem_cons.1 h
    unfold shiftedCode at hshift
    split at hshift
    · exact hshift
    split at hshift
    · split at hshift
      · -- the row would move the character there
        dsimp only at hrow
        omega
      · exact ih hrows hshift
    · exact ih hrows hshift

theorem toNat_ofNat_of_isValidChar {n : Nat} (h : n.isValidChar) : (Char.ofNat n).toNat = n := by
  rw [Char.ofNat, dif_pos h]
  rfl

/-- A number that is the code point of no character gives the character of code point zero. -/
theorem toNat_ofNat {n : Nat} (h : (Char.ofNat n).toNat ≠ 0) : (Char.ofNat n).toNat = n := by
  by_cases hvalid : n.isValidChar
  · exact toNat_ofNat_of_isValidChar hvalid
  · refine absurd ?_ h
    rw [Char.ofNat, dif_neg hvalid]
    rfl

theorem eq_of_lowerChar {x y : Char} (h : lowerChar x = [y]) (hy : untouched y.toNat = true) :
    x = y := by
  simp only [untouched, Bool.and_eq_true, bne_iff_ne, List.all_eq_true, Bool.or_eq_true,
    decide_eq_true_eq] at hy
  obtain ⟨hzero, hrows⟩ := hy
  unfold lowerChar at h
  split at h
  · cases h
  · obtain ⟨rfl, -⟩ := List.cons.inj h
    have hcode := eq_of_shiftedCode hzero hrows (toNat_ofNat hzero).symm
    exact Char.toNat_inj.1 hcode

/-- What is its own lowercase is in a text only if it is in the lowercase. -/
theorem LowersTo.not_mem_of_fixed {text lowered : List Char} (h : LowersTo text lowered) {c : Char}
    (hc : lowerChar c = [c]) (hmem : c ∉ lowered) : c ∉ text := by
  induction h with
  | nil => exact List.not_mem_nil
  | cons hhead _ ih =>
    rw [List.mem_cons, not_or] at hmem ⊢
    refine ⟨?_, ih hmem.2⟩
    rintro rfl
    exact hmem.1 (List.singleton_inj.1 (hc.symm.trans hhead.2))

/-- What is the lowercase of no other character is in a lowercase only if it is in the text. -/
theorem LowersTo.mem_of_untouched {text lowered : List Char} (h : LowersTo text lowered) {y : Char}
    (hy : untouched y.toNat = true) (hmem : y ∈ lowered) : y ∈ text := by
  induction h with
  | nil => cases hmem
  | cons hhead _ ih =>
    rcases List.mem_cons.1 hmem with rfl | hmem
    · rw [eq_of_lowerChar hhead.2 hy]
      exact List.mem_cons_self ..
    · exact List.mem_cons_of_mem _ (ih hmem)

/-! ## The lowercase of a lowercase -/

/-- Whether rows leave alone the code points from `start` to `stop` in steps of `step`. -/
def leavesAlone (start stop step : Nat) : List (Nat × Nat × Nat × Int) → Bool
  | [] => true
  | (first, last, every, _) :: rows =>
    stop < first ||
      (last < start || (step % every == 0 && (start - first) % every != 0)) &&
        leavesAlone start stop step rows

/-- What a row moves something to is left alone; a row that moves one code point takes no steps. -/
theorem leavesAlone_targets : ∀ row ∈ lowercaseShifts, 0 ≤ row.1 + row.2.2.2 ∧
    leavesAlone (row.1 + row.2.2.2).toNat (row.2.1 + row.2.2.2).toNat
      (if row.1 = row.2.1 then 0 else row.2.2.1) lowercaseShifts = true := by
  decide +kernel

theorem shiftedCode_of_leavesAlone {start stop step n k : Nat}
    {rows : List (Nat × Nat × Nat × Int)} (h : leavesAlone start stop step rows = true)
    (hn : n = start + step * k) (hstop : n ≤ stop) : shiftedCode n rows = n := by
  induction rows with
  | nil => rfl
  | cons row rows ih =>
    obtain ⟨first, last, every, shift⟩ := row
    simp only [leavesAlone, Bool.or_eq_true, Bool.and_eq_true, decide_eq_true_eq, beq_iff_eq,
      bne_iff_ne] at h
    unfold shiftedCode
    rcases h with habove | ⟨hrow, hrows⟩
    · rw [if_pos (by omega)]
    split
    · rfl
    rw [ih hrows]
    split
    · -- a row that reaches as far passes over the code points by its steps
      rename_i hfirst hlast
      obtain ⟨hsteps, hoff⟩ := hrow.resolve_left (by omega)
      have hle : first ≤ start := by
        by_contra hlt
        exact hoff (by rw [Nat.sub_eq_zero_of_le (by omega), Nat.zero_mod])
      have hsub : n - first = start - first + step * k := by omega
      have hmod : (n - first) % every = (start - first) % every := by
        rw [hsub, Nat.add_mod, Nat.mul_mod, hsteps, Nat.zero_mul, Nat.zero_mod, Nat.add_zero,
          Nat.mod_mod]
      rw [if_neg (by rwa [hmod])]
    · rfl

/-- A code point that is moved is moved by a row that counts it. -/
theorem shiftedCode_eq_or_exists (n : Nat) (rows : List (Nat × Nat × Nat × Int)) :
    shiftedCode n rows = n ∨ ∃ row ∈ rows, row.1 ≤ n ∧ n ≤ row.2.1 ∧
      (n - row.1) % row.2.2.1 = 0 ∧ shiftedCode n rows = (n + row.2.2.2).toNat := by
  induction rows with
  | nil => exact .inl rfl
  | cons row rows ih =>
    obtain ⟨first, last, step, shift⟩ := row
    by_cases hrow : first ≤ n ∧ n ≤ last ∧ (n - first) % step = 0
    · obtain ⟨hfirst, hlast, hstep⟩ := hrow
      refine .inr ⟨_, List.mem_cons_self .., hfirst, hlast, hstep, ?_⟩
      rw [shiftedCode, if_neg (Nat.not_lt.2 hfirst), if_pos hlast, if_pos hstep]
    · have hpassed : shiftedCode n ((first, last, step, shift) :: rows) = n ∨
          shiftedCode n ((first, last, step, shift) :: rows) = shiftedCode n rows := by
        rw [shiftedCode]
        split
        · exact .inl rfl
        split
        · rw [if_neg (fun hstep => hrow ⟨by omega, by assumption, hstep⟩)]
          exact .inr rfl
        · exact .inr rfl
      rcases hpassed with hself | hpassed
      · exact .inl hself
      · rw [hpassed]
        exact ih.imp_right fun ⟨row, hrow, hmoved⟩ => ⟨row, List.mem_cons_of_mem _ hrow, hmoved⟩

/-- A code point is moved once. -/
theorem shiftedCode_shiftedCode (n : Nat) :
    shiftedCode (shiftedCode n lowercaseShifts) lowercaseShifts =
      shiftedCode n lowercaseShifts := by
  rcases shiftedCode_eq_or_exists n lowercaseShifts with
    hself | ⟨row, hrow, hfirst, hlast, hstep, heq⟩
  · rw [hself, hself]
  · obtain ⟨hnonneg, hleaves⟩ := leavesAlone_targets row hrow
    rw [heq]
    refine shiftedCode_of_leavesAlone (k := (n - row.1) / row.2.2.1) hleaves ?_ (by omega)
    split
    · omega
    · have hdiv := Nat.mul_div_cancel' (Nat.dvd_of_mod_eq_zero hstep)
      omega

/-- A character of a lowercase is its own lowercase. -/
theorem lowerChar_of_mem_lowerChar {x y : Char} (h : y ∈ lowerChar x) : lowerChar y = [y] := by
  unfold lowerChar at h
  split at h
  · rcases List.mem_pair.1 h with rfl | rfl <;> decide +kernel
  · rename_i hx
    obtain hy := List.mem_singleton.1 h
    by_cases hzero : y.toNat = 0
    · -- a number that is the code point of no character
      obtain rfl : y = Char.ofNat 0 := Char.toNat_inj.1 hzero
      decide +kernel
    · have hcode : y.toNat = shiftedCode x.toNat lowercaseShifts := by
        rw [hy] at hzero ⊢
        exact toNat_ofNat hzero
      have hfixed : shiftedCode y.toNat lowercaseShifts = y.toNat := by
        rw [hcode, shiftedCode_shiftedCode]
      have hdotted : y ≠ 'İ' := by
        rintro rfl
        exact hx (eq_of_lowerChar (by rw [lowerChar, if_neg hx, ← hy]) (by decide +kernel))
      rw [lowerChar, if_neg hdotted, hfixed, Char.ofNat_toNat]

/-- A character of a lowercase is a sigma, or it comes from a single character of the text. -/
theorem mem_of_mem_lowerAfter {y : Char} {cs before : List Char} (h : y ∈ lowerAfter before cs) :
    y = 'σ' ∨ y = 'ς' ∨ ∃ x ∈ cs, y ∈ lowerChar x := by
  induction cs generalizing before with
  | nil => cases h
  | cons c rest ih =>
    rw [lowerAfter, List.mem_append] at h
    rcases h with h | h
    · split at h
      · split at h
        · exact .inr (.inl (List.mem_singleton.1 h))
        · exact .inl (List.mem_singleton.1 h)
      · exact .inr (.inr ⟨c, List.mem_cons_self .., h⟩)
    · exact (ih h).imp_right (.imp_right fun ⟨x, hx, hy⟩ => ⟨x, List.mem_cons_of_mem c hx, hy⟩)

theorem lowerChar_of_mem_lowerAfter {y : Char} {cs before : List Char}
    (h : y ∈ lowerAfter before cs) : lowerChar y = [y] := by
  rcases mem_of_mem_lowerAfter h with rfl | rfl | ⟨x, -, hx⟩
  · decide +kernel
  · decide +kernel
  · exact lowerChar_of_mem_lowerChar hx

/-- Lowercase texts are their own lowercase. -/
theorem lower_lower (cs : List Char) : lower (lower cs) = lower cs := by
  have hself : LowersTo (lower cs) (lower cs) := by
    refine List.forall₂_same.2 fun y hy => ?_
    have hy : lowerChar y = [y] := lowerChar_of_mem_lowerAfter hy
    refine ⟨?_, hy⟩
    rintro rfl
    revert hy
    decide +kernel
  exact hself.lower_eq

end LineCalc.Text
