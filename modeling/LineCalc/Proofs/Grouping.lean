import LineCalc.Proofs.Numerals

/-!
# Groups of digits

The integer digits of a number may be written in groups, with a separator between them. The groups
are counted from the right, so the number of digits is known from the length of what is written, and
where the separators stand is known from it as well: a number is told from its text whatever the
separator is. To delete the separators is another way to read the text, and it works for separators
that the number is not written with itself.

* **`DigitGroups`**: a first group of one to three digits, and groups of exactly three.
* **`NumberFormat.exists_digitGroups`**: grouping puts the separator between such groups.
* **`NumberFormat.round_eq_of_write_eq`**: numbers that are written alike are shown as one number.
* **`NumberFormat.filter_write`**: what is left when the separators are deleted.
* **`Config.format_grouped`**: the three of them for a configuration.
-/

namespace LineCalc

/-- Digits in groups: a first group of one to three, and others of exactly three. -/
structure DigitGroups where
  first : List Char
  others : List (List Char)
  first_ne_nil : first ≠ []
  length_first_le : first.length ≤ 3
  length_of_mem : ∀ group ∈ others, group.length = 3

namespace DigitGroups

def digits (g : DigitGroups) : List Char :=
  g.first ++ g.others.flatten

/-- The groups with a separator before each one but the first. -/
def separated (g : DigitGroups) (separator : Char) : List Char :=
  g.first ++ g.others.flatMap (separator :: ·)

theorem length_digits_mod (g : DigitGroups) : g.digits.length % 3 = g.first.length % 3 := by
  have hothers : g.others.flatten.length = g.others.length * 3 := by
    rw [List.length_flatten, List.map_congr_left g.length_of_mem, List.map_const',
      List.sum_replicate_nat]
  rw [digits, List.length_append, hothers, Nat.add_mul_mod_self_right]

/-- The groups with one more digit in front: in the first group, or in a new one if that is full. -/
theorem exists_cons (g : DigitGroups) (d separator : Char) :
    ∃ h : DigitGroups, h.digits = d :: g.digits ∧
      h.separated separator =
        if g.digits.length % 3 = 0 then d :: separator :: g.separated separator
        else d :: g.separated separator := by
  have hfirst := List.length_pos_iff.2 g.first_ne_nil
  have hle := g.length_first_le
  have hmod := g.length_digits_mod
  by_cases hfull : g.first.length = 3
  · refine ⟨⟨[d], g.first :: g.others, by simp, by simp, ?_⟩, rfl, ?_⟩
    · exact List.forall_mem_cons.2 ⟨hfull, g.length_of_mem⟩
    · rw [if_pos (by omega)]
      rfl
  · refine ⟨⟨d :: g.first, g.others, by simp, ?_, g.length_of_mem⟩, rfl, ?_⟩
    · simp only [List.length_cons]
      omega
    · rw [if_neg (by omega)]
      rfl

end DigitGroups

namespace Decimal

theorem integerDigits_ne_nil (d : Decimal) : d.integerDigits ≠ [] :=
  Nat.toDigits_ne_nil

/-- The parts that a number is written with make it up. -/
theorem eq_of_digits {a b : Decimal} (hsign : a.isNegative = b.isNegative)
    (hinteger : a.integerDigits = b.integerDigits)
    (hfraction : a.fractionDigits = b.fractionDigits) : a = b := by
  have hscale : a.scale = b.scale := by
    rw [← a.length_fractionDigits, hfraction, b.length_fractionDigits]
  have habs : a.mantissa.natAbs = b.mantissa.natAbs := by
    rw [← Literal.mantissa_ofDecimal a, ← Literal.mantissa_ofDecimal b]
    simp only [Literal.mantissa, Literal.ofDecimal, hinteger, hfraction]
  refine ext_parts ?_ hscale
  simp only [isNegative, decide_eq_decide] at hsign
  omega

end Decimal

namespace NumberFormat

variable {f : NumberFormat} {separator : Char} {digits others : List Char} {a b : Decimal}

/-! ## Grouping digits -/

/-- What stands after a digit is told by the number of digits that follow. -/
theorem groupDigits_cons (separator d : Char) (rest : List Char) :
    groupDigits separator (d :: rest) =
      d :: if rest.length % 3 = 0 ∧ 0 < rest.length then separator :: groupDigits separator rest
        else groupDigits separator rest := by
  simp only [groupDigits, List.length_pos_iff]
  split <;> rfl

/-- Grouping puts the separator between groups of three. -/
theorem exists_digitGroups (separator : Char) (h : digits ≠ []) :
    ∃ g : DigitGroups, g.digits = digits ∧
      groupDigits separator digits = g.separated separator := by
  induction digits with
  | nil => exact absurd rfl h
  | cons d rest ih =>
    by_cases hrest : rest = []
    · subst hrest
      exact ⟨⟨[d], [], by simp, by simp, by simp⟩, rfl, rfl⟩
    · obtain ⟨g, rfl, hgroups⟩ := ih hrest
      obtain ⟨h, hdigits, hseparated⟩ := g.exists_cons d separator
      refine ⟨h, hdigits, ?_⟩
      rw [hseparated, groupDigits, hgroups]
      simp only [hrest, ne_eq, not_false_eq_true, and_true]

theorem length_groupDigits (separator : Char) (digits : List Char) :
    (groupDigits separator digits).length = digits.length + (digits.length - 1) / 3 := by
  induction digits with
  | nil => rfl
  | cons d rest ih =>
    rw [groupDigits_cons]
    split <;> simp only [List.length_cons, ih] <;> omega

/-- Where the separators stand is known from the number of digits, and that from the length. -/
theorem groupDigits_inj (h : groupDigits separator digits = groupDigits separator others) :
    digits = others := by
  have hlength : digits.length = others.length := by
    have hlengths := congrArg List.length h
    rw [length_groupDigits, length_groupDigits] at hlengths
    omega
  induction digits generalizing others with
  | nil => exact (List.length_eq_zero_iff.1 hlength.symm).symm
  | cons d rest ih =>
    rcases others with _ | ⟨e, others⟩
    · cases hlength
    have hrest : rest.length = others.length := Nat.succ.inj hlength
    rw [groupDigits_cons, groupDigits_cons, hrest] at h
    obtain ⟨rfl, htail⟩ := List.cons.inj h
    have hothers : groupDigits separator rest = groupDigits separator others := by
      split at htail
      · exact (List.cons.inj htail).2
      · exact htail
    rw [ih hothers hrest]

/-- Without the separators, what is left of grouped digits is what would be left of the digits. -/
theorem filter_groupDigits (separator : Char) (digits : List Char) :
    (groupDigits separator digits).filter (· ≠ separator) = digits.filter (· ≠ separator) := by
  induction digits with
  | nil => rfl
  | cons d rest ih =>
    have htail : (if rest.length % 3 = 0 ∧ 0 < rest.length then
        separator :: groupDigits separator rest else groupDigits separator rest).filter
          (· ≠ separator) = rest.filter (· ≠ separator) := by
      split <;> simpa using ih
    rw [groupDigits_cons, List.filter_cons, List.filter_cons, htail]

/-! ## The parts of a number -/

/-- The format without a separator between groups of digits. -/
def ungrouped (f : NumberFormat) : NumberFormat :=
  { f with groupingSeparator := none }

def signPart (d : Decimal) : List Char :=
  if d.isNegative then ['-'] else []

def fractionPart (separator : Char) (d : Decimal) : List Char :=
  if d.scale = 0 then [] else separator :: d.fractionDigits

theorem write_grouped (h : f.groupingSeparator = some separator) (d : Decimal) :
    f.write d = signPart (f.round d) ++ groupDigits separator (f.round d).integerDigits ++
      fractionPart f.decimalSeparator (f.round d) := by
  rw [write, h]
  rfl

theorem write_ungrouped (f : NumberFormat) (d : Decimal) :
    f.ungrouped.write d = signPart (f.round d) ++ (f.round d).integerDigits ++
      fractionPart f.decimalSeparator (f.round d) :=
  rfl

/-! ## Telling a number from its text -/

theorem mem_groupDigits {c : Char} (h : c ∈ groupDigits separator digits) :
    c = separator ∨ c ∈ digits := by
  by_cases hc : c = separator
  · exact .inl hc
  · have hkept : c ∈ (groupDigits separator digits).filter (· ≠ separator) := by simp [h, hc]
    rw [filter_groupDigits] at hkept
    exact .inr (List.mem_filter.1 hkept).1

/-- The first character after the sign is a digit. -/
theorem exists_groupDigits_eq_cons (separator : Char) (d : Decimal) :
    ∃ c rest, groupDigits separator d.integerDigits = c :: rest ∧ c.isDigit = true := by
  obtain ⟨c, rest, hcons⟩ := List.exists_cons_of_ne_nil d.integerDigits_ne_nil
  have hmem : c ∈ d.integerDigits := hcons ▸ List.mem_cons_self ..
  exact ⟨c, _, by rw [hcons, groupDigits_cons], Decimal.isDigit_of_mem_integerDigits hmem⟩

/-- What stands before the fraction is free of the decimal separator. -/
theorem takeWhile_groupDigits (hdecimal : isSeparator f.decimalSeparator = true)
    (hne : separator ≠ f.decimalSeparator) (d : Decimal) :
    (groupDigits separator d.integerDigits ++ fractionPart f.decimalSeparator d).takeWhile
      (· ≠ f.decimalSeparator) = groupDigits separator d.integerDigits := by
  have hinteger : ∀ c ∈ groupDigits separator d.integerDigits,
      decide (c ≠ f.decimalSeparator) = true := by
    intro c hc
    rw [decide_eq_true_eq]
    rcases mem_groupDigits hc with rfl | hdigit
    · exact hne
    · have hfigure := figure_of_isDigit (Decimal.isDigit_of_mem_integerDigits hdigit)
      exact (ne_of_isSeparator hdecimal).2.2.1 c hfigure
  have hfraction : (fractionPart f.decimalSeparator d).takeWhile (· ≠ f.decimalSeparator) = [] := by
    unfold fractionPart
    split <;> simp
  rw [List.takeWhile_append_of_pos hinteger, hfraction, List.append_nil]

theorem fractionDigits_eq_of_fractionPart
    (h : fractionPart separator a = fractionPart separator b) :
    a.fractionDigits = b.fractionDigits := by
  have hparts : ∀ d : Decimal, d.fractionDigits = (fractionPart separator d).drop 1 := by
    intro d
    unfold fractionPart
    split
    · rename_i hscale
      exact List.length_eq_zero_iff.1 (d.length_fractionDigits.trans hscale)
    · rfl
  rw [hparts, hparts, h]

/-- Only a negative number starts with a sign, whatever separates its groups. -/
theorem isNegative_eq_of_signPart {rest rest' : List Char}
    (h : signPart a ++ (groupDigits separator a.integerDigits ++ rest) =
      signPart b ++ (groupDigits separator b.integerDigits ++ rest')) :
    a.isNegative = b.isNegative := by
  have hhead : ∀ (d : Decimal) (rest : List Char),
      (signPart d ++ (groupDigits separator d.integerDigits ++ rest)).head? = some '-' ↔
        d.isNegative = true := by
    intro d rest
    obtain ⟨c, others, hcons, hdigit⟩ := exists_groupDigits_eq_cons separator d
    have hc : c ≠ '-' := by
      rintro rfl
      exact absurd hdigit (by decide)
    unfold signPart
    split <;> simp_all
  rw [Bool.eq_iff_iff, ← hhead a rest, ← hhead b rest', h]

/-- Numbers that are written alike in groups are shown as one number. -/
theorem round_eq_of_write_eq (hdecimal : isSeparator f.decimalSeparator = true)
    (hgrouping : f.groupingSeparator = some separator) (hne : separator ≠ f.decimalSeparator)
    (h : f.write a = f.write b) : f.round a = f.round b := by
  rw [write_grouped hgrouping, write_grouped hgrouping, List.append_assoc, List.append_assoc] at h
  generalize f.round a = a at h ⊢
  generalize f.round b = b at h ⊢
  have hsign := isNegative_eq_of_signPart h
  have hsigns : signPart a = signPart b := by
    rw [signPart, signPart, hsign]
  rw [hsigns, List.append_cancel_left_eq] at h
  have hinteger :
      groupDigits separator a.integerDigits = groupDigits separator b.integerDigits := by
    rw [← takeWhile_groupDigits hdecimal hne a, ← takeWhile_groupDigits hdecimal hne b, h]
  rw [hinteger, List.append_cancel_left_eq] at h
  exact Decimal.eq_of_digits hsign (groupDigits_inj hinteger) (fractionDigits_eq_of_fractionPart h)

/-! ## Deleting the separators -/

/-- What is left when the separators are deleted is left of the number without groups as well. -/
theorem filter_write (hgrouping : f.groupingSeparator = some separator) (d : Decimal) :
    (f.write d).filter (· ≠ separator) = (f.ungrouped.write d).filter (· ≠ separator) := by
  rw [write_grouped hgrouping, write_ungrouped]
  simp only [List.filter_append, filter_groupDigits]

/-- Deleting the separators gives the number without groups if that is written without them. -/
theorem filter_write_eq_iff (hgrouping : f.groupingSeparator = some separator) (d : Decimal) :
    (f.write d).filter (· ≠ separator) = f.ungrouped.write d ↔ separator ∉ f.ungrouped.write d := by
  rw [filter_write hgrouping, List.filter_eq_self]
  constructor
  · intro h hmem
    exact of_decide_eq_true (h separator hmem) rfl
  · intro h c hc
    rw [decide_eq_true_eq]
    rintro rfl
    exact h hc

/-- A number that is written with all ten digits and a sign. -/
def everyFigure : Decimal := .ofInt (-1234567890)

theorem write_everyFigure (f : NumberFormat) :
    f.ungrouped.write everyFigure = "-1234567890".toList := by
  have hround : f.round everyFigure = everyFigure := by
    rw [round, Decimal.roundTo_of_scale_le (Nat.zero_le _)]
    rfl
  have hfraction : fractionPart f.decimalSeparator everyFigure = [] := rfl
  rw [write_ungrouped, hround, hfraction]
  decide

theorem mem_figures_of_isDigit {c : Char} (h : c.isDigit = true) : c ∈ "-1234567890".toList := by
  have hfigures : ∀ n < 58, 48 ≤ n → Char.ofNat n ∈ "-1234567890".toList := by decide
  obtain ⟨hlow, hhigh⟩ : 48 ≤ c.toNat ∧ c.toNat ≤ 57 := Char.isDigit_iff_toNat.1 h
  have hc := hfigures c.toNat (by omega) hlow
  rwa [Char.ofNat_toNat] at hc

/-- Numbers without groups are written with digits, a minus sign and the decimal separator. -/
theorem not_mem_write_ungrouped_iff (hne : separator ≠ f.decimalSeparator) :
    (∀ d, separator ∉ f.ungrouped.write d) ↔ separator.isDigit = false ∧ separator ≠ '-' := by
  constructor
  · intro h
    have hfigures := write_everyFigure f ▸ h everyFigure
    refine ⟨?_, ?_⟩
    · rw [← Bool.not_eq_true]
      exact fun hdigit => hfigures (mem_figures_of_isDigit hdigit)
    · rintro rfl
      exact hfigures (by decide)
  · rintro ⟨hdigit, hminus⟩ d hmem
    have hno : ∀ digits : List Char, (∀ c ∈ digits, c.isDigit = true) → separator ∉ digits := by
      intro digits hdigits h
      rw [hdigits separator h] at hdigit
      cases hdigit
    rw [write_ungrouped, List.mem_append, List.mem_append] at hmem
    rcases hmem with (hsign | hinteger) | hfraction
    · unfold signPart at hsign
      split at hsign
      · exact hminus (List.mem_singleton.1 hsign)
      · cases hsign
    · exact hno _ (fun c hc => Decimal.isDigit_of_mem_integerDigits hc) hinteger
    · unfold fractionPart at hfraction
      split at hfraction
      · cases hfraction
      · rcases List.mem_cons.1 hfraction with heq | hdigits
        · exact hne heq
        · exact hno _ (fun c hc => Decimal.isDigit_of_mem_fractionDigits hc) hdigits

end NumberFormat

namespace Config

open NumberFormat

/--
Whatever character a configuration puts between groups of digits, the integer part is written in a
first group of one to three digits and groups of exactly three, and numbers that are written alike
are shown as one number. Deleting the separators gives what is written without groups wherever that
has no such character in it, and so for every number exactly when the separator is neither a digit
nor the minus sign.
-/
theorem format_grouped (c : Config) {separator : Char}
    (h : c.format.groupingSeparator = some separator) :
    (∀ d, ∃ g : DigitGroups, g.digits = (c.format.round d).integerDigits ∧
      (c.format.format d).toList = signPart (c.format.round d) ++ g.separated separator ++
        fractionPart c.format.decimalSeparator (c.format.round d) ∧
      (c.format.ungrouped.format d).toList = signPart (c.format.round d) ++ g.digits ++
        fractionPart c.format.decimalSeparator (c.format.round d)) ∧
    (∀ a b, c.format.format a = c.format.format b → c.format.round a = c.format.round b) ∧
    (∀ d, (c.format.format d).toList.filter (· ≠ separator) = (c.format.ungrouped.format d).toList ↔
      separator ∉ (c.format.ungrouped.format d).toList) ∧
    ((∀ d, (c.format.format d).toList.filter (· ≠ separator) =
        (c.format.ungrouped.format d).toList) ↔ separator.isDigit = false ∧ separator ≠ '-') := by
  obtain ⟨hdecimal, hdistinct⟩ := c.acceptable
  have hne : separator ≠ c.format.decimalSeparator := fun heq => hdistinct (heq ▸ h)
  have htext : ∀ (f : NumberFormat) d, (f.format d).toList = f.write d :=
    fun f d => String.toList_ofList
  simp only [htext]
  refine ⟨fun d => ?_, fun a b heq => ?_, filter_write_eq_iff h, ?_⟩
  · obtain ⟨g, hdigits, hgroups⟩ :=
      exists_digitGroups separator (c.format.round d).integerDigits_ne_nil
    refine ⟨g, hdigits, ?_, ?_⟩
    · rw [write_grouped h, hgroups]
    · rw [write_ungrouped, hdigits]
  · refine round_eq_of_write_eq hdecimal h hne ?_
    rw [← htext, ← htext, heq]
  · rw [← not_mem_write_ungrouped_iff hne]
    exact forall_congr' (filter_write_eq_iff h)

/-- A negative number of seven digits with points between its groups, and a comma. -/
theorem format_grouped_millions :
    let c : Config := { format := ⟨',', some '.', 4⟩, acceptable := by decide }
    c.format.groupingSeparator = some '.' ∧
      (c.format.format (.ofScaled (-12345675) 1)).toList = "-1.234.567,5".toList ∧
      (c.format.format (.ofScaled (-12345675) 1)).toList.filter (· ≠ '.') =
        (c.format.ungrouped.format (.ofScaled (-12345675) 1)).toList := by
  intro c
  have hseparator : c.format.groupingSeparator = some '.' := rfl
  obtain ⟨-, -, hdeleting, -⟩ := format_grouped c hseparator
  exact ⟨hseparator, by decide, (hdeleting _).2 (by decide)⟩

/-- Zeros between the groups cannot be told from the zeros of a number by deleting them. -/
example :
    let c : Config := { format := ⟨'.', some '0', 4⟩, acceptable := by decide }
    (c.format.format (.ofInt 1234)).toList = "10234".toList ∧
      (c.format.format (.ofInt 100)).toList.filter (· ≠ '0') = ['1'] := by
  decide

end Config

end LineCalc
