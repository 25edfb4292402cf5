import LineCalc.Config.Basic
import LineCalc.NumberFormat
import Mathlib.Data.List.TakeWhile

/-!
# Numbers that are read as they are written

The digits that a number is written with are read as that number, with as many places as it has:
nothing is rounded away, because the digits fit, and no character is taken for something else.

* **`Literal`**: the digits that a number is written with.
* **`Numeral.readDigits_figures`**: what reading a run of digits does.
* **`NumberFormat.read_chars`**: a literal is read as the number that its digits make.
* **`NumberFormat.read_unsigned`**: what is written of a number is read as it, without its sign.
-/

namespace LineCalc

open Text

/-! ## The ten digits -/

/-- What the ten digits of numerals have in common. -/
structure Figure (c : Char) : Prop where
  digit : isDigit c = true
  alphanumeric : isAlphanumeric c = true
  blank : isBlank c = false
  exponent : Numeral.startsExponent c = false
  special : c ∉ ['-', '+', '.', '#', ':', '=', '(', ')', ';']
  value : asciiDigit? c = some (c.toNat - '0'.toNat)

instance (c : Char) : Decidable (Figure c) :=
  decidable_of_iff (isDigit c = true ∧ isAlphanumeric c = true ∧ isBlank c = false ∧
      Numeral.startsExponent c = false ∧ c ∉ ['-', '+', '.', '#', ':', '=', '(', ')', ';'] ∧
      asciiDigit? c = some (c.toNat - '0'.toNat))
    ⟨fun ⟨digit, alphanumeric, blank, exponent, special, value⟩ =>
      ⟨digit, alphanumeric, blank, exponent, special, value⟩,
      fun h => ⟨h.digit, h.alphanumeric, h.blank, h.exponent, h.special, h.value⟩⟩

theorem figure_of_isDigit {c : Char} (h : c.isDigit = true) : Figure c := by
  have hfigures : ∀ n < 58, 48 ≤ n → Figure (Char.ofNat n) := by decide +kernel
  obtain ⟨hlow, hhigh⟩ : 48 ≤ c.toNat ∧ c.toNat ≤ 57 := Char.isDigit_iff_toNat.1 h
  have hc := hfigures c.toNat (by omega) hlow
  rwa [Char.ofNat_toNat] at hc

namespace Decimal

variable {d : Decimal} {c : Char}

theorem isDigit_of_mem_natDigits {n : Nat} (h : c ∈ natDigits n) : c.isDigit = true :=
  Nat.isDigit_of_mem_toDigits (by decide) (by decide) h

theorem isDigit_of_mem_integerDigits (h : c ∈ d.integerDigits) : c.isDigit = true :=
  isDigit_of_mem_natDigits h

theorem isDigit_of_mem_paddedDigits {width n : Nat} (h : c ∈ paddedDigits width n) :
    c.isDigit = true := by
  rcases List.mem_append.1 h with hzero | hdigit
  · rw [List.eq_of_mem_replicate hzero]
    decide
  · exact isDigit_of_mem_natDigits hdigit

theorem figure_of_mem_paddedDigits {width n : Nat} (h : c ∈ paddedDigits width n) : Figure c :=
  figure_of_isDigit (isDigit_of_mem_paddedDigits h)

theorem isDigit_of_mem_fractionDigits (h : c ∈ d.fractionDigits) : c.isDigit = true := by
  unfold fractionDigits at h
  split at h
  · cases h
  · exact isDigit_of_mem_paddedDigits h

theorem ofDigitChars_integerDigits (d : Decimal) :
    Nat.ofDigitChars 10 d.integerDigits 0 = d.mantissa.natAbs / pow10 d.scale :=
  Nat.ofDigitChars_ten_toDigits

theorem length_fractionDigits (d : Decimal) : d.fractionDigits.length = d.scale := by
  unfold fractionDigits
  split
  · rename_i hzero
    exact hzero.symm
  · rename_i hscale
    have hlt : d.mantissa.natAbs % pow10 d.scale < 10 ^ d.scale := Nat.mod_lt _ (pow10_pos d.scale)
    have hle : (natDigits (d.mantissa.natAbs % pow10 d.scale)).length ≤ d.scale :=
      (Nat.length_toDigits_le_iff (by decide) (Nat.pos_of_ne_zero hscale)).2 hlt
    rw [paddedDigits, List.length_append, List.length_replicate]
    omega

theorem ofDigitChars_fractionDigits (d : Decimal) :
    Nat.ofDigitChars 10 d.fractionDigits 0 = d.mantissa.natAbs % pow10 d.scale := by
  unfold fractionDigits
  split
  · rename_i hzero
    rw [hzero, pow10_zero, Nat.mod_one]
    rfl
  · rw [paddedDigits, Nat.ofDigitChars_append, Nat.ofDigitChars_replicate_zero, Nat.mul_zero,
      natDigits, Nat.ofDigitChars_ten_toDigits]

end Decimal

/-! ## Reading digits -/

namespace Numeral

theorem le_ofDigitChars (digits : List Char) (n : Nat) : n ≤ Nat.ofDigitChars 10 digits n := by
  rw [Nat.ofDigitChars_eq_ofDigitChars_zero]
  have hle : 1 * n ≤ 10 ^ digits.length * n :=
    Nat.mul_le_mul_right n (Nat.one_le_pow _ _ (by decide))
  omega

/-- A run of digits for which there is room is taken in as a whole. -/
theorem readDigits_figures {digits : List Char} (hdigits : ∀ c ∈ digits, Figure c) (rest : List Char)
    (ds : Digits) (started : Bool) {point : Bool}
    (hmantissa : Nat.ofDigitChars 10 digits ds.mantissa < mantissaBound)
    (hplaces : point = true → ds.places + digits.length ≤ maxScale) :
    ∃ es : Digits, es.mantissa = Nat.ofDigitChars 10 digits ds.mantissa ∧
      es.places = (if point then ds.places + digits.length else ds.places) ∧
      readDigits ds started point (digits ++ rest) =
        readDigits es (started || !digits.isEmpty) point rest := by
  induction digits generalizing ds started with
  | nil =>
    refine ⟨ds, rfl, by simp, ?_⟩
    rw [List.nil_append, List.isEmpty_nil, Bool.not_true, Bool.or_false]
  | cons c digits ih =>
    obtain ⟨hc, hothers⟩ := List.forall_mem_cons.1 hdigits
    simp only [List.length_cons] at hplaces
    rw [Nat.ofDigitChars_cons, Nat.mul_comm 10] at hmantissa
    have hfits : ds.mantissa * 10 + (c.toNat - '0'.toNat) < mantissaBound :=
      Nat.lt_of_le_of_lt (le_ofDigitChars digits _) hmantissa
    have hroom : ¬(point = true ∧ maxScale ≤ ds.places) := by
      rintro ⟨hpoint, hfull⟩
      have hmore := hplaces hpoint
      omega
    have hnext : (if point then ds.places + 1 else ds.places) ≤ maxScale := by
      have hle := ds.places_le
      split
      · rename_i hpoint
        have hmore := hplaces hpoint
        omega
      · exact hle
    have hothersPlaces : point = true →
        (if point then ds.places + 1 else ds.places) + digits.length ≤ maxScale := by
      intro hpoint
      have hmore := hplaces hpoint
      rw [if_pos hpoint]
      omega
    -- the state after the first digit, from which the others are read
    obtain ⟨es, hes, hesPlaces, hread⟩ := ih hothers
      ⟨ds.mantissa * 10 + (c.toNat - '0'.toNat), _, hfits, hnext⟩ true hmantissa hothersPlaces
    refine ⟨es, ?_, ?_, ?_⟩
    · rw [hes, Nat.ofDigitChars_cons, Nat.mul_comm 10]
    · simp only [hesPlaces, List.length_cons]
      cases point
      · rfl
      · simp only [if_true]
        omega
    · rw [List.cons_append, readDigits, dif_neg hroom]
      simp only [hc.value, hfits, dite_true]
      rw [hread, Bool.true_or, List.isEmpty_cons, Bool.not_false, Bool.or_true]

end Numeral

/-! ## Reading what is written -/

/-- The digits that a number is written with, before and after the separator. There is at least one. -/
structure Literal where
  whole : List Char
  fraction : List Char
  digits : ∀ c ∈ whole ++ fraction, c.isDigit = true
  ne_nil : whole ++ fraction ≠ []

namespace Literal

/-- The characters of a literal. Without a fraction there is no separator. -/
def chars (l : Literal) (separator : Char) : List Char :=
  l.whole ++ if l.fraction = [] then [] else separator :: l.fraction

/-- All of the digits as one integer. -/
def mantissa (l : Literal) : Nat :=
  Nat.ofDigitChars 10 (l.whole ++ l.fraction) 0

/-- The digits that a number is shown with. -/
def ofDecimal (d : Decimal) : Literal where
  whole := d.integerDigits
  fraction := d.fractionDigits
  digits := by
    intro c hc
    rcases List.mem_append.1 hc with hinteger | hfraction
    · exact Decimal.isDigit_of_mem_integerDigits hinteger
    · exact Decimal.isDigit_of_mem_fractionDigits hfraction
  ne_nil := List.append_ne_nil_of_left_ne_nil Nat.toDigits_ne_nil _

variable {l : Literal} {separator : Char}

theorem figure_of_mem_whole (l : Literal) : ∀ c ∈ l.whole, Figure c :=
  fun c hc => figure_of_isDigit (l.digits c (List.mem_append_left _ hc))

theorem figure_of_mem_fraction (l : Literal) : ∀ c ∈ l.fraction, Figure c :=
  fun c hc => figure_of_isDigit (l.digits c (List.mem_append_right _ hc))

/-- The characters of a literal are digits, but for the separator. -/
theorem figure_or_eq_of_mem_chars {c : Char} (h : c ∈ l.chars separator) :
    Figure c ∨ c = separator := by
  rcases List.mem_append.1 h with hwhole | hfraction
  · exact .inl (l.figure_of_mem_whole c hwhole)
  split at hfraction
  · cases hfraction
  rcases List.mem_cons.1 hfraction with hseparator | hdigit
  · exact .inr hseparator
  · exact .inl (l.figure_of_mem_fraction c hdigit)

theorem exists_chars_eq_cons (l : Literal) (separator : Char) :
    ∃ c rest, l.chars separator = c :: rest ∧ (Figure c ∨ c = separator) := by
  have hne : l.chars separator ≠ [] := by
    intro hnil
    have hdigits := l.ne_nil
    unfold chars at hnil
    split at hnil <;> simp_all
  obtain ⟨c, rest, hcons⟩ := List.exists_cons_of_ne_nil hne
  exact ⟨c, rest, hcons, figure_or_eq_of_mem_chars (hcons ▸ List.mem_cons_self ..)⟩

theorem mantissa_eq (l : Literal) :
    l.mantissa = Nat.ofDigitChars 10 l.fraction (Nat.ofDigitChars 10 l.whole 0) :=
  Nat.ofDigitChars_append ..

theorem mantissa_ofDecimal (d : Decimal) : (ofDecimal d).mantissa = d.mantissa.natAbs := by
  rw [mantissa_eq, Nat.ofDigitChars_eq_ofDigitChars_zero, ofDecimal,
    Decimal.ofDigitChars_integerDigits, Decimal.ofDigitChars_fractionDigits,
    Decimal.length_fractionDigits]
  exact Nat.div_add_mod _ _

/-- The digits of a literal with a point between them are taken in as they are. -/
theorem readDigits_chars (l : Literal) (hmantissa : l.mantissa < mantissaBound)
    (hplaces : l.fraction.length ≤ maxScale) (started : Bool) :
    ∃ ds : Numeral.Digits, ds.mantissa = l.mantissa ∧ ds.places = l.fraction.length ∧
      Numeral.readDigits .empty started false (l.chars '.') = .ok ds := by
  rw [mantissa_eq] at hmantissa ⊢
  have hstart : Nat.ofDigitChars 10 l.whole 0 < mantissaBound :=
    Nat.lt_of_le_of_lt (Numeral.le_ofDigitChars _ _) hmantissa
  obtain ⟨ds, hds, hdsPlaces, hwhole⟩ := Numeral.readDigits_figures l.figure_of_mem_whole
    (if l.fraction = [] then [] else '.' :: l.fraction) .empty started hstart
    (fun hpoint : false = true => by cases hpoint)
  have hnone : ds.places = 0 := hdsPlaces
  have hbefore : ds.mantissa = Nat.ofDigitChars 10 l.whole 0 := hds
  rw [chars, hwhole]
  split
  · -- without a fraction there are digits before the point
    rename_i hfraction
    have hne : l.whole ≠ [] := by
      intro hnil
      exact l.ne_nil (by rw [hnil, hfraction, List.append_nil])
    have hstarted : (started || !l.whole.isEmpty) = true := by simp [hne]
    refine ⟨ds, ?_, ?_, ?_⟩
    · rw [hbefore, hfraction]
      rfl
    · rw [hnone, hfraction]
      rfl
    · rw [hstarted]
      rfl
  · -- the point is passed over, and the fraction makes up the whole mantissa
    rename_i hfraction
    have hpoint : ∀ started, Numeral.readDigits ds started false ('.' :: l.fraction) =
        Numeral.readDigits ds started true (l.fraction ++ []) := by
      intro started
      rw [List.append_nil, Numeral.readDigits]
      rfl
    rw [← hbefore] at hmantissa ⊢
    obtain ⟨es, hes, hesPlaces, hread⟩ := Numeral.readDigits_figures l.figure_of_mem_fraction [] ds
      (started || !l.whole.isEmpty) hmantissa
      (fun _ : true = true => by rwa [hnone, Nat.zero_add])
    refine ⟨es, hes, ?_, ?_⟩
    · rw [hesPlaces, if_pos rfl, hnone, Nat.zero_add]
    · have hstarted : (started || !l.whole.isEmpty || !l.fraction.isEmpty) = true := by
        simp [hfraction]
      rw [hpoint, hread, hstarted]
      rfl

end Literal

namespace NumberFormat

/-- The characters of a number without its sign and without grouping. -/
def unsigned (separator : Char) (d : Decimal) : List Char :=
  d.integerDigits ++ if d.scale = 0 then [] else separator :: d.fractionDigits

theorem unsigned_eq_chars (separator : Char) (d : Decimal) :
    unsigned separator d = (Literal.ofDecimal d).chars separator := by
  have hscale : (Literal.ofDecimal d).fraction = [] ↔ d.scale = 0 := by
    rw [← List.length_eq_zero_iff, Literal.ofDecimal, Decimal.length_fractionDigits]
  simp only [unsigned, Literal.chars, hscale]
  rfl

theorem write_eq (f : NumberFormat) (hgrouping : f.groupingSeparator = none) (d : Decimal) :
    f.write d = (if (f.round d).isNegative then ['-'] else []) ++
      unsigned f.decimalSeparator (f.round d) := by
  rw [write, unsigned, hgrouping, List.append_assoc]

theorem trim_eq_self {cs : List Char} (h : ∀ c ∈ cs, isBlank c = false) : trim cs = cs := by
  have hstart : ∀ {cs : List Char}, (∀ c ∈ cs, isBlank c = false) → trimStart cs = cs := by
    intro cs h
    cases cs with
    | nil => rfl
    | cons c rest => simp [trimStart, h c]
  have hreverse : ∀ c ∈ cs.reverse, isBlank c = false := fun c hc => h c (List.mem_reverse.1 hc)
  rw [trim, hstart h, hstart hreverse, List.reverse_reverse]

/-- A separator is neither a digit nor white space, and it structures no line. -/
theorem ne_of_isSeparator {separator : Char} (h : isSeparator separator = true) :
    isBlank separator = false ∧ isDigit separator = false ∧ (∀ c, Figure c → c ≠ separator) ∧
      separator ∉ structural := by
  simp only [isSeparator, Bool.and_eq_true, Bool.not_eq_true', isAlphanumeric, isNumeric,
    Bool.or_eq_false_iff] at h
  obtain ⟨⟨⟨-, ⟨⟨hdigit, -⟩, -⟩, -⟩, hblank⟩, hstructural⟩ := h
  refine ⟨hblank, hdigit, ?_, by simpa using hstructural⟩
  rintro c hc rfl
  rw [hc.digit] at hdigit
  cases hdigit

variable {f : NumberFormat}

/-- The separator becomes a point, with a zero before it if it stands first. -/
theorem toNumeral_chars (hseparator : isSeparator f.decimalSeparator = true) (l : Literal) :
    f.toNumeral (l.chars f.decimalSeparator) =
      (if l.whole = [] then ['0'] else []) ++ l.chars '.' := by
  obtain ⟨hblank, -, hne, -⟩ := ne_of_isSeparator hseparator
  have htrim : trim (l.chars f.decimalSeparator) = l.chars f.decimalSeparator := by
    refine trim_eq_self fun c hc => ?_
    rcases Literal.figure_or_eq_of_mem_chars hc with hc | rfl
    · exact hc.blank
    · exact hblank
  have hdigits : ∀ digits : List Char, (∀ c ∈ digits, Figure c) →
      digits.map (fun c => if c = f.decimalSeparator then '.' else c) = digits := by
    intro digits hdigits
    rw [List.map_congr_left fun c hc => if_neg (hne c (hdigits c hc)), List.map_id']
  have hpoint : (l.chars f.decimalSeparator).map
      (fun c => if c = f.decimalSeparator then '.' else c) = l.chars '.' := by
    unfold Literal.chars
    rw [List.map_append, hdigits _ l.figure_of_mem_whole]
    split
    · rfl
    · rw [List.map_cons, if_pos rfl, hdigits _ l.figure_of_mem_fraction]
  rw [toNumeral, htrim, hpoint]
  cases hwhole : l.whole with
  | nil =>
    have hfraction : l.fraction ≠ [] := by
      intro hnil
      exact l.ne_nil (by rw [hwhole, hnil, List.append_nil])
    rw [Literal.chars, hwhole, if_neg hfraction]
    rfl
  | cons c rest =>
    have hc : Figure c := l.figure_of_mem_whole c (by simp [hwhole])
    rw [Literal.chars, hwhole, List.cons_append, if_neg (List.cons_ne_nil c _)]
    split
    · rename_i heq
      cases heq
      exact absurd (by decide) hc.special
    · rfl

/-- A zero before the digits changes nothing. -/
theorem readDigits_zero (cs : List Char) :
    Numeral.readDigits .empty false false ('0' :: cs) = Numeral.readDigits .empty true false cs := by
  rw [Numeral.readDigits]
  rfl

theorem readPlain_chars (l : Literal) (hmantissa : l.mantissa < mantissaBound)
    (hplaces : l.fraction.length ≤ maxScale) :
    Numeral.readPlain ((if l.whole = [] then ['0'] else []) ++ l.chars '.') =
      .ok (Decimal.ofScaled l.mantissa l.fraction.length (by simpa using hmantissa) hplaces) := by
  obtain ⟨ds, hds, hdsPlaces, hread⟩ :=
    l.readDigits_chars hmantissa hplaces (decide (l.whole = []))
  have hvalue : ds.toDecimal false =
      Decimal.ofScaled l.mantissa l.fraction.length (by simpa using hmantissa) hplaces :=
    Decimal.ext_parts (congrArg Nat.cast hds) hdsPlaces
  split
  · rename_i hwhole
    rw [decide_eq_true hwhole] at hread
    rw [List.singleton_append, Numeral.readPlain, if_neg (by decide), if_neg (by decide),
      readDigits_zero, hread]
    exact congrArg Except.ok hvalue
  · rename_i hwhole
    rw [decide_eq_false hwhole] at hread
    obtain ⟨c, rest, hcons⟩ := List.exists_cons_of_ne_nil hwhole
    have hspecial := (l.figure_of_mem_whole c (by simp [hcons])).special
    simp only [List.mem_cons, not_or] at hspecial
    rw [Literal.chars, hcons, List.cons_append] at hread
    rw [List.nil_append, Literal.chars, hcons, List.cons_append, Numeral.readPlain,
      if_neg hspecial.1, if_neg hspecial.2.1, hread]
    exact congrArg Except.ok hvalue

/-- A literal is read as the number that its digits make, with a place for each of its fraction. -/
theorem read_chars (hseparator : isSeparator f.decimalSeparator = true) (l : Literal)
    (hmantissa : l.mantissa < mantissaBound) (hplaces : l.fraction.length ≤ maxScale) :
    f.read (String.ofList (l.chars f.decimalSeparator)) =
      .ok (Decimal.ofScaled l.mantissa l.fraction.length (by simpa using hmantissa) hplaces) := by
  have hexponent : ∀ c ∈ (if l.whole = [] then ['0'] else []) ++ l.chars '.',
      (!Numeral.startsExponent c) = true := by
    intro c hc
    rcases List.mem_append.1 hc with hzero | hc
    · split at hzero
      · rw [List.mem_singleton.1 hzero]
        rfl
      · cases hzero
    · rcases Literal.figure_or_eq_of_mem_chars hc with hc | rfl
      · rw [hc.exponent]
        rfl
      · rfl
  rw [read, String.toList_ofList, toNumeral_chars hseparator, Numeral.read,
    List.takeWhile_eq_self_iff.2 hexponent, List.dropWhile_eq_nil_iff.2 hexponent,
    readPlain_chars l hmantissa hplaces]
  rfl

theorem ofScaled_natAbs (d : Decimal) (h : (d.mantissa.natAbs : Int).natAbs < mantissaBound) :
    Decimal.ofScaled d.mantissa.natAbs d.scale h d.scale_le = d.abs := by
  refine Decimal.ext_parts ?_ ?_
  · rw [Decimal.abs]
    split
    · rename_i hnegative
      have hlt : d.mantissa < 0 := of_decide_eq_true hnegative
      have hneg : d.neg.mantissa = -d.mantissa := rfl
      simp only [Decimal.ofScaled]
      omega
    · rename_i hnegative
      have hge : ¬ d.mantissa < 0 := fun hlt => hnegative (decide_eq_true hlt)
      simp only [Decimal.ofScaled]
      omega
  · rw [Decimal.abs]
    split <;> rfl

/-- The characters of a number are read as the number without its sign. -/
theorem read_unsigned (hseparator : isSeparator f.decimalSeparator = true) (d : Decimal) :
    f.read (String.ofList (unsigned f.decimalSeparator d)) = .ok d.abs := by
  have hplaces : (Literal.ofDecimal d).fraction.length = d.scale := d.length_fractionDigits
  have hread := read_chars hseparator (.ofDecimal d)
    (by rw [Literal.mantissa_ofDecimal]; exact d.mantissa_lt) (by rw [hplaces]; exact d.scale_le)
  simp only [Literal.mantissa_ofDecimal, hplaces, ofScaled_natAbs] at hread
  rw [unsigned_eq_chars, hread]

end NumberFormat

end LineCalc
