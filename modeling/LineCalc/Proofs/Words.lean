import LineCalc.Proofs.Conversion
import Mathlib.Data.List.TakeWhile

/-!
# Free words

A word of letters and underscores is free where no name stands. What follows a word decides too: a
name of letters is read only where a word may end, and an assignment ends no word, so that even the
name of a unit is a free word before one.

* **`Lexicon.next?_eq_identifier_iff`**: when a text starts with a free word.
* **`Lexicon.next?_take`**: a free word that is no name is a free word on its own.
* **`Standard.next?_of_freeWord`**: in the standard vocabulary any word of letters and underscores that
  is no name is free where what follows cuts it off, as the end of the line and a sum do.
* **`Standard.next?_of_assignment`**: before an assignment any word is free.
-/

namespace LineCalc

open Text

/-- A text that is joined, after the first of its parts. -/
theorem toList_intercalate_cons (separator first : String) (others : List String) :
    (separator.intercalate (first :: others)).toList =
      first.toList ++ others.flatMap fun other => separator.toList ++ other.toList := by
  rw [String.toList_intercalate]
  induction others generalizing first with
  | nil => simp
  | cons other others ih =>
    rw [List.map_cons, List.map_cons, List.intercalate_cons_cons, ← List.map_cons, ih,
      List.flatMap_cons, List.append_assoc, List.append_assoc]

/-! ## The characters of words -/

namespace Text

/-- Whether no interval of one set meets an interval of the other. Both are passed through once. -/
def Intervals.apart : Intervals → Intervals → Bool
  | [], _ => true
  | (first, last) :: rest, others =>
    let later := others.dropWhile fun other => other.2 < first
    later.head?.all (fun other => last < other.1) && apart rest later

theorem Intervals.covers_dropWhile {s : Intervals} {first n : Nat} (hfirst : first ≤ n)
    (h : s.covers n = true) : covers (s.dropWhile fun other => other.2 < first) n = true := by
  induction s with
  | nil => exact h
  | cons p rest ih =>
    rw [List.dropWhile_cons]
    split
    · rename_i hbefore
      rw [decide_eq_true_eq] at hbefore
      unfold covers at h
      split at h
      · cases h
      · rw [if_neg (by omega)] at h
        exact ih h
    · exact h

theorem Intervals.not_covers_of_apart {s t : Intervals} (hapart : s.apart t = true) {n : Nat}
    (h : s.covers n = true) : t.covers n = false := by
  -- intervals that end before the first one of `s` do not hold `n`
  induction s generalizing t with
  | nil => cases h
  | cons p rest ih =>
    obtain ⟨first, last⟩ := p
    rw [Bool.eq_false_iff]
    intro ht
    simp only [apart, Bool.and_eq_true] at hapart
    obtain ⟨hhead, hrest⟩ := hapart
    unfold covers at h
    split at h
    · cases h
    · have hlater := covers_dropWhile (by omega : first ≤ n) ht
      split at h
      · generalize t.dropWhile _ = later at hhead hlater
        cases later with
        | nil => cases hlater
        | cons other more =>
          simp only [List.head?_cons, Option.all_some, decide_eq_true_eq] at hhead
          unfold covers at hlater
          rw [if_pos (by omega)] at hlater
          cases hlater
      · rw [ih hrest h] at hlater
        cases hlater

end Text

namespace Lexicon

/-- Whether a character can stand in a free word. -/
def isWordChar (c : Char) : Bool :=
  isLetter c || c == '_'

theorem isBlank_of_isWordChar {c : Char} (h : isWordChar c = true) : isBlank c = false := by
  rcases Bool.or_eq_true_iff.1 h with hletter | hunderscore
  · exact Intervals.not_covers_of_apart (by decide +kernel) hletter
  · rw [beq_iff_eq.1 hunderscore]
    decide

theorem isDigit_of_isWordChar {c : Char} (h : isWordChar c = true) : isDigit c = false := by
  rcases Bool.or_eq_true_iff.1 h with hletter | hunderscore
  · exact Intervals.not_covers_of_apart (by decide +kernel) hletter
  · rw [beq_iff_eq.1 hunderscore]
    decide

theorem not_mem_of_isWordChar {c : Char} (h : isWordChar c = true) {others : List Char}
    (hothers : ∀ other ∈ others, isWordChar other = false) : c ∉ others := by
  intro hmem
  rw [hothers c hmem] at h
  cases h

theorem wordLength?_eq_some_iff {cs : List Char} {n : Nat} :
    wordLength? cs = some n ↔ (cs.takeWhile isWordChar).length = n ∧ n ≠ 0 := by
  have hword : wordLength? cs =
      if (cs.takeWhile isWordChar).length = 0 then none
      else some (cs.takeWhile isWordChar).length := rfl
  rw [hword]
  split
  · rename_i hzero
    simp only [reduceCtorEq, false_iff]
    omega
  · rename_i hpositive
    simp only [Option.some.injEq]
    omega

/-! ## Where a free word is read -/

variable {lx : Lexicon}

theorem nameLength?_eq_none_iff {names : List (List Char)} {cs : List Char} :
    lx.nameLength? names cs = none ↔ ∀ name ∈ names, lx.admits cs name = false := by
  rw [nameLength?, Option.map_eq_none_iff, List.find?_eq_none]
  simp only [Bool.not_eq_true]

/-- A text starts with a free word if it starts with no number, and no name stands there. -/
theorem next?_eq_identifier_iff {atStart : Bool} {c : Char} {rest : List Char} {n : Nat}
    (hc : isWordChar c = true) :
    lx.next? atStart (c :: rest) = some (.identifier, n) ↔
      numberLength? lx.decimalSeparator (c :: rest) = none ∧
        (∀ name ∈ lx.names, lx.admits (c :: rest) name = false) ∧
        wordLength? (c :: rest) = some n := by
  have hdigit : isDigit c = false := isDigit_of_isWordChar hc
  have hstart : c ∉ NumberFormat.structural :=
    not_mem_of_isWordChar hc (List.all_iff_forall_prop.1 (by decide +kernel))
  have hnames : (∀ name ∈ lx.names, lx.admits (c :: rest) name = false) ↔
      lx.nameLength? lx.operators (c :: rest) = none ∧
        lx.nameLength? lx.functions (c :: rest) = none ∧
        lx.nameLength? lx.aggregators (c :: rest) = none ∧
        lx.nameLength? lx.units (c :: rest) = none := by
    simp only [nameLength?_eq_none_iff, names, List.forall_mem_append, and_assoc]
  rw [Standard.next?_of_not_digit atStart hdigit hstart, hnames]
  simp only [recognizers, List.drop_succ_cons, List.drop_zero, List.findSome?_cons,
    List.findSome?_nil]
  -- the word is read when none of the recognizers before it finds anything
  cases numberLength? lx.decimalSeparator (c :: rest) with
  | some length => simp
  | none =>
  cases lx.nameLength? lx.operators (c :: rest) with
  | some length => simp
  | none =>
  cases lx.nameLength? lx.functions (c :: rest) with
  | some length => simp
  | none =>
  cases lx.nameLength? lx.aggregators (c :: rest) with
  | some length => simp
  | none =>
  cases lx.nameLength? lx.units (c :: rest) with
  | some length => simp
  | none => cases wordLength? (c :: rest) <;> simp

theorem exists_cons_of_identifier {atStart : Bool} {cs : List Char} {n : Nat}
    (h : lx.next? atStart cs = some (.identifier, n)) :
    ∃ c rest, cs = c :: rest ∧ isWordChar c = true := by
  have hword : wordLength? cs = some n := by
    cases recognized_of_next? h with
    | structural _ hkind => rcases structureKind?_eq_some hkind with h | h | h | h <;> cases h
    | word hlength => exact hlength
  obtain ⟨hlength, hpositive⟩ := wordLength?_eq_some_iff.1 hword
  cases cs with
  | nil => exact absurd hlength.symm hpositive
  | cons c rest =>
    refine ⟨c, rest, rfl, ?_⟩
    by_contra hc
    rw [List.takeWhile_cons, if_neg hc] at hlength
    exact hpositive hlength.symm

/-- A name shorter than a word stands in a text that goes on after the word if it stands in the word. -/
theorem admits_append_of_lt {word name : List Char} (hlength : name.length < word.length)
    (rest : List Char) : lx.admits (word ++ rest) name = lx.admits word name := by
  have hle : name.length ≤ word.length := Nat.le_of_lt hlength
  have hboundary : lx.isBoundary (word.drop name.length ++ rest) =
      lx.isBoundary (word.drop name.length) := by
    cases hdrop : word.drop name.length with
    | nil =>
      rw [List.drop_eq_nil_iff] at hdrop
      omega
    | cons c more => rfl
  unfold admits
  rw [List.take_append_of_le_length hle, List.drop_append_of_le_length hle, hboundary]

theorem lower_of_admits {word name : List Char} (h : lx.admits word name = true)
    (hlength : name.length = word.length) : lower word = name := by
  simp only [admits, Bool.and_eq_true, beq_iff_eq] at h
  rw [hlength, List.take_length] at h
  exact h.1.2

/--
A free word that is no name is a free word on its own, at the start of a line or elsewhere: only a
name as long as the word could be found in what follows the word and not in the word.
-/
theorem next?_take {atStart other : Bool} {cs : List Char} {n : Nat}
    (h : lx.next? atStart cs = some (.identifier, n)) (hfree : lower (cs.take n) ∉ lx.names) :
    lx.next? other (cs.take n) = some (.identifier, (cs.take n).length) := by
  obtain ⟨c, rest, rfl, hc⟩ := exists_cons_of_identifier h
  obtain ⟨-, hnames, hword⟩ := (next?_eq_identifier_iff hc).1 h
  obtain ⟨hlength, hpositive⟩ := wordLength?_eq_some_iff.1 hword
  obtain ⟨m, rfl⟩ : ∃ m, n = m + 1 := ⟨n - 1, by omega⟩
  -- the word is all that the text has of word characters
  have htake : (c :: rest).takeWhile isWordChar = (c :: rest).take (m + 1) := by
    rw [← hlength]
    exact List.prefix_iff_eq_take.1 (List.takeWhile_prefix _)
  have hchars : ∀ d ∈ (c :: rest).take (m + 1), isWordChar d = true := by
    intro d hd
    rw [← htake] at hd
    exact List.mem_takeWhile_imp hd
  have hadmits : ∀ name ∈ lx.names, lx.admits ((c :: rest).take (m + 1)) name = false := by
    intro name hname
    rw [Bool.eq_false_iff]
    intro hfound
    rcases Nat.lt_or_eq_of_le (length_le_of_admits hfound) with hshort | hlong
    · rw [← admits_append_of_lt hshort ((c :: rest).drop (m + 1)), List.take_append_drop,
        hnames name hname] at hfound
      cases hfound
    · exact hfree (lower_of_admits hfound hlong ▸ hname)
  have hself : ((c :: rest).take (m + 1)).takeWhile isWordChar = (c :: rest).take (m + 1) :=
    List.takeWhile_eq_self_iff.2 hchars
  rw [List.take_succ_cons] at hchars hadmits hself ⊢
  refine (next?_eq_identifier_iff hc).2 ⟨?_, hadmits, wordLength?_eq_some_iff.2 ⟨?_, ?_⟩⟩
  · exact Standard.numberLength?_of_no_digit (fun d hd => isDigit_of_isWordChar (hchars d hd)) _
  · rw [hself]
  · simp

/-! ## Words in the standard vocabulary -/

/-- A word of letters and underscores that is no name. -/
structure FreeWord (lx : Lexicon) (word : List Char) : Prop where
  ne_nil : word ≠ []
  chars : ∀ c ∈ word, isWordChar c = true
  free : lower word ∉ lx.names

theorem startsWord_of_isWordChar {word : List Char} (hnil : word ≠ [])
    (hchars : ∀ c ∈ word, isWordChar c = true) : StartsWord word := by
  obtain ⟨c, rest, rfl⟩ := List.exists_cons_of_ne_nil hnil
  exact ⟨c, rest, rfl, isBlank_of_isWordChar (hchars c (List.mem_cons_self ..))⟩

theorem FreeWord.startsWord {word : List Char} (h : lx.FreeWord word) : StartsWord word :=
  startsWord_of_isWordChar h.ne_nil h.chars

end Lexicon

namespace Standard

open Lexicon

/-- The characters in names of the standard vocabulary that are not alphabetic. -/
def marks : List Char := [' ', '+', '-', '*', '/', '%', '$', '€', '£', '¥']

/-- The characters that assign the value after them to the word before them. -/
def assignments : List Char := [':', '=']

/-- What the names of the standard vocabulary have in common. -/
structure Ordinary (name : List Char) : Prop where
  special : ∀ c ∈ name, c ∉ specialLowercase
  marked : name.all isAlphabetic = true ∨ ∃ c ∈ name, c ∈ marks
  ending : name.getLast? ≠ some ' '
  phrase : ' ' ∈ name → '+' ∉ name
  unassigned : ∀ c ∈ name, c ∉ assignments

instance (name : List Char) : Decidable (Ordinary name) :=
  decidable_of_iff ((name.all fun c => !specialLowercase.contains c) = true ∧
      (name.all isAlphabetic = true ∨ (name.any fun c => marks.contains c) = true) ∧
      name.getLast? ≠ some ' ' ∧ (' ' ∈ name → '+' ∉ name) ∧
      (name.all fun c => !assignments.contains c) = true)
    ⟨fun ⟨special, marked, ending, phrase, unassigned⟩ =>
      ⟨by simpa using special, marked.imp_right (by simp), ending, phrase, by simpa using unassigned⟩,
      fun h => ⟨by simpa using h.special, h.marked.imp_right (by simp), h.ending, h.phrase,
        by simpa using h.unassigned⟩⟩

theorem ordinary_of_isUnitWord {name : List Char} (h : isUnitWord name = true) : Ordinary name := by
  rcases isUnitWord_iff.1 h with ⟨hletters, -⟩ | ⟨sign, hsign, rfl⟩
  · have hspace : ' ' ∉ name := fun hmem => absurd (hletters ' ' hmem) (by decide)
    have hassignments : ∀ c ∈ assignments, c ∈ '.' :: NumberFormat.structural :=
      List.all_iff_forall_prop.1 (by decide)
    exact {
      special := fun c hc => (plain_of_isLetter (hletters c hc)).1.special
      marked := .inl (List.all_eq_true.2 fun c hc => (plain_of_isLetter (hletters c hc)).2.1)
      ending := fun hlast => hspace (List.mem_of_getLast? hlast)
      phrase := fun hmem => absurd hmem hspace
      unassigned := fun c hc hmark =>
        (plain_of_isLetter (hletters c hc)).1.start (hassignments c hmark) }
  · have hsigns : ∀ c ∈ signs, Ordinary [c] := List.all_iff_forall_prop.1 (by decide +kernel)
    exact hsigns sign hsign

theorem ordinary_of_mem_names {name : List Char} (h : name ∈ lexicon.names) : Ordinary name := by
  have hothers : ∀ name ∈ lexicon.operators ++ lexicon.functions ++ lexicon.aggregators,
      Ordinary name := by
    decide +kernel
  rcases List.mem_append.1 h with hother | hunit
  · exact hothers name hother
  · exact ordinary_of_isUnitWord (isUnitWord_of_mem_units hunit)

/-- Whether a word is free can be told without the table of units. -/
theorem freeWord_of_not_isUnitWord {word : List Char} (hnil : word ≠ [])
    (hchars : ∀ c ∈ word, isWordChar c = true)
    (hothers : lower word ∉ lexicon.operators ++ lexicon.functions ++ lexicon.aggregators)
    (hunits : isUnitWord (lower word) = false) : lexicon.FreeWord word where
  ne_nil := hnil
  chars := hchars
  free := by
    intro hmem
    rcases List.mem_append.1 hmem with hother | hunit
    · exact hothers hother
    · rw [isUnitWord_of_mem_units hunit] at hunits
      cases hunits

theorem isBoundary_cons_of_isWordChar {c : Char} (h : isWordChar c = true) (rest : List Char) :
    lexicon.isBoundary (c :: rest) = false := by
  have hdelimiters : ∀ d ∈ lexicon.delimiters, isWordChar d = false :=
    List.all_iff_forall_prop.1 (by decide +kernel)
  have hdelimiter : lexicon.delimiters.contains c = false := by
    rw [Bool.eq_false_iff, ne_eq, List.contains_iff_mem]
    exact not_mem_of_isWordChar h hdelimiters
  simp only [isBoundary, isBlank_of_isWordChar h, hdelimiter, Bool.or_self]

/-- A name that ends in a word, or with it, does not stand where that is no boundary. -/
theorem not_admits_of_le {word name rest : List Char} (hchars : ∀ c ∈ word, isWordChar c = true)
    (hname : Ordinary name) (hlength : name.length ≤ word.length)
    (hrest : lexicon.isBoundary (word.drop name.length ++ rest) = false) :
    lexicon.admits (word ++ rest) name = false := by
  rw [Bool.eq_false_iff]
  intro hadmits
  simp only [admits, Bool.and_eq_true, Bool.or_eq_true, Bool.not_eq_true', beq_iff_eq] at hadmits
  rw [List.take_append_of_le_length hlength, List.drop_append_of_le_length hlength,
    hrest] at hadmits
  obtain ⟨⟨-, hlower⟩, hend⟩ := hadmits
  rcases hname.marked with halphabetic | ⟨mark, hmem, hmark⟩
  · rw [halphabetic] at hend
    simp at hend
  · -- a mark in the name would be a mark in the word
    have hlowers : LowersTo (word.take name.length) name := lowersTo_of_lower hlower hname.special
    have hmarks : ∀ c ∈ marks, isWordChar c = false ∧ untouched c.toNat = true :=
      List.all_iff_forall_prop.1 (by decide +kernel)
    have hword : isWordChar mark = true :=
      hchars mark (List.mem_of_mem_take (hlowers.mem_of_untouched (hmarks mark hmark).2 hmem))
    rw [(hmarks mark hmark).1] at hword
    cases hword

/-- A name that is shorter than a word does not stand at its start. -/
theorem not_admits_of_lt {word name : List Char} (hchars : ∀ c ∈ word, isWordChar c = true)
    (hname : Ordinary name) (hlength : name.length < word.length) (rest : List Char) :
    lexicon.admits (word ++ rest) name = false := by
  refine not_admits_of_le hchars hname (Nat.le_of_lt hlength) ?_
  -- a character of the word follows the name
  rw [List.drop_eq_getElem_cons hlength, List.cons_append]
  exact isBoundary_cons_of_isWordChar (hchars _ (List.getElem_mem hlength)) _

/-- What is longer than a word and stands at its start goes on with what follows the word. -/
theorem exists_append_of_admits {word rest name : List Char} (hname : Ordinary name)
    (hlength : word.length < name.length) (h : lexicon.admits (word ++ rest) name = true) :
    ∃ n before after, name = before ++ after ∧ LowersTo word before ∧
      LowersTo (rest.take (n + 1)) after := by
  obtain ⟨n, hn⟩ : ∃ n, name.length = word.length + (n + 1) :=
    ⟨name.length - word.length - 1, by omega⟩
  simp only [admits, Bool.and_eq_true, beq_iff_eq] at h
  have hlowers := lowersTo_of_lower h.1.2 hname.special
  rw [hn, List.take_length_add_append] at hlowers
  have hhead := hlowers.take word.length
  have htail := hlowers.drop word.length
  rw [List.take_left] at hhead
  rw [List.drop_left] at htail
  exact ⟨n, name.take word.length, name.drop word.length, (List.take_append_drop _ _).symm, hhead,
    htail⟩

/-- What may follow a free word so that no longer name stands there: nothing, or ` +`. -/
def Follows (rest : List Char) : Prop :=
  rest = [] ∨ ∃ more, rest = ' ' :: '+' :: more

/-- A name that is longer than a word does not stand where the line ends after it, or ` +` comes. -/
theorem not_admits_of_gt {word rest name : List Char} (hrest : Follows rest) (hname : Ordinary name)
    (hlength : word.length < name.length) : lexicon.admits (word ++ rest) name = false := by
  rw [Bool.eq_false_iff]
  intro hadmits
  rcases hrest with rfl | ⟨more, rfl⟩
  · have hle := length_le_of_admits hadmits
    rw [List.append_nil] at hle
    omega
  · obtain ⟨n, before, after, rfl, -, htail⟩ := exists_append_of_admits hname hlength hadmits
    -- after the word the name goes on with a space, which is its end or has a sign after it
    rw [List.take_succ_cons] at htail
    obtain ⟨space, last, rfl, hspace, hlast⟩ : ∃ y ys, after = y :: ys ∧ lowerChar ' ' = [y] ∧
        LowersTo (('+' :: more).take n) ys := by
      cases htail with
      | cons hhead hrest => exact ⟨_, _, rfl, hhead.2, hrest⟩
    obtain rfl : ' ' = space := List.singleton_inj.1 hspace
    cases n with
    | zero =>
      cases hlast
      exact hname.ending (by rw [List.getLast?_append_cons, List.getLast?_singleton])
    | succ n =>
      rw [List.take_succ_cons] at hlast
      obtain ⟨sign, others, rfl, hsign⟩ : ∃ y ys, last = y :: ys ∧ lowerChar '+' = [y] := by
        cases hlast with
        | cons hhead hrest => exact ⟨_, _, rfl, hhead.2⟩
      obtain rfl : '+' = sign := List.singleton_inj.1 hsign
      exact hname.phrase (by simp) (by simp)

/-- A word is free where no name stands and no character of a word follows. -/
theorem next?_of_not_admits {word rest : List Char} (hnil : word ≠ [])
    (hchars : ∀ c ∈ word, isWordChar c = true) (hrest : ∀ c ∈ rest.head?, isWordChar c = false)
    (hadmits : ∀ name ∈ lexicon.names, lexicon.admits (word ++ rest) name = false)
    (atStart : Bool) : lexicon.next? atStart (word ++ rest) = some (.identifier, word.length) := by
  have hlength : ((word ++ rest).takeWhile isWordChar).length = word.length := by
    cases rest with
    | nil => rw [List.append_nil, List.takeWhile_eq_self_iff.2 hchars]
    | cons c more =>
      rw [takeWhile_append_cons (hrest c rfl), List.takeWhile_eq_self_iff.2 hchars]
  obtain ⟨c, more, rfl⟩ := List.exists_cons_of_ne_nil hnil
  have hc : isWordChar c = true := hchars c (List.mem_cons_self ..)
  have hpoint : c ≠ lexicon.decimalSeparator := by
    rw [decimalSeparator_lexicon]
    rintro rfl
    revert hc
    decide +kernel
  rw [List.cons_append] at hadmits hlength ⊢
  exact (next?_eq_identifier_iff hc).2 ⟨numberLength?_cons_of_ne _ (isDigit_of_isWordChar hc) hpoint,
    hadmits, wordLength?_eq_some_iff.2 ⟨hlength, by simp⟩⟩

/-- What follows a word so that it is read alone: a word may end there, and no name goes on into it. -/
structure Cuts (word rest : List Char) : Prop where
  boundary : lexicon.isBoundary rest = true
  longer : ∀ name ∈ lexicon.names, word.length < name.length →
    lexicon.admits (word ++ rest) name = false

theorem Follows.cuts {rest : List Char} (h : Follows rest) (word : List Char) : Cuts word rest where
  boundary := by
    rcases h with rfl | ⟨more, rfl⟩
    · rfl
    · have hblank : isBlank ' ' = true := by decide
      simp [isBoundary, hblank]
  longer := fun _ hname => not_admits_of_gt h (ordinary_of_mem_names hname)

/-- A free word is read as one where what follows cuts it off. -/
theorem next?_of_freeWord {word rest : List Char} (h : lexicon.FreeWord word) (hrest : Cuts word rest)
    (atStart : Bool) : lexicon.next? atStart (word ++ rest) = some (.identifier, word.length) := by
  refine next?_of_not_admits h.ne_nil h.chars ?_ ?_ atStart
  · intro c hc
    obtain ⟨more, rfl⟩ := List.head?_eq_some_iff.1 hc
    rw [Bool.eq_false_iff]
    intro hword
    have hboundary := hrest.boundary
    rw [isBoundary_cons_of_isWordChar hword] at hboundary
    cases hboundary
  · intro name hname
    have hordinary := ordinary_of_mem_names hname
    rcases Nat.lt_trichotomy name.length word.length with hlt | heq | hgt
    · exact not_admits_of_lt h.chars hordinary hlt rest
    · rw [Bool.eq_false_iff]
      intro hfound
      -- the name would be the word
      simp only [admits, Bool.and_eq_true, beq_iff_eq] at hfound
      rw [heq, List.take_left] at hfound
      exact h.free (hfound.1.2 ▸ hname)
    · exact hrest.longer name hname hgt

/--
Before an assignment every word is free, even one that is a name: an assignment ends no word, and no
name has one in it.
-/
theorem next?_of_assignment {word : List Char} {mark : Char} (hmark : mark ∈ assignments)
    (hnil : word ≠ []) (hchars : ∀ c ∈ word, isWordChar c = true) (rest : List Char)
    (atStart : Bool) :
    lexicon.next? atStart (word ++ mark :: rest) = some (.identifier, word.length) := by
  obtain ⟨hword, hboundary, hlower⟩ : isWordChar mark = false ∧
      lexicon.isBoundary (mark :: rest) = false ∧ lowerChar mark = [mark] := by
    have hmarks : ∀ c ∈ assignments, isWordChar c = false ∧
        (isBlank c || lexicon.delimiters.contains c) = false ∧ lowerChar c = [c] :=
      List.all_iff_forall_prop.1 (by decide +kernel)
    exact hmarks mark hmark
  refine next?_of_not_admits hnil hchars ?_ ?_ atStart
  · rintro _ ⟨⟩
    exact hword
  · intro name hname
    have hordinary := ordinary_of_mem_names hname
    rcases Nat.lt_trichotomy name.length word.length with hlt | heq | hgt
    · exact not_admits_of_lt hchars hordinary hlt _
    · refine not_admits_of_le hchars hordinary (Nat.le_of_eq heq) ?_
      rw [heq, List.drop_length]
      exact hboundary
    · rw [Bool.eq_false_iff]
      intro hadmits
      obtain ⟨n, before, after, rfl, -, htail⟩ := exists_append_of_admits hordinary hgt hadmits
      rw [List.take_succ_cons] at htail
      obtain ⟨y, ys, rfl, hy⟩ : ∃ y ys, after = y :: ys ∧ lowerChar mark = [y] := by
        cases htail with
        | cons hhead hrest => exact ⟨_, _, rfl, hhead.2⟩
      obtain rfl : mark = y := List.singleton_inj.1 (hlower.symm.trans hy)
      exact hordinary.unassigned mark (by simp) hmark

end Standard

end LineCalc
