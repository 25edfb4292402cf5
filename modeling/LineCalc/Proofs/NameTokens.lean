import LineCalc.Proofs.LongestName

/-!
# Names in a line

In the standard vocabulary, a name of letters or of a single character is read as a token of its
class wherever what follows cuts it off: no other name stands at its start, no longer name goes on
into what follows, and nothing that is recognized before the names starts like one.

* **`Spelled`**: how the names are spelled that are no units.
* **`not_admits_append`**: no other name stands there.
* **`next?_of_name`**: the name is read as one of its class, in whatever case it is written.
-/

namespace LineCalc

open Text Lexicon

/-! ## Classes of names -/

section Classes

-- for any lexicon, so that the tables of the standard one are left alone
variable {lx : Lexicon} {name : List Char}

theorem mem_names_of_mem_ofLexicon {C : NameClass} (h : name ∈ C.ofLexicon lx) :
    name ∈ lx.names := by
  simp only [names, List.mem_append]
  cases C with
  | operator => exact .inl (.inl (.inl h))
  | function => exact .inl (.inl (.inr h))
  | aggregator => exact .inl (.inr h)
  | unit => exact .inr h

theorem ofLexicon_function : NameClass.function.ofLexicon lx = lx.functions := rfl

theorem ofLexicon_aggregator : NameClass.aggregator.ofLexicon lx = lx.aggregators := rfl

theorem ofLexicon_operator : NameClass.operator.ofLexicon lx = lx.operators := rfl

theorem ofLexicon_unit : NameClass.unit.ofLexicon lx = lx.units := rfl

/-- What is tried before the units: operators, functions and aggregators. -/
theorem mem_others_of_lt {earlier : NameClass} (hlt : earlier.rank < NameClass.unit.rank)
    (h : name ∈ earlier.ofLexicon lx) : name ∈ lx.operators ++ lx.functions ++ lx.aggregators := by
  simp only [List.mem_append]
  cases earlier with
  | operator => exact .inl (.inl h)
  | function => exact .inl (.inr h)
  | aggregator => exact .inr h
  | unit => exact absurd hlt (Nat.lt_irrefl _)

end Classes

namespace Standard

variable {C : NameClass} {text name other rest : List Char}

/-! ## The names of the vocabulary -/

theorem nil_not_mem_names : [] ∉ lexicon.names := by
  intro h
  rcases List.mem_append.1 h with hother | hunit
  · exact not_nil_mem_others hother
  · exact ne_nil_of_isUnitWord (isUnitWord_of_mem_units hunit) rfl

/-- A text whose lowercase is a name becomes the name character by character. -/
theorem lowersTo_of_mem_names (h : lower text ∈ lexicon.names) : LowersTo text (lower text) :=
  lowersTo_of_lower rfl (ordinary_of_mem_names h).special

/-- How the names of operators, functions and aggregators are spelled: signs stand alone. -/
structure Spelled (name : List Char) : Prop where
  head : name.head?.all (fun c => isLetter c || symbols.contains c) = true
  long : 1 < name.length → name.head?.all isLetter = true
  /-- After a space the name goes on with a letter. -/
  spaced : ' ' ∈ name → (name.dropWhile (· != ' ')).tail.head?.any isLetter = true
  last : name.getLast?.all (fun c => !isBlank c) = true

instance (name : List Char) : Decidable (Spelled name) :=
  decidable_of_iff (name.head?.all (fun c => isLetter c || symbols.contains c) = true ∧
      (1 < name.length → name.head?.all isLetter = true) ∧
      (' ' ∈ name → (name.dropWhile (· != ' ')).tail.head?.any isLetter = true) ∧
      name.getLast?.all (fun c => !isBlank c) = true)
    ⟨fun ⟨head, long, spaced, last⟩ => ⟨head, long, spaced, last⟩,
      fun h => ⟨h.head, h.long, h.spaced, h.last⟩⟩

theorem spelled_of_mem_others :
    ∀ name ∈ lexicon.operators ++ lexicon.functions ++ lexicon.aggregators, Spelled name := by
  decide +kernel

/-- No name starts like a literal, a comment or the structure of a line. -/
theorem plain_of_mem_names (h : name ∈ lexicon.names) : ∀ c ∈ name.head?, Plain c := by
  intro c hc
  rcases List.mem_append.1 h with hother | hunit
  · have hhead := (Option.all_eq_true _ _).1 (spelled_of_mem_others name hother).head c hc
    rcases Bool.or_eq_true_iff.1 hhead with hletter | hsign
    · exact (plain_of_isLetter hletter).1
    · exact (plain_of_mem_symbols c (List.contains_iff_mem.1 hsign)).1
  · exact plain_of_isUnitWord (isUnitWord_of_mem_units hunit) c (List.mem_of_mem_head? hc)

/-- Names of more than one character start with a letter. -/
theorem isLetter_head_of_mem_names (h : name ∈ lexicon.names) (hlong : 1 < name.length) :
    ∀ c ∈ name.head?, isLetter c = true := by
  rcases List.mem_append.1 h with hother | hunit
  · exact (Option.all_eq_true _ _).1 ((spelled_of_mem_others name hother).long hlong)
  · rcases isUnitWord_iff.1 (isUnitWord_of_mem_units hunit) with ⟨hletters, -⟩ | ⟨sign, -, rfl⟩
    · exact fun c hc => hletters c (List.mem_of_mem_head? hc)
    · exact absurd hlong (by simp)

/-- Names of several words go on with a letter after the first one. -/
theorem exists_isLetter_of_mem_names {before after : List Char}
    (h : before ++ ' ' :: after ∈ lexicon.names) (hbefore : ' ' ∉ before) :
    ∃ c ∈ after.head?, isLetter c = true := by
  have hspace : ' ' ∈ before ++ ' ' :: after := by simp
  rcases List.mem_append.1 h with hother | hunit
  · have hdrop : (before ++ ' ' :: after).dropWhile (· != ' ') = ' ' :: after := by
      rw [List.dropWhile_append_of_pos]
      · simp
      · intro c hc
        rw [bne_iff_ne]
        rintro rfl
        exact hbefore hc
    have hletter := (spelled_of_mem_others _ hother).spaced hspace
    rw [hdrop, List.tail_cons] at hletter
    exact (Option.any_eq_true _ _).1 hletter
  · have hplain : Plain ' ' := plain_of_isUnitWord (isUnitWord_of_mem_units hunit) ' ' hspace
    exact absurd hplain.blank (by decide)

/-- No name ends with white space. -/
theorem isBlank_last_of_mem_names (h : name ∈ lexicon.names) :
    ∀ c ∈ name.getLast?, isBlank c = false := by
  intro c hc
  rcases List.mem_append.1 h with hother | hunit
  · have hlast := (Option.all_eq_true _ _).1 (spelled_of_mem_others name hother).last c hc
    rwa [Bool.not_eq_true'] at hlast
  · exact (plain_of_isUnitWord (isUnitWord_of_mem_units hunit) c (List.mem_of_getLast? hc)).blank

theorem not_startsUnnamed_of_lowersTo (h : LowersTo text name) (hname : name ∈ lexicon.names)
    (atStart : Bool) : ¬StartsUnnamed .standard atStart (text ++ rest) := by
  cases h with
  | nil => exact absurd hname nil_not_mem_names
  | @cons x y others lowered hhead htail =>
  -- the text starts no literal and no structure, because its lowercase does not
  have hplain : Plain y := plain_of_mem_names hname y rfl
  have hfixed : ∀ c ∈ '.' :: NumberFormat.structural, lowerChar c = [c] :=
    List.all_iff_forall_prop.1 (by decide +kernel)
  have hstart : x ∉ '.' :: NumberFormat.structural :=
    not_mem_of_lowerChar hfixed hhead.2 hplain.start
  have hstructural : [':', '=', '(', ')', ';'] ⊆ NumberFormat.structural := by
    simp [NumberFormat.structural]
  have hpoint : Config.standard.format.decimalSeparator = '.' := by
    have hformat : Config.standard.format = {} := format_draft
    rw [hformat]
  refine not_startsUnnamed (isDigit_of_lowerChar hhead.2 hplain.digit) ?_ ?_ ?_
  · rintro - rfl
    exact hstart (by decide)
  · intro hmem
    exact hstart (List.mem_cons_of_mem _ (hstructural hmem))
  · rw [hpoint]
    rintro rfl
    exact absurd (List.mem_cons_self ..) hstart

/-! ## A name before what cuts it off -/

/-- No other name stands where a name stands that is cut off. -/
theorem not_admits_append (h : LowersTo text name) (hsolid : Solid name) (hrest : Cuts text rest)
    (hother : other ∈ lexicon.names) (hne : other ≠ name) :
    lexicon.admits (text ++ rest) other = false := by
  rcases Nat.lt_trichotomy other.length text.length with hlt | heq | hgt
  · rw [admits_append_of_lt hlt]
    exact not_admits h hsolid hne (fun hnil => nil_not_mem_names (hnil ▸ hother))
  · rw [Bool.eq_false_iff]
    intro hadmits
    simp only [admits, Bool.and_eq_true, beq_iff_eq] at hadmits
    rw [heq, List.take_left, h.lower_eq] at hadmits
    exact hne hadmits.1.2.symm
  · exact hrest.longer other hother hgt

theorem admits_append_of_boundary (h : LowersTo text name)
    (hboundary : lexicon.isBoundary rest = true) : lexicon.admits (text ++ rest) name = true := by
  simp [admits, ← h.length_eq, h.lower_eq, hboundary]

/-- A name that is cut off is read as a token of its class, if it is no name of an earlier one. -/
theorem next?_of_name (hname : lower text ∈ C.ofLexicon lexicon) (hsolid : Solid (lower text))
    (hearlier : ∀ earlier : NameClass, earlier.rank < C.rank →
      lower text ∉ earlier.ofLexicon lexicon)
    (hrest : Cuts text rest) (atStart : Bool) :
    lexicon.next? atStart (text ++ rest) = some (C.kind, text.length) := by
  have hmem : lower text ∈ lexicon.names := mem_names_of_mem_ofLexicon hname
  have hlowers : LowersTo text (lower text) := lowersTo_of_mem_names hmem
  refine next?_eq_name_iff.2 ⟨?_, fun earlier hlt => ?_, ?_⟩
  · exact unnamed?_eq_none_iff.2 (not_startsUnnamed_of_lowersTo hlowers hmem atStart)
  · rw [nameLength?_eq_none_iff]
    intro other hother
    refine not_admits_append hlowers hsolid hrest (mem_names_of_mem_ofLexicon hother) ?_
    rintro rfl
    exact hearlier earlier hlt hother
  · have hfind : (C.ofLexicon lexicon).find? (lexicon.admits (text ++ rest)) = some (lower text) :=
      find?_of_unique hname (admits_append_of_boundary hlowers hrest.boundary) fun other hother =>
        not_admits_append hlowers hsolid hrest (mem_names_of_mem_ofLexicon hother)
    rw [nameLength?, hfind, Option.map_some, hlowers.length_eq]

theorem next?_of_unit (hunit : lower text ∈ lexicon.units) (hrest : Cuts text rest)
    (atStart : Bool) : lexicon.next? atStart (text ++ rest) = some (.unit, text.length) := by
  have hword : isUnitWord (lower text) = true := isUnitWord_of_mem_units hunit
  exact next?_of_name (by rwa [ofLexicon_unit]) (solid_of_isUnitWord hword)
    (fun _ hlt hmem => not_mem_others hword (mem_others_of_lt hlt hmem)) hrest atStart

end Standard

end LineCalc
