import LineCalc.Proofs.LongestName
import LineCalc.Proofs.Resolution
import LineCalc.Proofs.TokenSpans

/-!
# The reading of a line ends

A line is read token by token, and the reading ends because each token takes characters away. Only a
name without characters can take none. A vocabulary may have such names for operators, functions and
aggregators, though not for units; they stand wherever a word may end, and so before the sign of an
operator. The reading of every line still ends where each such sign is a name of its own.

* **`exists_signBefore`**: a token without characters stands before a sign.
* **`SignsNamed`**: what a vocabulary with names without characters needs.
* **`advances_iff`**: the reading of every line ends exactly then.
-/

namespace LineCalc

open Text

/-- A character of an operator at which a word may end: no letter, number or white space, and none
that has a meaning for the structure of a line. -/
structure IsSign (config : Config) (sign : Char) : Prop where
  written : ∃ symbol ∈ config.operatorSymbols, sign ∈ symbol.toList
  notAlphanumeric : isAlphanumeric sign = false
  notBlank : isBlank sign = false
  notStructure : sign ∉ [':', '=', '(', ')', ';']

/--
Where a class has a name without characters, every sign is a name by itself, in this class or in
one that is tried before.
-/
def SignsNamed (config : Config) : Prop :=
  ∀ C : NameClass, "" ∈ C.table config → ∀ sign, IsSign config sign →
    ∃ first : NameClass, first.rank ≤ C.rank ∧
      ∃ key ∈ first.table config, lower key.toList = [sign]

namespace NameClass

theorem eq_of_rank {C D : NameClass} (h : C.rank = D.rank) : C = D := by
  cases C <;> cases D <;> first | rfl | cases h

/-- Of the classes with a property there is one that is tried before the others. -/
theorem exists_first {p : NameClass → Prop} {C : NameClass} (h : p C) :
    ∃ first : NameClass, first.rank ≤ C.rank ∧ p first ∧
      ∀ earlier : NameClass, earlier.rank < first.rank → ¬p earlier := by
  induction hrank : C.rank using Nat.strongRecOn generalizing C with
  | _ n ih =>
    by_cases hbefore : ∃ D : NameClass, D.rank < C.rank ∧ p D
    · obtain ⟨D, hlt, hD⟩ := hbefore
      obtain ⟨first, hle, hfirst, hearlier⟩ := ih D.rank (hrank ▸ hlt) hD rfl
      exact ⟨first, by omega, hfirst, hearlier⟩
    · exact ⟨C, hrank.le, h, fun D hlt hD => hbefore ⟨D, hlt, hD⟩⟩

end NameClass

/-! ## Signs -/

section Signs

variable {config : Config} {sign : Char}

theorem isSign_iff : IsSign config sign ↔
    EndsWord config sign ∧ isBlank sign = false ∧ sign ∉ [':', '=', '(', ')', ';'] := by
  constructor
  · intro h
    exact ⟨.inr (.inr ⟨h.notAlphanumeric, h.written⟩), h.notBlank, h.notStructure⟩
  · rintro ⟨hblank | hstructure | ⟨hsign, hwritten⟩, hnotBlank, hnotStructure⟩
    · rw [hnotBlank] at hblank
      cases hblank
    · refine absurd ?_ hnotStructure
      exact List.mem_cons_of_mem _ (List.mem_cons_of_mem _ hstructure)
    · exact ⟨hwritten, hsign, hnotBlank, hnotStructure⟩

theorem IsSign.not_alphabetic (h : IsSign config sign) : isAlphabetic sign = false :=
  (Bool.or_eq_false_iff.1 h.notAlphanumeric).1

theorem IsSign.not_digit (h : IsSign config sign) : isDigit sign = false := by
  have hnumeric := (Bool.or_eq_false_iff.1 h.notAlphanumeric).2
  simp only [isNumeric, Bool.or_eq_false_iff] at hnumeric
  exact hnumeric.1.1.1

/-- Operators are kept under lowercase symbols. -/
theorem exists_lowercase_of_mem_operatorSymbols (hbuilt : config.toDraft.Built) {key : String}
    (h : key ∈ config.operatorSymbols) : ∃ symbol, lowercase symbol = key := by
  rw [Draft.operatorSymbols, mem_dropRepeats, mem_sortNames, List.mem_append] at h
  rcases h with h | h
  · obtain ⟨op, hfind⟩ := Assoc.mem_keys.1 h
    obtain ⟨symbol, -, hkey⟩ := hbuilt.keyed.binaryOperators key op hfind
    exact ⟨symbol, hkey⟩
  · obtain ⟨op, hfind⟩ := Assoc.mem_keys.1 h
    obtain ⟨symbol, -, hkey⟩ := hbuilt.keyed.unaryOperators key op hfind
    exact ⟨symbol, hkey⟩

/-- A sign is its own lowercase, as it is a character of a lowercase symbol. -/
theorem IsSign.lower_eq (hbuilt : config.toDraft.Built) (h : IsSign config sign) :
    lower [sign] = [sign] := by
  obtain ⟨key, hkey, hmem⟩ := h.written
  obtain ⟨symbol, rfl⟩ := exists_lowercase_of_mem_operatorSymbols hbuilt hkey
  rw [lowercase, String.toList_ofList] at hmem
  have hsigma : sign ≠ 'Σ' := by
    rintro rfl
    exact absurd h.not_alphabetic (by decide +kernel)
  rw [lower, lowerAfter, if_neg hsigma, lowerChar_of_mem_lowerAfter hmem, lowerAfter,
    List.append_nil]

/-- No comment, structure or literal starts with a sign that stands alone. -/
theorem IsSign.not_startsUnnamed (h : IsSign config sign) :
    ¬StartsUnnamed config false [sign] :=
  LineCalc.not_startsUnnamed h.not_digit nofun h.notStructure fun _ _ hd => nomatch hd

end Signs

namespace Lexicon

variable {config : Config} {C : NameClass} {c sign : Char} {rest : List Char}

/-! ## Names at a sign -/

/-- A name without characters stands before whatever ends a word. -/
theorem admissible_nil_iff :
    Admissible config (c :: rest) C [] ↔ "" ∈ C.table config ∧ EndsWord config c := by
  constructor
  · intro h
    obtain ⟨key, hkey, hlower⟩ := h.named
    have hempty : key = "" := String.toList_eq_nil_iff.1 (lower_eq_nil hlower)
    exact ⟨hempty ▸ hkey, h.ended (fun _ hmem => absurd hmem List.not_mem_nil) c rfl⟩
  · rintro ⟨hkey, hends⟩
    refine ⟨⟨"", hkey, rfl⟩, Nat.zero_le _, rfl, fun _ d hd => ?_⟩
    cases hd
    exact hends

/-- A sign that is a name by itself stands wherever it is written. -/
theorem admissible_sign (hbuilt : config.toDraft.Built) (hsign : IsSign config sign)
    (hnamed : ∃ key ∈ C.table config, lower key.toList = [sign]) :
    Admissible config (sign :: rest) C [sign] := by
  refine ⟨hnamed, by simp, hsign.lower_eq hbuilt, fun halphabetic => ?_⟩
  have hsignAlphabetic := halphabetic sign (List.mem_singleton_self sign)
  rw [hsign.not_alphabetic] at hsignAlphabetic
  cases hsignAlphabetic

/-- A name that stands at a sign alone is the sign, or it has no characters. -/
theorem eq_of_admissible (hbuilt : config.toDraft.Built) (hsign : IsSign config sign)
    {name : List Char} (h : Admissible config [sign] C name) : name = [] ∨ name = [sign] := by
  have hfits : name.length ≤ 1 := h.fits
  rcases Nat.le_one_iff_eq_zero_or_eq_one.1 hfits with hzero | hone
  · exact .inl (List.length_eq_zero_iff.1 hzero)
  · right
    rw [← h.spelled, hone, List.take_succ_cons, List.take_zero, hsign.lower_eq hbuilt]

/-! ## Tokens without characters -/

/-- A token without characters is a name that stands before a sign. -/
theorem exists_signBefore {atStart : Bool} {kind : TokenKind} (hc : isBlank c = false)
    (h : (ofConfig config).next? atStart (c :: rest) = some (kind, 0)) :
    ∃ C : NameClass, kind = C.kind ∧ "" ∈ C.table config ∧ IsSign config c := by
  obtain ⟨C, rfl⟩ : ∃ C : NameClass, kind = C.kind := by
    rcases nameLength?_of_next?_zero h with ⟨hkind, -⟩ | ⟨hkind, -⟩ | ⟨hkind, -⟩ | ⟨hkind, -⟩
    · exact ⟨.operator, hkind⟩
    · exact ⟨.function, hkind⟩
    · exact ⟨.aggregator, hkind⟩
    · exact ⟨.unit, hkind⟩
  obtain ⟨hunnamed, -, hlength⟩ := next?_eq_name_iff.1 h
  obtain ⟨⟨name, hname, hzero⟩, -⟩ := nameLength?_ofConfig_eq_some_iff.1 hlength
  rw [List.length_eq_zero_iff.1 hzero] at hname
  obtain ⟨hempty, hends⟩ := admissible_nil_iff.1 hname
  refine ⟨C, rfl, hempty, isSign_iff.2 ⟨hends, hc, fun hstructure => ?_⟩⟩
  exact unnamed?_eq_none_iff.1 hunnamed (.structural hstructure)

/-- Where all signs are names, no token is without characters. -/
theorem advances_of_signsNamed (hbuilt : config.toDraft.Built) (hsigns : SignsNamed config) :
    (ofConfig config).Advances := by
  intro atStart c rest kind n hc hnext
  refine Nat.pos_of_ne_zero ?_
  rintro rfl
  obtain ⟨C, rfl, hempty, hsign⟩ := exists_signBefore hc hnext
  obtain ⟨-, hearlier, hlength⟩ := next?_eq_name_iff.1 hnext
  obtain ⟨first, hle, hnamed⟩ := hsigns C hempty c hsign
  have hadmissible : Admissible config (c :: rest) first [c] := admissible_sign hbuilt hsign hnamed
  -- the sign is found before the name without characters: it is tried before, or it is longer
  rcases Nat.lt_or_eq_of_le hle with hlt | heq
  · exact nameLength?_ofConfig_eq_none_iff.1 (hearlier first hlt) [c] hadmissible
  · rw [NameClass.eq_of_rank heq] at hadmissible
    have hgreatest := (nameLength?_ofConfig_eq_some_iff.1 hlength).2 ⟨[c], hadmissible, rfl⟩
    exact absurd hgreatest (by simp)

/-- Where no token is without characters, the first name at a sign alone is the sign. -/
theorem signsNamed_of_advances (hbuilt : config.toDraft.Built)
    (hadvances : (ofConfig config).Advances) : SignsNamed config := by
  intro C hempty sign hsign
  have hnil : Admissible config [sign] C [] :=
    admissible_nil_iff.2 ⟨hempty, (isSign_iff.1 hsign).1⟩
  obtain ⟨first, hle, ⟨name, hname⟩, hearlier⟩ :=
    NameClass.exists_first (p := fun D => ∃ name, Admissible config [sign] D name) ⟨[], hnil⟩
  have hnone : ∀ earlier : NameClass, earlier.rank < first.rank →
      (ofConfig config).nameLength? (earlier.ofLexicon (ofConfig config)) [sign] = none :=
    fun earlier hlt => nameLength?_ofConfig_eq_none_iff.2 fun name hname =>
      hearlier earlier hlt ⟨name, hname⟩
  obtain ⟨n, hlength⟩ : ∃ n,
      (ofConfig config).nameLength? (first.ofLexicon (ofConfig config)) [sign] = some n := by
    refine Option.ne_none_iff_exists'.1 fun hnone => ?_
    exact nameLength?_ofConfig_eq_none_iff.1 hnone name hname
  have hnext : (ofConfig config).next? false [sign] = some (first.kind, n) :=
    next?_eq_name_iff.2 ⟨unnamed?_eq_none_iff.2 hsign.not_startsUnnamed, hnone, hlength⟩
  have hpos : 0 < n := hadvances false sign [] _ n hsign.notBlank hnext
  obtain ⟨⟨found, hfound, hn⟩, -⟩ := nameLength?_ofConfig_eq_some_iff.1 hlength
  rcases eq_of_admissible hbuilt hsign hfound with rfl | rfl
  · exact absurd hn hpos.ne
  · exact ⟨first, hle, hfound.named⟩

theorem empty_not_mem_unitTable (hbuilt : config.toDraft.Built) :
    "" ∉ NameClass.unit.table config :=
  fun hempty => nil_not_mem_units hbuilt.consistent (mem_arrange.2 ⟨"", hempty, rfl⟩)

/--
In a vocabulary that is put together, every token that is recognized has characters exactly where
all signs are names, as far as names without characters make it necessary, and the reading of every
line ends exactly then. Units have no such names.
-/
theorem advances_iff (hbuilt : config.toDraft.Built) :
    ((ofConfig config).Advances ↔ SignsNamed config) ∧
      ((∀ line, ((ofConfig config).read? line).isSome = true) ↔ SignsNamed config) ∧
      "" ∉ NameClass.unit.table config := by
  have hadvances : (ofConfig config).Advances ↔ SignsNamed config :=
    ⟨signsNamed_of_advances hbuilt, advances_of_signsNamed hbuilt⟩
  exact ⟨hadvances, isSome_read?_iff.trans hadvances, empty_not_mem_unitTable hbuilt⟩

/-- The standard vocabulary has no names without characters. -/
theorem signsNamed_standard : SignsNamed .standard := by
  have hnone : ∀ C : NameClass, "" ∉ C.table .standard :=
    NameClass.forall_iff.2 ⟨by decide +kernel, by decide +kernel, by decide +kernel,
      empty_not_mem_unitTable Standard.built_draft⟩
  exact fun C hempty => absurd hempty (hnone C)

/-- The standard vocabulary with an operator whose symbol has no characters. -/
def unwritten : Config where
  toDraft := Standard.draft.addOperator (Standard.binary "" 1 (.arithmetic .add))
  acceptable := by decide +kernel

/-- This operator is found before a percent sign, again and again. -/
theorem advances_iff_unwritten :
    unwritten.toDraft.Built ∧ (ofConfig unwritten).next? true ['%'] = some (.operator, 0) ∧
      (ofConfig unwritten).read? "%" = none ∧ ¬SignsNamed unwritten := by
  have hbuilt : unwritten.toDraft.Built :=
    Standard.built_draft.operator (Standard.binary "" 1 (.arithmetic .add))
  have hzero : (ofConfig unwritten).next? true ['%'] = some (.operator, 0) := by decide +kernel
  have hstalls : (ofConfig unwritten).readFrom? 0 [] ['%'] = none :=
    readFrom?_eq_none (trimStart_cons_of_not_blank (by decide +kernel)) hzero
  have hread : (ofConfig unwritten).read? "%" = none := by
    have hline : "%".toList = ['%'] := rfl
    rw [read?, hline, hstalls]
  refine ⟨hbuilt, hzero, hread, fun hsigns => ?_⟩
  have hends := (advances_iff hbuilt).2.1.2 hsigns "%"
  rw [hread] at hends
  cases hends

end Lexicon

end LineCalc
