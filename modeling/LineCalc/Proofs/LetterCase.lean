import LineCalc.Proofs.Spelling
import LineCalc.Proofs.TokenSpans
import Mathlib.Data.Bool.AllAny

/-!
# The case of letters

Lines that differ only in the case of ASCII letters are read alike, in every vocabulary. Capitals
and small letters are in the same classes of characters and have the same lowercase, and no
separator and no delimiter is a letter; so the recognizers find the same, token by token.

* **`Lexicon.next?_map_toLower`**: the first token does not depend on the case of letters.
* **`Lexicon.readFrom?_of_toLower_eq`**: two readings go on in step.
* **`Lexicon.readAlike`**: what the reading of such lines gives.
* **`Calculator.toOption_compile_of_toLower_eq`**: without free words they have the same plan.
-/

namespace LineCalc

open Text

/-! ## Characters -/

namespace Text

/-- The capitals of ASCII. -/
def capitals : List Char :=
  "ABCDEFGHIJKLMNOPQRSTUVWXYZ".toList

theorem toLower_eq_or_mem_capitals (c : Char) : c.toLower = c ∨ c ∈ capitals := by
  have hcapitals : ∀ n < 91, 65 ≤ n → Char.ofNat n ∈ capitals := by decide +kernel
  unfold Char.toLower
  split
  · rename_i h
    have hlow : 65 ≤ c.toNat := h.1
    have hhigh : c.toNat ≤ 90 := h.2
    have hmem := hcapitals c.toNat (by omega) hlow
    rw [Char.ofNat_toNat] at hmem
    exact .inr hmem
  · exact .inl rfl

/-- Characters that are read alike in a name and elsewhere. -/
structure SameClasses (c d : Char) : Prop where
  blank : isBlank c = isBlank d
  digit : isDigit c = isDigit d
  letter : isLetter c = isLetter d
  alphanumeric : isAlphanumeric c = isAlphanumeric d
  cased : isCased c = isCased d
  ignorable : isCaseIgnorable c = isCaseIgnorable d
  sigma : c = 'Σ' ↔ d = 'Σ'
  lower : lowerChar c = lowerChar d
  size : c.utf8Size = d.utf8Size

instance (c d : Char) : Decidable (SameClasses c d) :=
  decidable_of_iff (isBlank c = isBlank d ∧ isDigit c = isDigit d ∧ isLetter c = isLetter d ∧
      isAlphanumeric c = isAlphanumeric d ∧ isCased c = isCased d ∧
      isCaseIgnorable c = isCaseIgnorable d ∧ (c = 'Σ' ↔ d = 'Σ') ∧ lowerChar c = lowerChar d ∧
      c.utf8Size = d.utf8Size)
    ⟨fun ⟨blank, digit, letter, alphanumeric, cased, ignorable, sigma, lower, size⟩ =>
      ⟨blank, digit, letter, alphanumeric, cased, ignorable, sigma, lower, size⟩,
      fun h => ⟨h.blank, h.digit, h.letter, h.alphanumeric, h.cased, h.ignorable, h.sigma, h.lower,
        h.size⟩⟩

theorem classes_of_mem_capitals : ∀ c ∈ capitals,
    SameClasses c.toLower c ∧ isAlphanumeric c = true ∧ isDigit c = false :=
  List.all_iff_forall_prop.1 (by decide +kernel)

theorem sameClasses_toLower (c : Char) : SameClasses c.toLower c := by
  rcases toLower_eq_or_mem_capitals c with heq | hmem
  · rw [heq]
    exact ⟨rfl, rfl, rfl, rfl, rfl, rfl, .rfl, rfl, rfl⟩
  · exact (classes_of_mem_capitals c hmem).1

theorem isBlank_toLower (c : Char) : isBlank c.toLower = isBlank c :=
  (sameClasses_toLower c).blank

theorem isDigit_toLower (c : Char) : isDigit c.toLower = isDigit c :=
  (sameClasses_toLower c).digit

/-- Only letters become letters. -/
theorem toLower_eq_iff {d : Char} (hd : isAlphanumeric d = false) (c : Char) :
    c.toLower = d ↔ c = d := by
  rcases toLower_eq_or_mem_capitals c with heq | hmem
  · rw [heq]
  · obtain ⟨hclasses, hc, -⟩ := classes_of_mem_capitals c hmem
    constructor
    · rintro rfl
      rw [hclasses.alphanumeric, hc] at hd
      cases hd
    · rintro rfl
      rw [hc] at hd
      cases hd

theorem beq_toLower {d : Char} (hd : isAlphanumeric d = false) (c : Char) :
    (c.toLower == d) = (c == d) := by
  rw [Bool.beq_eq_decide_eq, Bool.beq_eq_decide_eq, decide_eq_decide]
  exact toLower_eq_iff hd c

theorem takeWhile_map_toLower {p : Char → Bool} (hp : ∀ c, p (Char.toLower c) = p c)
    (cs : List Char) :
    (cs.map Char.toLower).takeWhile p = (cs.takeWhile p).map Char.toLower := by
  have hcomp : p ∘ Char.toLower = p := funext hp
  rw [List.takeWhile_map, hcomp]

theorem dropWhile_map_toLower {p : Char → Bool} (hp : ∀ c, p (Char.toLower c) = p c)
    (cs : List Char) :
    (cs.map Char.toLower).dropWhile p = (cs.dropWhile p).map Char.toLower := by
  have hcomp : p ∘ Char.toLower = p := funext hp
  rw [List.dropWhile_map, hcomp]

theorem trimStart_map_toLower (cs : List Char) :
    trimStart (cs.map Char.toLower) = (trimStart cs).map Char.toLower :=
  dropWhile_map_toLower isBlank_toLower cs

theorem startsCased_map_toLower (cs : List Char) :
    startsCased (cs.map Char.toLower) = startsCased cs := by
  rw [startsCased, startsCased, dropWhile_map_toLower fun c => (sameClasses_toLower c).ignorable]
  cases cs.dropWhile isCaseIgnorable with
  | nil => rfl
  | cons c rest => exact (sameClasses_toLower c).cased

theorem lowerAfter_map_toLower (before cs : List Char) :
    lowerAfter (before.map Char.toLower) (cs.map Char.toLower) = lowerAfter before cs := by
  induction cs generalizing before with
  | nil => rfl
  | cons c rest ih =>
    have hrest := ih (c :: before)
    rw [List.map_cons] at hrest
    have hclasses := sameClasses_toLower c
    simp only [List.map_cons, lowerAfter, hclasses.sigma, hclasses.lower, startsCased_map_toLower,
      hrest]

theorem lower_map_toLower (cs : List Char) : lower (cs.map Char.toLower) = lower cs :=
  lowerAfter_map_toLower [] cs

end Text

namespace Lexicon

/-! ## Literals -/

/-- A date or a time is made of digits, hyphens and colons, which are no letters. -/
theorem hasShape_map_toLower {tests : List (Char → Bool)}
    (htests : ∀ test ∈ tests, test = isDigit ∨ test = (· == '-') ∨ test = (· == ':'))
    (cs : List Char) : hasShape tests (cs.map Char.toLower) = hasShape tests cs := by
  induction tests generalizing cs with
  | nil => simp [hasShape]
  | cons test tests ih =>
    obtain ⟨htest, hothers⟩ := List.forall_mem_cons.1 htests
    have hsame : ∀ c : Char, test c.toLower = test c := by
      rcases htest with rfl | rfl | rfl
      · exact isDigit_toLower
      · exact beq_toLower (by decide)
      · exact beq_toLower (by decide)
    cases cs with
    | nil => rfl
    | cons c cs => simp only [List.map_cons, hasShape, hsame, ih hothers]

theorem dateLength?_map_toLower (cs : List Char) :
    dateLength? (cs.map Char.toLower) = dateLength? cs := by
  rw [dateLength?, dateLength?, hasShape_map_toLower (by simp)]

theorem secondsLength_map_toLower (cs : List Char) :
    secondsLength (cs.map Char.toLower) = secondsLength cs := by
  rw [secondsLength, secondsLength, hasShape_map_toLower (by simp)]

theorem timeLength?_map_toLower (cs : List Char) :
    timeLength? (cs.map Char.toLower) = timeLength? cs := by
  unfold timeLength?
  rw [hasShape_map_toLower (by simp), hasShape_map_toLower (by simp), ← List.map_drop,
    ← List.map_drop, secondsLength_map_toLower, secondsLength_map_toLower]

theorem digitCount_map_toLower (cs : List Char) :
    digitCount (cs.map Char.toLower) = digitCount cs := by
  rw [digitCount, takeWhile_map_toLower isDigit_toLower, List.length_map, digitCount]

theorem numberLength?_map_toLower {separator : Char} (h : isAlphanumeric separator = false)
    (cs : List Char) :
    numberLength? separator (cs.map Char.toLower) = numberLength? separator cs := by
  have hfraction : ∀ cs : List Char,
      fractionLength separator (cs.map Char.toLower) = fractionLength separator cs := by
    rintro (_ | ⟨c, rest⟩)
    · rfl
    · simp only [List.map_cons, fractionLength, digitCount_map_toLower, toLower_eq_iff h]
  simp only [numberLength?, digitCount_map_toLower, ← List.map_drop, hfraction]

theorem wordLength?_map_toLower (cs : List Char) :
    wordLength? (cs.map Char.toLower) = wordLength? cs := by
  have hword : ∀ c : Char, (isLetter c.toLower || c.toLower == '_') = (isLetter c || c == '_') :=
    fun c => by rw [(sameClasses_toLower c).letter, beq_toLower (by decide)]
  rw [wordLength?, wordLength?,
    takeWhile_map_toLower (p := fun c => isLetter c || c == '_') hword, List.length_map]

/-! ## Names -/

/-- No letter ends a word or stands before a fraction. -/
structure CaseBlind (lx : Lexicon) : Prop where
  delimiters : ∀ d ∈ lx.delimiters, isAlphanumeric d = false
  separator : isAlphanumeric lx.decimalSeparator = false

theorem caseBlind_ofConfig (config : Config) : (ofConfig config).CaseBlind where
  delimiters := by
    intro d hd
    simp only [ofConfig, List.mem_cons, List.mem_filter, endsWord, Bool.and_eq_true,
      Bool.not_eq_true'] at hd
    rcases hd with rfl | rfl | rfl | ⟨-, hsign, -⟩
    · decide
    · decide
    · decide
    · exact hsign
  separator := by
    have hseparator := config.acceptable.1
    simp only [NumberFormat.isSeparator, Bool.and_eq_true, Bool.not_eq_true'] at hseparator
    exact hseparator.1.1

variable {lx : Lexicon}

theorem isBoundary_map_toLower (h : lx.CaseBlind) (cs : List Char) :
    lx.isBoundary (cs.map Char.toLower) = lx.isBoundary cs := by
  cases cs with
  | nil => rfl
  | cons c rest =>
    have hmem : c.toLower ∈ lx.delimiters ↔ c ∈ lx.delimiters := by
      constructor
      · intro hd
        have heq : c = c.toLower := (toLower_eq_iff (h.delimiters _ hd) c).1 rfl
        rwa [← heq] at hd
      · intro hd
        have heq : c.toLower = c := (toLower_eq_iff (h.delimiters c hd) c).2 rfl
        rwa [heq]
    simp only [List.map_cons, isBoundary, isBlank_toLower, List.contains_eq_mem, hmem]

theorem nameLength?_map_toLower (h : lx.CaseBlind) (names : List (List Char)) (cs : List Char) :
    lx.nameLength? names (cs.map Char.toLower) = lx.nameLength? names cs := by
  have hadmits : lx.admits (cs.map Char.toLower) = lx.admits cs := by
    funext name
    simp only [admits, ← List.map_take, ← List.map_drop, List.length_map, lower_map_toLower,
      isBoundary_map_toLower h]
  rw [nameLength?, nameLength?, hadmits]

/-! ## The first token -/

/-- What a text starts with does not depend on the case of letters. -/
theorem next?_map_toLower (h : lx.CaseBlind) (atStart : Bool) (cs : List Char) :
    lx.next? atStart (cs.map Char.toLower) = lx.next? atStart cs := by
  have hcomment : comment? atStart (cs.map Char.toLower) = comment? atStart cs := by
    have hsign : ∀ c : Char, (c.toLower == '#') = (c == '#') := beq_toLower (by decide)
    cases cs with
    | nil => rfl
    | cons c rest => simp only [List.map_cons, comment?, hsign, List.length_map]
  have hstructure : structure? (cs.map Char.toLower) = structure? cs := by
    cases cs with
    | nil => rfl
    | cons c rest =>
      have hsign : ∀ {d : Char}, isAlphanumeric d = false → (c.toLower = d ↔ c = d) :=
        fun hd => toLower_eq_iff hd c
      simp only [List.map_cons, structure?, structureKind?, hsign (d := ':') (by decide),
        hsign (d := '=') (by decide), hsign (d := '(') (by decide), hsign (d := ')') (by decide),
        hsign (d := ';') (by decide)]
  simp only [next?, recognizers, List.findSome?_cons, List.findSome?_nil, hcomment, hstructure,
    dateLength?_map_toLower, timeLength?_map_toLower, numberLength?_map_toLower h.separator,
    nameLength?_map_toLower h, wordLength?_map_toLower]

/-! ## Two readings -/

theorem byteLength_map_toLower (cs : List Char) :
    byteLength (cs.map Char.toLower) = byteLength cs := by
  induction cs with
  | nil => rfl
  | cons c rest ih => rw [List.map_cons, byteLength, byteLength, ih, (sameClasses_toLower c).size]

theorem byteLength_of_toLower_eq {cs ds : List Char}
    (h : cs.map Char.toLower = ds.map Char.toLower) : byteLength cs = byteLength ds := by
  rw [← byteLength_map_toLower, h, byteLength_map_toLower]

end Lexicon

/-- Tokens that differ at most in the case of letters. -/
structure Token.Recased (s t : Token) : Prop where
  kind : s.kind = t.kind
  offset : s.offset = t.offset
  text : s.text.toLower = t.text.toLower
  size : s.text.utf8ByteSize = t.text.utf8ByteSize

/-- The byte offset at which the reading of a line stops. -/
def LexError.offset (line : String) (e : LexError) : Nat :=
  line.utf8ByteSize - e.unread.utf8ByteSize

/--
What reading gives for lines that are read alike: tokens that differ at most in the case of letters,
up to the ends of the lines or up to the same place.
-/
inductive ReadAlike (a b : String) :
    Except LexError (List Token) → Except LexError (List Token) → Prop where
  | ok {tokens others : List Token} (htokens : List.Forall₂ Token.Recased tokens others) :
      ReadAlike a b (.ok tokens) (.ok others)
  | error {e f : LexError} (htokens : List.Forall₂ Token.Recased e.tokens f.tokens)
      (hoffset : e.offset a = f.offset b) : ReadAlike a b (.error e) (.error f)

namespace Lexicon

variable {lx : Lexicon}

theorem toList_toLower (s : String) : s.toLower.toList = s.toList.map Char.toLower :=
  String.toList_map

theorem toLower_ofList (cs : List Char) :
    (String.ofList cs).toLower = String.ofList (cs.map Char.toLower) := by
  rw [← String.toList_inj, toList_toLower, String.toList_ofList, String.toList_ofList]

theorem recased_of_toLower_eq {kind : TokenKind} {offset : Nat} {cs ds : List Char}
    (h : cs.map Char.toLower = ds.map Char.toLower) :
    Token.Recased ⟨kind, String.ofList cs, offset⟩ ⟨kind, String.ofList ds, offset⟩ where
  kind := rfl
  offset := rfl
  text := by rw [toLower_ofList, toLower_ofList, h]
  size := by
    rw [utf8ByteSize_eq, utf8ByteSize_eq, String.toList_ofList, String.toList_ofList,
      byteLength_of_toLower_eq h]

/-- What is read goes on in step where two texts differ in the case of letters only. -/
theorem readFrom?_of_toLower_eq (h : lx.CaseBlind) {offset : Nat} {reversed others : List Token}
    {cs ds : List Char} {result : List Token × Option (List Char)}
    (hread : lx.readFrom? offset reversed cs = some result)
    (hreversed : List.Forall₂ Token.Recased reversed others)
    (hcs : cs.map Char.toLower = ds.map Char.toLower) :
    ∃ other, lx.readFrom? offset others ds = some other ∧
      List.Forall₂ Token.Recased result.1 other.1 ∧
      result.2.map (List.map Char.toLower) = other.2.map (List.map Char.toLower) := by
  -- each step of the first reading is one of the second
  refine readFrom?.partial_correctness lx (fun offset reversed cs result =>
    ∀ others ds, List.Forall₂ Token.Recased reversed others →
      cs.map Char.toLower = ds.map Char.toLower →
      ∃ other, lx.readFrom? offset others ds = some other ∧
        List.Forall₂ Token.Recased result.1 other.1 ∧
        result.2.map (List.map Char.toLower) = other.2.map (List.map Char.toLower)) ?_
    offset reversed cs result hread others ds hreversed hcs
  intro readOn ih offset reversed cs result hresult others ds hreversed hcs
  have hreverse : List.Forall₂ Token.Recased reversed.reverse others.reverse :=
    List.forall₂_reverse_iff.2 hreversed
  have htrim : (trimStart cs).map Char.toLower = (trimStart ds).map Char.toLower := by
    rw [← trimStart_map_toLower, hcs, trimStart_map_toLower]
  cases hleft : trimStart cs with
  | nil =>
    rw [hleft] at hresult htrim
    cases hresult
    exact ⟨_, readFrom?_of_blank (List.map_eq_nil_iff.1 htrim.symm), hreverse, rfl⟩
  | cons c rest =>
    rw [hleft] at hresult htrim
    obtain ⟨d, more, hright, -, -⟩ := List.map_eq_cons_iff.1 htrim.symm
    rw [hright] at htrim
    have hstart : reversed.isEmpty = others.isEmpty := by cases hreversed <;> rfl
    have hnext : lx.next? others.isEmpty (d :: more) = lx.next? reversed.isEmpty (c :: rest) := by
      rw [← next?_map_toLower h, ← htrim, next?_map_toLower h, hstart]
    dsimp only at hresult
    cases hfound : lx.next? reversed.isEmpty (c :: rest) with
    | none =>
      rw [hfound] at hresult hnext
      cases hresult
      exact ⟨_, readFrom?_of_none hright hnext, hreverse, congrArg some htrim⟩
    | some found =>
      obtain ⟨kind, n⟩ := found
      rw [hfound] at hresult hnext
      have hgap : byteLength (cs.takeWhile isBlank) = byteLength (ds.takeWhile isBlank) :=
        byteLength_of_toLower_eq (by
          rw [← takeWhile_map_toLower isBlank_toLower, hcs, takeWhile_map_toLower isBlank_toLower])
      have htext :
          ((c :: rest).take n).map Char.toLower = ((d :: more).take n).map Char.toLower := by
        rw [List.map_take, htrim, List.map_take]
      have hdrop :
          ((c :: rest).drop n).map Char.toLower = ((d :: more).drop n).map Char.toLower := by
        rw [List.map_drop, htrim, List.map_drop]
      rw [readFrom?_of_next? hright hnext, ← hgap, ← byteLength_of_toLower_eq htext]
      exact ih _ _ _ _ hresult _ _ (.cons (recased_of_toLower_eq htext) hreversed) hdrop

theorem map_toLower_toList {a b : String} (h : a.toLower = b.toLower) :
    a.toList.map Char.toLower = b.toList.map Char.toLower := by
  rw [← toList_toLower, h, toList_toLower]

/--
Lines that differ in the case of letters only are read alike; their readings end together, or none
of them ends.
-/
theorem readAlike (h : lx.CaseBlind) {a b : String} (hab : a.toLower = b.toLower) :
    (lx.read? a).isSome = (lx.read? b).isSome ∧ ReadAlike a b (lx.lex a) (lx.lex b) := by
  have hlines := map_toLower_toList hab
  unfold lex read?
  cases ha : lx.readFrom? 0 [] a.toList with
  | none =>
    -- if the second reading ended, the first one would go on in step with it
    have hb : lx.readFrom? 0 [] b.toList = none := by
      rw [Option.eq_none_iff_forall_ne_some]
      intro result hresult
      obtain ⟨other, hother, -⟩ := readFrom?_of_toLower_eq h hresult .nil hlines.symm
      rw [ha] at hother
      cases hother
    rw [hb]
    exact ⟨rfl, .error .nil (by simp [LexError.offset])⟩
  | some result =>
    obtain ⟨other, hb, htokens, hunread⟩ := readFrom?_of_toLower_eq h ha .nil hlines
    rw [hb]
    obtain ⟨tokens, _ | unread⟩ := result <;> obtain ⟨others, _ | rest⟩ := other
    · exact ⟨rfl, .ok htokens⟩
    · cases hunread
    · cases hunread
    · have hrest : unread.map Char.toLower = rest.map Char.toLower := Option.some.inj hunread
      refine ⟨rfl, .error htokens ?_⟩
      simp only [LexError.offset, utf8ByteSize_eq, String.toList_ofList]
      rw [byteLength_of_toLower_eq hrest, byteLength_of_toLower_eq hlines]

/-! ## Literals hold no letters -/

theorem toLower_of_isDigit {c : Char} (h : isDigit c = true) : c.toLower = c := by
  refine (toLower_eq_or_mem_capitals c).resolve_right fun hmem => ?_
  rw [(classes_of_mem_capitals c hmem).2.2] at h
  cases h

theorem toLower_of_mem_hasShape {tests : List (Char → Bool)}
    (htests : ∀ test ∈ tests, test = isDigit ∨ test = (· == '-') ∨ test = (· == ':'))
    {cs : List Char} (h : hasShape tests cs = true) :
    ∀ c ∈ cs.take tests.length, c.toLower = c := by
  induction tests generalizing cs with
  | nil => simp
  | cons test tests ih =>
    obtain ⟨htest, hothers⟩ := List.forall_mem_cons.1 htests
    cases cs with
    | nil => simp
    | cons c cs =>
      simp only [hasShape, Bool.and_eq_true] at h
      rw [List.length_cons, List.take_succ_cons, List.forall_mem_cons]
      refine ⟨?_, ih hothers h.2⟩
      rcases htest with rfl | rfl | rfl
      · exact toLower_of_isDigit h.1
      · obtain rfl : c = '-' := beq_iff_eq.1 h.1
        rfl
      · obtain rfl : c = ':' := beq_iff_eq.1 h.1
        rfl

theorem toLower_of_mem_seconds {cs : List Char} :
    ∀ c ∈ cs.take (secondsLength cs), c.toLower = c := by
  unfold secondsLength
  split
  · rename_i hshape
    exact toLower_of_mem_hasShape (by simp) hshape
  · simp

theorem toLower_of_mem_date {cs : List Char} {n : Nat} (h : dateLength? cs = some n) :
    ∀ c ∈ cs.take n, c.toLower = c := by
  unfold dateLength? at h
  split at h <;> cases h
  rename_i hshape
  exact toLower_of_mem_hasShape (by simp) hshape

theorem toLower_of_mem_time {cs : List Char} {n : Nat} (h : timeLength? cs = some n) :
    ∀ c ∈ cs.take n, c.toLower = c := by
  unfold timeLength? at h
  split at h
  · rename_i hshape
    cases h
    rw [List.take_add, List.forall_mem_append]
    exact ⟨toLower_of_mem_hasShape (by simp) hshape, toLower_of_mem_seconds⟩
  · split at h <;> cases h
    rename_i hshape
    rw [List.take_add, List.forall_mem_append]
    exact ⟨toLower_of_mem_hasShape (by simp) hshape, toLower_of_mem_seconds⟩

theorem toLower_of_mem_digits (cs : List Char) :
    ∀ c ∈ cs.take (digitCount cs), c.toLower = c := by
  have hdigits : cs.take (digitCount cs) = cs.takeWhile isDigit :=
    (List.prefix_iff_eq_take.1 (List.takeWhile_prefix isDigit)).symm
  intro c hc
  rw [hdigits] at hc
  exact toLower_of_isDigit (List.all_eq_true.1 List.all_takeWhile c hc)

theorem toLower_of_mem_number {separator : Char} (hseparator : isAlphanumeric separator = false)
    {cs : List Char} {n : Nat} (h : numberLength? separator cs = some n) :
    ∀ c ∈ cs.take n, c.toLower = c := by
  have hfraction : ∀ cs : List Char, ∀ c ∈ cs.take (fractionLength separator cs),
      c.toLower = c := by
    rintro (_ | ⟨c, rest⟩)
    · simp
    · simp only [fractionLength]
      split
      · rename_i hstart
        rw [Nat.add_comm, List.take_succ_cons, List.forall_mem_cons]
        exact ⟨hstart.1 ▸ (toLower_eq_iff hseparator separator).2 rfl, toLower_of_mem_digits rest⟩
      · simp
  simp only [numberLength?] at h
  split at h <;> cases h
  rw [List.take_add, List.forall_mem_append]
  exact ⟨toLower_of_mem_digits cs, hfraction _⟩

/-- The tokens that are read by the text and not by a name. -/
def literalKinds : List TokenKind :=
  [.number, .date, .time]

theorem toLower_of_literal (h : lx.CaseBlind) {offset : Nat} {atStart : Bool} {cs : List Char}
    {t : Token} (ht : t ∈ (lx.scan offset atStart cs).1) (hkind : t.kind ∈ literalKinds) :
    t.text.toLower = t.text := by
  obtain ⟨start, text, n, hnext, htext⟩ := exists_next?_of_mem_scan rfl ht
  have hsame : ∀ c ∈ text.take n, c.toLower = c := by
    generalize t.kind = kind at hnext hkind
    cases recognized_of_next? hnext with
    | date hlength => exact toLower_of_mem_date hlength
    | time hlength => exact toLower_of_mem_time hlength
    | number hlength => exact toLower_of_mem_number h.separator hlength
    | structural _ hstructure =>
      rcases structureKind?_eq_some hstructure with rfl | rfl | rfl | rfl <;>
        exact absurd hkind (by decide)
    | comment | operator | function | aggregator | unit | word => exact absurd hkind (by decide)
  rw [← htext] at hsame
  rw [← String.toList_inj, toList_toLower]
  exact (List.map_congr_left hsame).trans (List.map_id' _)

end Lexicon

/-! ## The plan -/

namespace Token

/-- The token holds no letters, if it is a literal. -/
def PlainLiteral (t : Token) : Prop :=
  t.kind ∈ Lexicon.literalKinds → t.text.toLower = t.text

/-- A plan depends on the case of letters in free words only. -/
theorem Recased.canonical_eq {s t : Token} (h : s.Recased t) (hword : s.kind ≠ .identifier)
    (hs : s.PlainLiteral) (ht : t.PlainLiteral) : s.canonical = t.canonical := by
  have hlower : lowercase s.text = lowercase t.text := by
    rw [lowercase, lowercase, ← lower_map_toLower, Lexicon.map_toLower_toList h.text,
      lower_map_toLower]
  have hliteral : s.kind ∈ Lexicon.literalKinds → s.text = t.text := fun hkind => by
    rw [← hs hkind, h.text, ht (h.kind ▸ hkind)]
  have hspelling : s.spelling = t.spelling := by
    unfold spelling
    rw [← h.kind]
    generalize s.kind = kind at hword hliteral
    cases kind with
    | number | date | time => exact hliteral (by decide)
    | operator | function | aggregator | unit => exact hlower
    | identifier => exact absurd rfl hword
    | openParen | closeParen | semicolon | assignment | comment => rfl
  rw [canonical, canonical, h.kind, hspelling]

theorem map_canonical_eq {tokens others : List Token} (h : List.Forall₂ Recased tokens others)
    (hwords : ∀ t ∈ tokens, t.kind ≠ .identifier) (htokens : ∀ t ∈ tokens, t.PlainLiteral)
    (hothers : ∀ t ∈ others, t.PlainLiteral) :
    tokens.map canonical = others.map canonical := by
  induction h with
  | nil => rfl
  | cons hhead _ ih =>
    rw [List.forall_mem_cons] at hwords htokens hothers
    rw [List.map_cons, List.map_cons, hhead.canonical_eq hwords.1 htokens.1 hothers.1,
      ih hwords.2 htokens.2 hothers.2]

end Token

namespace Calculator

theorem caseBlind (c : Calculator) : c.lexicon.CaseBlind := by
  rw [c.lexicon_eq]
  exact Lexicon.caseBlind_ofConfig c.config

/-- Lines that differ in the case of letters have the same plan if no free word is read in them. -/
theorem toOption_compile_of_toLower_eq (c : Calculator) {a b : String} (hab : a.toLower = b.toLower)
    (hwords : ∀ tokens, c.lexicon.lex a = .ok tokens → ∀ t ∈ tokens, t.kind ≠ .identifier) :
    (c.compile a).toOption = (c.compile b).toOption := by
  obtain ⟨-, halike⟩ := Lexicon.readAlike c.caseBlind hab
  apply toOption_compile_congr
  generalize ha : c.lexicon.lex a = left at halike
  generalize hb : c.lexicon.lex b = right at halike
  cases halike with
  | error => rfl
  | @ok tokens others htokens =>
    have hliteral : ∀ {line : String} {tokens : List Token}, c.lexicon.lex line = .ok tokens →
        ∀ t ∈ tokens, t.PlainLiteral := by
      intro line tokens hlex t ht
      have hscan := Lexicon.lex_eq_ok.1 hlex
      exact Lexicon.toLower_of_literal c.caseBlind (by rwa [hscan])
    exact congrArg some
      (Token.map_canonical_eq htokens (hwords tokens ha) (hliteral ha) (hliteral hb))

end Calculator

end LineCalc
