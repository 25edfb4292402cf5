import LineCalc.Proofs.Lexing
import LineCalc.Proofs.Names

/-!
# What the tokens of a line cover

Reading loses nothing and invents nothing. The tokens stand in the line at their offsets, one after
the other, and what lies between them is white space; where reading stops before the end of the
line, the rest starts with a character at which no recognizer finds anything.

* **`Spells`**: a text as tokens with white space before each, at the byte offsets they claim.
* **`spells_scan`**: the tokens that are read spell the text up to where reading stops.
* **`Covers`**: the same in terms of the line and its byte offsets.
* **`accounts_lex`**: what reading a line gives, whether it ends well or not.
-/

namespace LineCalc

open Text

/-- The byte offset at which a token ends. -/
def Token.stop (t : Token) : Nat :=
  t.offset + t.text.utf8ByteSize

/-- The text of a token is what stands in the line from its offset on. -/
def Token.StandsIn (line : String) (t : Token) : Prop :=
  ∃ before after, line = before ++ t.text ++ after ∧ before.utf8ByteSize = t.offset

/-- Up to a byte offset the tokens take all of a line but white space, and no part of it twice. -/
structure Covers (line : String) (tokens : List Token) (stop : Nat) : Prop where
  nonempty : ∀ t ∈ tokens, t.text ≠ ""
  standsIn : ∀ t ∈ tokens, t.StandsIn line
  ascending : tokens.Pairwise fun a b => a.offset < b.offset ∧ a.stop ≤ b.offset
  within : ∀ t ∈ tokens, t.stop ≤ stop
  blank : ∀ before c after, line = before ++ String.singleton c ++ after →
    before.utf8ByteSize < stop →
    isBlank c = true ∨
      ∃ t ∈ tokens, t.offset ≤ before.utf8ByteSize ∧ before.utf8ByteSize + c.utf8Size ≤ t.stop

namespace Lexicon

/-- What reading a line has to account for, whether it reaches the end of the line or not. -/
def Accounts (lx : Lexicon) (line : String) : Except LexError (List Token) → Prop
  | .ok tokens => Covers line tokens line.utf8ByteSize
  | .error e =>
    ∃ before, line = before ++ e.unread ∧ Covers line e.tokens before.utf8ByteSize ∧
      (∃ c rest, e.unread.toList = c :: rest ∧ isBlank c = false) ∧
      (∀ recognizer ∈ lx.recognizers e.tokens.isEmpty, recognizer e.unread.toList = none) ∧
      e.message = s!"Unrecognized input: '{e.unread}'"

/-! ## Bytes -/

theorem byteLength_append (as bs : List Char) :
    byteLength (as ++ bs) = byteLength as + byteLength bs := by
  induction as with
  | nil => simp [byteLength]
  | cons a as ih =>
    rw [List.cons_append, byteLength, byteLength, ih]
    omega

theorem utf8ByteSize_eq (s : String) : s.utf8ByteSize = byteLength s.toList := by
  have hlist : ∀ cs : List Char, (String.ofList cs).utf8ByteSize = byteLength cs := by
    intro cs
    induction cs with
    | nil => rfl
    | cons c cs ih =>
      have hcons : String.ofList (c :: cs) = String.singleton c ++ String.ofList cs := by
        rw [String.singleton_eq_ofList, ← String.ofList_append]
        rfl
      rw [hcons, String.utf8ByteSize_append, String.utf8ByteSize_singleton, ih, byteLength]
  rw [← hlist, String.ofList_toList]

theorem byteLength_pos {cs : List Char} (h : cs ≠ []) : 0 < byteLength cs := by
  cases cs with
  | nil => exact absurd rfl h
  | cons c rest =>
    have hc : 0 < c.utf8Size := c.utf8Size_pos
    rw [byteLength]
    omega

/-- A character of two texts one after the other stands in the first or in the second. -/
theorem mem_or_append {as bs before after : List Char} {c : Char}
    (h : as ++ bs = before ++ c :: after) :
    (∃ tail, as = before ++ c :: tail) ∨
      ∃ front, before = as ++ front ∧ bs = front ++ c :: after := by
  rcases List.append_eq_append_iff.1 h with ⟨front, rfl, hbs⟩ | ⟨tail, rfl, hafter⟩
  · exact .inr ⟨front, rfl, hbs⟩
  · cases tail with
    | nil => exact .inr ⟨[], by simp, by simpa using hafter.symm⟩
    | cons d tail =>
      obtain ⟨rfl, -⟩ := List.cons.inj hafter
      exact .inl ⟨tail, rfl⟩

/-! ## Texts spelled by tokens -/

/--
A text that starts at a byte offset, as tokens with white space before each, white space after the
last one, and a rest.
-/
inductive Spells : Nat → List Char → List Token → List Char → Prop where
  | done {offset : Nat} {gap rest : List Char} (hgap : ∀ c ∈ gap, isBlank c = true) :
      Spells offset (gap ++ rest) [] rest
  | token {offset : Nat} {gap more rest : List Char} {t : Token} {tokens : List Token}
      (hgap : ∀ c ∈ gap, isBlank c = true) (htext : t.text.toList ≠ [])
      (hoffset : t.offset = offset + byteLength gap) (hmore : Spells t.stop more tokens rest) :
      Spells offset (gap ++ (t.text.toList ++ more)) (t :: tokens) rest

section

variable {offset : Nat} {cs rest : List Char} {tokens : List Token}

theorem Token.stop_eq (t : Token) : t.stop = t.offset + byteLength t.text.toList := by
  rw [Token.stop, utf8ByteSize_eq]

namespace Spells

theorem text_ne_nil (h : Spells offset cs tokens rest) : ∀ t ∈ tokens, t.text.toList ≠ [] := by
  induction h with
  | done => simp
  | token _ htext _ _ ih => exact List.forall_mem_cons.2 ⟨htext, ih⟩

theorem offset_le (h : Spells offset cs tokens rest) : ∀ t ∈ tokens, offset ≤ t.offset := by
  induction h with
  | done => simp
  | token _ _ hoffset _ ih =>
    refine List.forall_mem_cons.2 ⟨by omega, fun t ht => ?_⟩
    have hlater := ih t ht
    rw [Token.stop_eq] at hlater
    omega

theorem ascending (h : Spells offset cs tokens rest) :
    tokens.Pairwise fun a b => a.offset < b.offset ∧ a.stop ≤ b.offset := by
  induction h with
  | done => exact .nil
  | token _ htext _ hmore ih =>
    refine .cons (fun b hb => ?_) ih
    have hlater := hmore.offset_le b hb
    have hpos := byteLength_pos htext
    refine ⟨?_, hlater⟩
    rw [Token.stop_eq] at hlater
    omega

/-- The rest stands at the end of the text, after all tokens. -/
theorem exists_append (h : Spells offset cs tokens rest) :
    ∃ read, cs = read ++ rest ∧ ∀ t ∈ tokens, t.stop ≤ offset + byteLength read := by
  induction h with
  | @done offset gap rest hgap => exact ⟨gap, rfl, by simp⟩
  | @token offset gap more rest t tokens hgap htext hoffset hmore ih =>
    obtain ⟨read, rfl, hread⟩ := ih
    refine ⟨gap ++ (t.text.toList ++ read), by simp [List.append_assoc], ?_⟩
    have hstop := Token.stop_eq t
    have hsize : byteLength (gap ++ (t.text.toList ++ read)) =
        byteLength gap + (byteLength t.text.toList + byteLength read) := by
      rw [byteLength_append, byteLength_append]
    refine List.forall_mem_cons.2 ⟨by omega, fun b hb => ?_⟩
    have hlater := hread b hb
    omega

theorem standsIn (h : Spells offset cs tokens rest) {line : String} {before : List Char}
    (hline : line.toList = before ++ cs) (hbefore : byteLength before = offset) :
    ∀ t ∈ tokens, t.StandsIn line := by
  induction h generalizing before with
  | done => simp
  | @token offset gap more rest t tokens hgap htext hoffset hmore ih =>
    have hstop := Token.stop_eq t
    have hmoreLine : line.toList = (before ++ gap ++ t.text.toList) ++ more := by
      rw [hline]
      simp only [List.append_assoc]
    refine List.forall_mem_cons.2 ⟨?_, ih hmoreLine ?_⟩
    · refine ⟨String.ofList (before ++ gap), String.ofList more, ?_, ?_⟩
      · rw [← String.toList_inj]
        simp only [String.toList_append, String.toList_ofList]
        exact hmoreLine
      · rw [utf8ByteSize_eq, String.toList_ofList, byteLength_append]
        omega
    · rw [byteLength_append, byteLength_append]
      omega

/-- Every character before the rest is white space or lies in a token. -/
theorem blank_or_mem (h : Spells offset cs tokens rest) {before after : List Char} {c : Char}
    (hcs : cs = before ++ c :: after)
    (hbefore : byteLength before + byteLength rest < byteLength cs) :
    isBlank c = true ∨ ∃ t ∈ tokens, t.offset ≤ offset + byteLength before ∧
      offset + byteLength before + c.utf8Size ≤ t.stop := by
  induction h generalizing before with
  | @done offset gap rest hgap =>
    rcases mem_or_append hcs with ⟨tail, rfl⟩ | ⟨front, rfl, hrest⟩
    · exact .inl (hgap c (by simp))
    · -- the character would stand in the rest
      rw [hrest] at hbefore
      simp only [byteLength_append] at hbefore
      omega
  | @token offset gap more rest t tokens hgap htext hoffset hmore ih =>
    have hstop := Token.stop_eq t
    rcases mem_or_append hcs with ⟨tail, rfl⟩ | ⟨front, rfl, hafterGap⟩
    · exact .inl (hgap c (by simp))
    simp only [byteLength_append] at hbefore ⊢
    rcases mem_or_append hafterGap with ⟨tail, hword⟩ | ⟨front, rfl, hafterWord⟩
    · have hsize : byteLength t.text.toList =
          byteLength front + (c.utf8Size + byteLength tail) := by
        rw [hword, byteLength_append, byteLength]
      exact .inr ⟨t, List.mem_cons_self .., by omega, by omega⟩
    · rw [byteLength_append] at hbefore ⊢
      rcases ih hafterWord (by omega) with hblank | ⟨u, hu, hlow, hhigh⟩
      · exact .inl hblank
      · exact .inr ⟨u, List.mem_cons_of_mem _ hu, by omega, by omega⟩

theorem covers {line : String} (h : Spells 0 line.toList tokens rest) {before : String}
    (hbefore : line = before ++ String.ofList rest) : Covers line tokens before.utf8ByteSize where
  nonempty t ht hempty := h.text_ne_nil t ht (by rw [hempty]; rfl)
  standsIn := h.standsIn (List.nil_append _).symm rfl
  ascending := h.ascending
  within := by
    obtain ⟨read, hread, hstop⟩ := h.exists_append
    have heq : before.toList = read := by
      rw [hbefore, String.toList_append, String.toList_ofList] at hread
      exact List.append_cancel_right hread
    intro t ht
    have hle := hstop t ht
    rw [utf8ByteSize_eq, heq]
    omega
  blank := by
    intro front c after hline hfront
    have hsize : byteLength line.toList = byteLength before.toList + byteLength rest := by
      rw [hbefore, String.toList_append, String.toList_ofList, byteLength_append]
    have hchars : line.toList = front.toList ++ c :: after.toList := by
      rw [hline]
      simp [String.toList_append]
    rw [utf8ByteSize_eq, utf8ByteSize_eq] at hfront
    have hmem := h.blank_or_mem hchars (by omega)
    rwa [Nat.zero_add, ← utf8ByteSize_eq] at hmem

end Spells

end

/-! ## Reading -/

/-- A text with the white space before it taken off. -/
theorem eq_append_trimStart (cs : List Char) :
    cs = cs.takeWhile isBlank ++ trimStart cs ∧ ∀ c ∈ cs.takeWhile isBlank, isBlank c = true :=
  ⟨List.takeWhile_append_dropWhile.symm, List.all_eq_true.1 List.all_takeWhile⟩

/-- What is read spells the text, and nothing is recognized where reading stops before its end. -/
theorem spells_scan {lx : Lexicon}
    (hpos : ∀ atStart cs kind n, lx.next? atStart cs = some (kind, n) → 0 < n)
    {offset : Nat} {atStart : Bool} {cs : List Char} {tokens : List Token}
    {unread : Option (List Char)} (h : lx.scan offset atStart cs = (tokens, unread)) :
    Spells offset cs tokens (unread.getD []) ∧
      ∀ rest, unread = some rest → (∃ c more, rest = c :: more ∧ isBlank c = false) ∧
        lx.next? (atStart && tokens.isEmpty) rest = none := by
  have hdone : ∀ {offset : Nat} {cs rest : List Char}, trimStart cs = rest →
      Spells offset cs [] rest := by
    intro offset cs rest htrim
    obtain ⟨hcs, hgap⟩ := eq_append_trimStart cs
    rw [hcs, htrim]
    exact .done hgap
  -- the cases of the scan: nothing left, nothing recognized, no character taken, a token
  fun_induction scan lx offset atStart cs generalizing tokens unread with
  | case1 offset atStart cs htrim =>
    cases h
    exact ⟨hdone htrim, by simp⟩
  | case2 offset atStart cs c rest htrim hnone =>
    cases h
    refine ⟨hdone htrim, ?_⟩
    rintro _ ⟨⟩
    rw [List.isEmpty_nil, Bool.and_true]
    exact ⟨⟨c, rest, rfl, isBlank_of_trimStart_eq_cons htrim⟩, hnone⟩
  | case3 offset atStart cs c rest htrim kind hzero =>
    exact absurd (hpos _ _ _ _ hzero) (Nat.lt_irrefl 0)
  | case4 offset atStart cs c rest htrim start kind length hnext text later left =>
    rename_i hscan ih
    cases h
    obtain ⟨hspells, hstops⟩ := ih hscan
    obtain ⟨hcs, hgap⟩ := eq_append_trimStart cs
    refine ⟨?_, by simpa using hstops⟩
    have hsplit : cs = cs.takeWhile isBlank ++
        ((⟨kind, String.ofList text, start⟩ : Token).text.toList ++ rest.drop length) := by
      rw [String.toList_ofList]
      conv_lhs => rw [hcs, htrim, ← List.take_append_drop (length + 1) (c :: rest)]
      rfl
    have hstop : (⟨kind, String.ofList text, start⟩ : Token).stop = start + byteLength text := by
      rw [Token.stop_eq, String.toList_ofList]
    rw [hsplit]
    refine .token hgap ?_ rfl ?_
    · rw [String.toList_ofList]
      exact List.cons_ne_nil _ _
    · rw [hstop]
      exact hspells

/-! ## The length of a token -/

/-- What is recognized without characters is a name. -/
theorem nameLength?_of_next?_zero {lx : Lexicon} {atStart : Bool} {cs : List Char}
    {kind : TokenKind} (h : lx.next? atStart cs = some (kind, 0)) :
    (kind = .operator ∧ lx.nameLength? lx.operators cs = some 0) ∨
      (kind = .function ∧ lx.nameLength? lx.functions cs = some 0) ∨
      (kind = .aggregator ∧ lx.nameLength? lx.aggregators cs = some 0) ∨
      (kind = .unit ∧ lx.nameLength? lx.units cs = some 0) := by
  generalize hn : 0 = n at h ⊢
  cases recognized_of_next? h with
  | comment | structural => cases hn
  | date hlength =>
    unfold dateLength? at hlength
    split at hlength <;> cases hlength
    cases hn
  | time hlength =>
    unfold timeLength? at hlength
    split at hlength
    · cases hlength
      omega
    · split at hlength <;> cases hlength
      omega
  | number hlength =>
    simp only [numberLength?] at hlength
    split at hlength <;> cases hlength
    omega
  | operator hlength => exact .inl ⟨rfl, hlength⟩
  | function hlength => exact .inr (.inl ⟨rfl, hlength⟩)
  | aggregator hlength => exact .inr (.inr (.inl ⟨rfl, hlength⟩))
  | unit hlength => exact .inr (.inr (.inr ⟨rfl, hlength⟩))
  | word hlength =>
    simp only [wordLength?] at hlength
    split at hlength <;> cases hlength
    omega

theorem length_pos_of_next? {lx : Lexicon} (hoperators : [] ∉ lx.operators)
    (hfunctions : [] ∉ lx.functions) (haggregators : [] ∉ lx.aggregators) (hunits : [] ∉ lx.units)
    {atStart : Bool} {cs : List Char} {kind : TokenKind} {n : Nat}
    (h : lx.next? atStart cs = some (kind, n)) : 0 < n := by
  have hnames : ∀ {names : List (List Char)}, [] ∉ names → lx.nameLength? names cs ≠ some 0 := by
    intro names hnil hzero
    obtain ⟨name, hfind, hname⟩ := Option.map_eq_some_iff.1 hzero
    exact hnil (List.length_eq_zero_iff.1 hname ▸ List.mem_of_find?_eq_some hfind)
  refine Nat.pos_of_ne_zero ?_
  rintro rfl
  rcases nameLength?_of_next?_zero h with ⟨-, hzero⟩ | ⟨-, hzero⟩ | ⟨-, hzero⟩ | ⟨-, hzero⟩
  · exact hnames hoperators hzero
  · exact hnames hfunctions hzero
  · exact hnames haggregators hzero
  · exact hnames hunits hzero

/-- In a vocabulary without empty names every token has characters. -/
theorem length_pos_of_named {config : Config} (hbuilt : config.toDraft.Built)
    (hoperators : "" ∉ config.operatorSymbols) (hfunctions : "" ∉ config.functions.names)
    (haggregators : "" ∉ config.aggregators.names) {atStart : Bool} {cs : List Char}
    {kind : TokenKind} {n : Nat} (h : (ofConfig config).next? atStart cs = some (kind, n)) :
    0 < n := by
  refine length_pos_of_next? ?_ ?_ ?_ ?_ h
  · exact nil_not_mem_arrange hoperators
  · exact nil_not_mem_arrange hfunctions
  · exact nil_not_mem_arrange haggregators
  · exact nil_not_mem_units hbuilt.consistent

/-- No recognizer finds anything at a text of which no token can be made. -/
theorem next?_eq_none_iff {lx : Lexicon} {atStart : Bool} {cs : List Char} :
    lx.next? atStart cs = none ↔ ∀ recognizer ∈ lx.recognizers atStart, recognizer cs = none :=
  List.findSome?_eq_none_iff

theorem accounts_of_next?_pos {lx : Lexicon}
    (hpos : ∀ atStart cs kind n, lx.next? atStart cs = some (kind, n) → 0 < n) (line : String) :
    lx.Accounts line (lx.lex line) := by
  rw [lex_eq_scan fun _ _ _ _ _ _ => hpos _ _ _ _]
  split
  · rename_i tokens hscan
    obtain ⟨hspells, -⟩ := spells_scan hpos hscan
    exact hspells.covers (by simp)
  · rename_i tokens unread hscan
    obtain ⟨hspells, hstops⟩ := spells_scan hpos hscan
    obtain ⟨hstart, hnone⟩ := hstops unread rfl
    obtain ⟨read, hread, -⟩ := hspells.exists_append
    have hline : line = String.ofList read ++ String.ofList unread := by
      rw [← String.toList_inj, String.toList_append, String.toList_ofList, String.toList_ofList]
      exact hread
    rw [Bool.true_and] at hnone
    refine ⟨String.ofList read, hline, hspells.covers hline, ?_, ?_, rfl⟩
    · rwa [String.toList_ofList]
    · rw [String.toList_ofList]
      exact next?_eq_none_iff.1 hnone

/--
In every vocabulary without empty names, what is read of a line accounts for the line: the tokens
cover it, or they cover it up to a rest at which no recognizer finds anything and which is quoted.
-/
theorem accounts_lex {config : Config} (hbuilt : config.toDraft.Built)
    (hoperators : "" ∉ config.operatorSymbols) (hfunctions : "" ∉ config.functions.names)
    (haggregators : "" ∉ config.aggregators.names) (line : String) :
    (ofConfig config).Accounts line ((ofConfig config).lex line) := by
  exact accounts_of_next?_pos (fun _ _ _ _ =>
    length_pos_of_named hbuilt hoperators hfunctions haggregators) line

/-- A vocabulary of one operator. -/
def sumsOnly : Config where
  toDraft := Draft.addOperator {} (Standard.binary "+" 2 (.arithmetic .add))
  acceptable := by decide

/-- After three tokens it has nothing for the sign of a half. -/
theorem accounts_lex_half_sign :
    sumsOnly.toDraft.Built ∧ "" ∉ sumsOnly.operatorSymbols ∧ "" ∉ sumsOnly.functions.names ∧
      "" ∉ sumsOnly.aggregators.names ∧
      (ofConfig sumsOnly).lex "é % +½ 1" = .error ⟨"½ 1",
        [⟨.identifier, "é", 0⟩, ⟨.unit, "%", 3⟩, ⟨.operator, "+", 5⟩]⟩ ∧
      (ofConfig sumsOnly).Accounts "é % +½ 1" ((ofConfig sumsOnly).lex "é % +½ 1") := by
  have hbuilt : sumsOnly.toDraft.Built :=
    Draft.Built.operator .start (Standard.binary "+" 2 (.arithmetic .add))
  have hoperators : "" ∉ sumsOnly.operatorSymbols := by decide +kernel
  have hfunctions : "" ∉ sumsOnly.functions.names := by decide +kernel
  have haggregators : "" ∉ sumsOnly.aggregators.names := by decide +kernel
  refine ⟨hbuilt, hoperators, hfunctions, haggregators, ?_, ?_⟩
  · rw [lex_eq_scan fun _ _ _ _ _ _ =>
      length_pos_of_named hbuilt hoperators hfunctions haggregators]
    decide +kernel
  · exact accounts_lex hbuilt hoperators hfunctions haggregators "é % +½ 1"

end Lexicon

end LineCalc
