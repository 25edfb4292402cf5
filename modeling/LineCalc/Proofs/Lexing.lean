import LineCalc.Lexicon
import Mathlib.Data.List.Forall2

/-!
# Lexing before an end

Where what follows a text ends a word, belongs to no literal and is reached by no name, the text is
read as it is read alone: the same tokens, wherever they stand in the line. A closing parenthesis is
such an end, if no name holds one.

* **`Lexicon.Ends`**: what has to hold of what follows.
* **`next?_append`**: the first token of a text is the same before an end.
* **`scan_append`**: and so are all of its tokens.
* **`Lexicon.Closes`**: what a lexicon needs for a closing parenthesis to be an end.
-/

namespace LineCalc

open Text

/-- The same token, perhaps at another place. -/
def Token.Similar (a b : Token) : Prop :=
  a.kind = b.kind ∧ a.text = b.text

namespace Lexicon

/-- All names, in the order in which their classes are tried. -/
def names (lx : Lexicon) : List (List Char) :=
  lx.operators ++ lx.functions ++ lx.aggregators ++ lx.units

/-- No token of a text goes on into what follows. -/
structure Ends (lx : Lexicon) (tail : List Char) : Prop where
  boundary : lx.isBoundary tail = true
  digit : ∀ c ∈ tail.head?, isDigit c = false
  mark : ∀ c ∈ tail.head?, c ∉ ['-', ':', lx.decimalSeparator]
  word : ∀ c ∈ tail.head?, (isLetter c || c == '_') = false
  names : ∀ name ∈ lx.names, ∀ cs : List Char, cs.length < name.length →
    lx.admits (cs ++ tail) name = false

/-- A closing parenthesis ends a word and is part of no name and of no number. -/
structure Closes (lx : Lexicon) : Prop where
  delimiter : ')' ∈ lx.delimiters
  separator : lx.decimalSeparator ≠ ')'
  operators : ∀ name ∈ lx.operators, ')' ∉ name
  functions : ∀ name ∈ lx.functions, ')' ∉ name
  aggregators : ∀ name ∈ lx.aggregators, ')' ∉ name
  units : ∀ name ∈ lx.units, ')' ∉ name

end Lexicon

theorem takeWhile_append_cons {α : Type} {p : α → Bool} {a : α} (h : p a = false) (xs ys : List α) :
    (xs ++ a :: ys).takeWhile p = xs.takeWhile p := by
  induction xs with
  | nil => simp [h]
  | cons x xs ih => simp only [List.cons_append, List.takeWhile_cons, ih]

theorem length_takeWhile_le {α : Type} (p : α → Bool) (xs : List α) :
    (xs.takeWhile p).length ≤ xs.length :=
  (List.takeWhile_sublist p).length_le

namespace Lexicon

/-! ## Literals -/

section Ends

variable {lx : Lexicon} {tail : List Char}

theorem takeWhile_append_of_head {p : Char → Bool} (h : ∀ c ∈ tail.head?, p c = false)
    (cs : List Char) : (cs ++ tail).takeWhile p = cs.takeWhile p := by
  cases tail with
  | nil => rw [List.append_nil]
  | cons c rest => exact takeWhile_append_cons (h c rfl) cs rest

theorem hasShape_append {tests : List (Char → Bool)}
    (htests : ∀ test ∈ tests, ∀ c ∈ tail.head?, test c = false) (cs : List Char) :
    hasShape tests (cs ++ tail) = hasShape tests cs := by
  induction tests generalizing cs with
  | nil => simp [hasShape]
  | cons test tests ih =>
    obtain ⟨htest, hothers⟩ := List.forall_mem_cons.1 htests
    cases cs with
    | nil =>
      cases tail with
      | nil => rfl
      | cons d rest => simp [hasShape, htest d rfl]
    | cons c cs => simp [hasShape, ih hothers]

theorem length_le_of_hasShape {tests : List (Char → Bool)} {cs : List Char}
    (h : hasShape tests cs = true) : tests.length ≤ cs.length := by
  induction tests generalizing cs with
  | nil => simp
  | cons test tests ih =>
    cases cs with
    | nil => simp [hasShape] at h
    | cons c cs =>
      simp only [hasShape, Bool.and_eq_true] at h
      simpa using ih h.2

/-- A date or a time is made of digits, hyphens and colons. -/
theorem Ends.hasShape_append (h : lx.Ends tail) {tests : List (Char → Bool)}
    (htests : ∀ test ∈ tests, test = isDigit ∨ test = (· == '-') ∨ test = (· == ':'))
    (cs : List Char) : hasShape tests (cs ++ tail) = hasShape tests cs := by
  refine Lexicon.hasShape_append (fun test hmem c hc => ?_) cs
  have hmark := h.mark c hc
  rcases htests test hmem with rfl | rfl | rfl
  · exact h.digit c hc
  · simp_all
  · simp_all

theorem Ends.dateLength?_append (h : lx.Ends tail) (cs : List Char) :
    dateLength? (cs ++ tail) = dateLength? cs := by
  unfold dateLength?
  rw [h.hasShape_append (by simp)]

theorem Ends.secondsLength_append (h : lx.Ends tail) (cs : List Char) :
    secondsLength (cs ++ tail) = secondsLength cs := by
  unfold secondsLength
  rw [h.hasShape_append (by simp)]

theorem Ends.timeLength?_append (h : lx.Ends tail) (cs : List Char) :
    timeLength? (cs ++ tail) = timeLength? cs := by
  unfold timeLength?
  rw [h.hasShape_append (by simp), h.hasShape_append (by simp)]
  split
  · rename_i hshape
    have hlength : 5 ≤ cs.length := length_le_of_hasShape hshape
    rw [List.drop_append_of_le_length hlength, h.secondsLength_append]
  split
  · rename_i hshape
    have hlength : 4 ≤ cs.length := length_le_of_hasShape hshape
    rw [List.drop_append_of_le_length hlength, h.secondsLength_append]
  · rfl

theorem Ends.digitCount_append (h : lx.Ends tail) (cs : List Char) :
    digitCount (cs ++ tail) = digitCount cs := by
  rw [digitCount, digitCount, takeWhile_append_of_head h.digit]

theorem Ends.fractionLength_append (h : lx.Ends tail) (cs : List Char) :
    fractionLength lx.decimalSeparator (cs ++ tail) = fractionLength lx.decimalSeparator cs := by
  cases cs with
  | nil =>
    cases tail with
    | nil => rfl
    | cons d rest =>
      have hmark := h.mark d rfl
      simp_all [fractionLength]
  | cons c cs => simp only [List.cons_append, fractionLength, h.digitCount_append]

theorem Ends.numberLength?_append (h : lx.Ends tail) (cs : List Char) :
    numberLength? lx.decimalSeparator (cs ++ tail) = numberLength? lx.decimalSeparator cs := by
  have hdigits : digitCount cs ≤ cs.length := length_takeWhile_le isDigit cs
  simp only [numberLength?, h.digitCount_append, List.drop_append_of_le_length hdigits,
    h.fractionLength_append]

theorem Ends.wordLength?_append (h : lx.Ends tail) (cs : List Char) :
    wordLength? (cs ++ tail) = wordLength? cs := by
  unfold wordLength?
  rw [takeWhile_append_of_head h.word]

/-! ## Names -/

/-- A name stands before an end where it stands at the end of the text. -/
theorem Ends.admits_append (h : lx.Ends tail) {name : List Char} (hname : name ∈ lx.names)
    (cs : List Char) : lx.admits (cs ++ tail) name = lx.admits cs name := by
  by_cases hlength : name.length ≤ cs.length
  · have hboundary : lx.isBoundary (cs.drop name.length ++ tail) =
        lx.isBoundary (cs.drop name.length) := by
      cases cs.drop name.length with
      | nil => exact h.boundary
      | cons c cs => rfl
    unfold admits
    rw [List.take_append_of_le_length hlength, List.drop_append_of_le_length hlength, hboundary]
  · -- alone the text is too short for the name
    have hshort : ((cs.take name.length).length == name.length) = false := by
      rw [beq_eq_false_iff_ne, List.length_take]
      omega
    rw [h.names name hname cs (Nat.lt_of_not_le hlength)]
    simp only [admits, hshort, Bool.false_and]

theorem Ends.nameLength?_append (h : lx.Ends tail) {names : List (List Char)}
    (hnames : ∀ name ∈ names, name ∈ lx.names) (cs : List Char) :
    lx.nameLength? names (cs ++ tail) = lx.nameLength? names cs := by
  unfold nameLength?
  congr 1
  induction names with
  | nil => rfl
  | cons name names ih =>
    obtain ⟨hname, hothers⟩ := List.forall_mem_cons.1 hnames
    rw [List.find?_cons, List.find?_cons, h.admits_append hname, ih hothers]

/-! ## The first token -/

/-- Only a comment depends on whether the text is at the start of the line. -/
theorem next?_atStart {c : Char} {cs : List Char} (hc : c ≠ '#') {atStart : Bool} :
    lx.next? atStart (c :: cs) = lx.next? false (c :: cs) := by
  have hcomment : comment? atStart (c :: cs) = comment? false (c :: cs) := by simp [comment?, hc]
  simp only [next?, recognizers, List.findSome?_cons, hcomment]

/-- The first token of a text is the same before an end, unless it is a comment. -/
theorem next?_append (h : lx.Ends tail) {atStart : Bool} {c : Char} {cs : List Char}
    (hstart : atStart = true → c ≠ '#') :
    lx.next? false (c :: (cs ++ tail)) = lx.next? atStart (c :: cs) := by
  have halone : lx.next? atStart (c :: cs) = lx.next? false (c :: cs) := by
    cases atStart with
    | false => rfl
    | true => exact next?_atStart (hstart rfl)
  rw [halone, ← List.cons_append]
  have hcomment : comment? false (c :: cs ++ tail) = comment? false (c :: cs) := rfl
  have hstructure : structure? (c :: cs ++ tail) = structure? (c :: cs) := rfl
  have hnames : ∀ class_ ∈ [lx.operators, lx.functions, lx.aggregators, lx.units],
      lx.nameLength? class_ (c :: cs ++ tail) = lx.nameLength? class_ (c :: cs) := by
    intro class_ hclass
    refine h.nameLength?_append (fun name hname => ?_) (c :: cs)
    simp only [List.mem_cons, List.not_mem_nil, or_false] at hclass
    simp only [names, List.mem_append]
    rcases hclass with rfl | rfl | rfl | rfl <;> simp [hname]
  simp only [List.forall_mem_cons] at hnames
  obtain ⟨hoperators, hfunctions, haggregators, hunits, -⟩ := hnames
  simp only [next?, recognizers, List.findSome?_cons, List.findSome?_nil, hcomment, hstructure,
    h.dateLength?_append, h.timeLength?_append, h.numberLength?_append, hoperators,
    hfunctions, haggregators, hunits, h.wordLength?_append]

end Ends

/-! ## A closing parenthesis -/

theorem mem_lowerAfter {cs : List Char} (h : ')' ∈ cs) (before : List Char) :
    ')' ∈ lowerAfter before cs := by
  induction cs generalizing before with
  | nil => cases h
  | cons c cs ih =>
    rw [lowerAfter, List.mem_append]
    rcases List.mem_cons.1 h with rfl | h
    · have hlower : lowerChar ')' = [')'] := by decide
      simp [hlower]
    · exact .inr (ih h _)

/-- A name without a closing parenthesis does not reach into a text that starts with one. -/
theorem not_admits_closeParen {lx : Lexicon} {name cs : List Char} (hname : ')' ∉ name)
    (hlength : cs.length < name.length) (rest : List Char) :
    lx.admits (cs ++ ')' :: rest) name = false := by
  have hparen : ')' ∈ (cs ++ ')' :: rest).take name.length := by
    rw [List.take_append, List.mem_append]
    -- at least one character is taken after the text, and the first one is the parenthesis
    right
    obtain ⟨n, hn⟩ : ∃ n, name.length - cs.length = n + 1 := ⟨name.length - cs.length - 1, by omega⟩
    rw [hn, List.take_succ_cons]
    exact List.mem_cons_self ..
  have hlower : (lower ((cs ++ ')' :: rest).take name.length) == name) = false := by
    rw [beq_eq_false_iff_ne]
    intro heq
    exact hname (heq ▸ mem_lowerAfter hparen [])
  simp only [admits, hlower, Bool.false_and, Bool.and_false]

theorem Closes.ends {lx : Lexicon} (h : lx.Closes) (rest : List Char) : lx.Ends (')' :: rest) where
  boundary := by simp [isBoundary, h.delimiter]
  digit := by
    rintro _ ⟨⟩
    decide
  mark := by
    rintro _ ⟨⟩
    simp [h.separator.symm]
  word := by
    rintro _ ⟨⟩
    decide
  names := by
    intro name hname cs hlength
    have hparen : ')' ∉ name := by
      simp only [names, List.mem_append] at hname
      rcases hname with ((hname | hname) | hname) | hname
      · exact h.operators name hname
      · exact h.functions name hname
      · exact h.aggregators name hname
      · exact h.units name hname
    exact not_admits_closeParen hparen hlength rest

/-! ## The length of a token -/

theorem length_le_of_dateLength? {cs : List Char} {n : Nat} (h : dateLength? cs = some n) :
    n ≤ cs.length := by
  unfold dateLength? at h
  split at h <;> cases h
  rename_i hshape
  exact length_le_of_hasShape hshape

theorem secondsLength_le (cs : List Char) : secondsLength cs ≤ cs.length := by
  unfold secondsLength
  split
  · rename_i hshape
    exact length_le_of_hasShape hshape
  · exact Nat.zero_le _

theorem length_le_of_timeLength? {cs : List Char} {n : Nat} (h : timeLength? cs = some n) :
    n ≤ cs.length := by
  unfold timeLength? at h
  split at h
  · rename_i hshape
    have hlength : 5 ≤ cs.length := length_le_of_hasShape hshape
    have hseconds := secondsLength_le (cs.drop 5)
    rw [List.length_drop] at hseconds
    cases h
    omega
  split at h <;> cases h
  rename_i hshape
  have hlength : 4 ≤ cs.length := length_le_of_hasShape hshape
  have hseconds := secondsLength_le (cs.drop 4)
  rw [List.length_drop] at hseconds
  omega

theorem fractionLength_le (separator : Char) (cs : List Char) :
    fractionLength separator cs ≤ cs.length := by
  cases cs with
  | nil => exact Nat.le_refl 0
  | cons c cs =>
    have hdigits : digitCount cs ≤ cs.length := length_takeWhile_le isDigit cs
    simp only [fractionLength, List.length_cons]
    split <;> omega

theorem length_le_of_numberLength? {separator : Char} {cs : List Char} {n : Nat}
    (h : numberLength? separator cs = some n) : n ≤ cs.length := by
  have hdigits : digitCount cs ≤ cs.length := length_takeWhile_le isDigit cs
  have hfraction := fractionLength_le separator (cs.drop (digitCount cs))
  rw [List.length_drop] at hfraction
  unfold numberLength? at h
  dsimp only at h
  split at h <;> cases h
  omega

theorem length_le_of_admits {lx : Lexicon} {cs name : List Char} (h : lx.admits cs name = true) :
    name.length ≤ cs.length := by
  simp only [admits, Bool.and_eq_true, beq_iff_eq, List.length_take] at h
  omega

theorem length_le_of_nameLength? {lx : Lexicon} {names : List (List Char)} {cs : List Char}
    {n : Nat} (h : lx.nameLength? names cs = some n) : n ≤ cs.length := by
  obtain ⟨name, hname, rfl⟩ := Option.map_eq_some_iff.1 h
  exact length_le_of_admits (List.find?_some hname)

theorem length_le_of_wordLength? {cs : List Char} {n : Nat} (h : wordLength? cs = some n) :
    n ≤ cs.length := by
  unfold wordLength? at h
  dsimp only at h
  split at h <;> cases h
  exact length_takeWhile_le _ cs

theorem structureKind?_eq_some {c : Char} {kind : TokenKind} (h : structureKind? c = some kind) :
    kind = .assignment ∨ kind = .openParen ∨ kind = .closeParen ∨ kind = .semicolon := by
  unfold structureKind? at h
  (repeat' split at h) <;> cases h <;> decide

/-- What one of the recognizers finds at the start of a text. -/
inductive Recognized (lx : Lexicon) (cs : List Char) : TokenKind → Nat → Prop where
  | comment {c : Char} {rest : List Char} (hcs : cs = c :: rest) :
      Recognized lx cs .comment (rest.length + 1)
  | structural {c : Char} {rest : List Char} {kind : TokenKind} (hcs : cs = c :: rest)
      (hkind : structureKind? c = some kind) : Recognized lx cs kind 1
  | date {n : Nat} (h : dateLength? cs = some n) : Recognized lx cs .date n
  | time {n : Nat} (h : timeLength? cs = some n) : Recognized lx cs .time n
  | number {n : Nat} (h : numberLength? lx.decimalSeparator cs = some n) :
      Recognized lx cs .number n
  | operator {n : Nat} (h : lx.nameLength? lx.operators cs = some n) : Recognized lx cs .operator n
  | function {n : Nat} (h : lx.nameLength? lx.functions cs = some n) : Recognized lx cs .function n
  | aggregator {n : Nat} (h : lx.nameLength? lx.aggregators cs = some n) :
      Recognized lx cs .aggregator n
  | unit {n : Nat} (h : lx.nameLength? lx.units cs = some n) : Recognized lx cs .unit n
  | word {n : Nat} (h : wordLength? cs = some n) : Recognized lx cs .identifier n

theorem recognized_of_next? {lx : Lexicon} {atStart : Bool} {cs : List Char} {kind : TokenKind}
    {n : Nat} (h : lx.next? atStart cs = some (kind, n)) : lx.Recognized cs kind n := by
  obtain ⟨recognizer, hmem, hfound⟩ := List.exists_of_findSome?_eq_some h
  simp only [recognizers, List.mem_cons, List.not_mem_nil, or_false] at hmem
  -- one case for each recognizer, in the order in which they are tried
  rcases hmem with rfl | rfl | rfl | rfl | rfl | rfl | rfl | rfl | rfl | rfl
  case _ =>
    cases cs with
    | nil => cases hfound
    | cons c cs =>
      simp only [comment?] at hfound
      split at hfound <;> cases hfound
      exact .comment rfl
  case _ =>
    cases cs with
    | nil => cases hfound
    | cons c cs =>
      obtain ⟨_, hkind, heq⟩ := Option.map_eq_some_iff.1 hfound
      cases heq
      exact .structural rfl hkind
  all_goals
    obtain ⟨length, hlength, heq⟩ := Option.map_eq_some_iff.1 hfound
    cases heq
  · exact .date hlength
  · exact .time hlength
  · exact .number hlength
  · exact .operator hlength
  · exact .function hlength
  · exact .aggregator hlength
  · exact .unit hlength
  · exact .word hlength

/-- A token is no longer than the text. -/
theorem length_le_of_next? {lx : Lexicon} {atStart : Bool} {cs : List Char} {kind : TokenKind}
    {n : Nat} (h : lx.next? atStart cs = some (kind, n)) : n ≤ cs.length := by
  cases recognized_of_next? h with
  | comment hcs | structural hcs => simp [hcs]
  | date h => exact length_le_of_dateLength? h
  | time h => exact length_le_of_timeLength? h
  | number h => exact length_le_of_numberLength? h
  | operator h | function h | aggregator h | unit h => exact length_le_of_nameLength? h
  | word h => exact length_le_of_wordLength? h

/-! ## All tokens -/

/-- Whatever is recognized where a token may start has characters. -/
def Advances (lx : Lexicon) : Prop :=
  ∀ (atStart : Bool) (c : Char) (rest : List Char) (kind : TokenKind) (n : Nat),
    isBlank c = false → lx.next? atStart (c :: rest) = some (kind, n) → 0 < n

/--
The tokens of a text that starts at a byte offset, and what is left where nothing is recognized:
the reading as one recursion, which takes a name without characters for nothing and so always ends.
-/
def scan (lx : Lexicon) (offset : Nat) (atStart : Bool) (cs : List Char) :
    List Token × Option (List Char) :=
  match _htext : trimStart cs with
  | [] => ([], none)
  | c :: rest =>
    let start := offset + byteLength (cs.takeWhile isBlank)
    match lx.next? atStart (c :: rest) with
    | none => ([], some (c :: rest))
    | some (_, 0) => ([], some (c :: rest))
    | some (kind, length + 1) =>
      let text := (c :: rest).take (length + 1)
      let (tokens, unread) :=
        lx.scan (start + byteLength text) false (rest.drop length)
      (⟨kind, String.ofList text, start⟩ :: tokens, unread)
termination_by cs.length
decreasing_by
  have hle := length_trimStart_le cs
  rw [_htext, List.length_cons] at hle
  rw [List.length_drop]
  omega

section Reading

variable {lx : Lexicon} {offset : Nat} {reversed : List Token} {cs rest : List Char} {c : Char}
  {kind : TokenKind}

theorem trimStart_cons_of_not_blank (h : isBlank c = false) : trimStart (c :: rest) = c :: rest := by
  simp [trimStart, h]

theorem readFrom?_of_blank (htrim : trimStart cs = []) :
    lx.readFrom? offset reversed cs = some (reversed.reverse, none) := by
  rw [readFrom?, htrim]

theorem readFrom?_of_none (htrim : trimStart cs = c :: rest)
    (hnone : lx.next? reversed.isEmpty (c :: rest) = none) :
    lx.readFrom? offset reversed cs = some (reversed.reverse, some (c :: rest)) := by
  rw [readFrom?, htrim]
  simp only [hnone]

theorem readFrom?_of_next? {n : Nat} (htrim : trimStart cs = c :: rest)
    (hnext : lx.next? reversed.isEmpty (c :: rest) = some (kind, n)) :
    lx.readFrom? offset reversed cs =
      lx.readFrom? (offset + byteLength (cs.takeWhile isBlank) + byteLength ((c :: rest).take n))
        (⟨kind, String.ofList ((c :: rest).take n), offset + byteLength (cs.takeWhile isBlank)⟩ ::
          reversed) ((c :: rest).drop n) := by
  rw [readFrom?, htrim]
  simp only [hnext]

/-- What is recognized without characters at the start of a line is so at any other place. -/
theorem next?_of_zero {atStart : Bool} (h : lx.next? atStart (c :: rest) = some (kind, 0)) :
    lx.next? false (c :: rest) = some (kind, 0) := by
  cases atStart with
  | false => exact h
  | true =>
    -- a comment has characters
    by_cases hc : c = '#'
    · simp [next?, recognizers, comment?, hc] at h
    · rwa [← next?_atStart hc]

/-- Where a name without characters is found, the reading does not end. -/
theorem readFrom?_eq_none (htrim : trimStart cs = c :: rest)
    (hzero : lx.next? reversed.isEmpty (c :: rest) = some (kind, 0)) :
    lx.readFrom? offset reversed cs = none := by
  rw [Option.eq_none_iff_forall_ne_some]
  intro result hresult
  -- a reading that ends has passed no such place: each step would come back to the same one
  refine readFrom?.partial_correctness lx (fun _ reversed cs _ => ∀ c rest kind,
    trimStart cs = c :: rest → lx.next? reversed.isEmpty (c :: rest) ≠ some (kind, 0)) ?_
    offset reversed cs result hresult c rest kind htrim hzero
  intro readOn ih offset reversed cs result hresult c rest kind htrim hzero
  rw [htrim] at hresult
  simp only [hzero, List.drop_zero] at hresult
  exact ih _ _ _ _ hresult c rest kind
    (trimStart_cons_of_not_blank (isBlank_of_trimStart_eq_cons htrim)) (next?_of_zero hzero)

/-- The reading gives what the recursion gives, or it comes to a name without characters. -/
theorem readFrom?_eq_scan_or (lx : Lexicon) (offset : Nat) (reversed : List Token) (cs : List Char) :
    lx.readFrom? offset reversed cs =
        some (reversed.reverse ++ (lx.scan offset reversed.isEmpty cs).1,
          (lx.scan offset reversed.isEmpty cs).2) ∨
      lx.readFrom? offset reversed cs = none ∧ (lx.scan offset reversed.isEmpty cs).2.isSome ∧
        ¬lx.Advances := by
  generalize hstart : reversed.isEmpty = atStart
  -- the cases of the scan: nothing left, nothing recognized, no character taken, a token
  fun_induction scan lx offset atStart cs generalizing reversed with
  | case1 offset atStart cs htrim =>
    left
    rw [readFrom?_of_blank htrim, List.append_nil]
  | case2 offset atStart cs c rest htrim hnone =>
    left
    rw [← hstart] at hnone
    rw [readFrom?_of_none htrim hnone, List.append_nil]
  | case3 offset atStart cs c rest htrim kind hzero =>
    right
    rw [← hstart] at hzero
    refine ⟨readFrom?_eq_none htrim hzero, rfl, fun hadvances => ?_⟩
    exact Nat.lt_irrefl 0 (hadvances _ _ _ _ _ (isBlank_of_trimStart_eq_cons htrim) hzero)
  | case4 offset atStart cs c rest htrim start kind length hnext text later left =>
    rename_i hscan ih
    rw [← hstart] at hnext
    rw [readFrom?_of_next? htrim hnext]
    have hmore := @ih (⟨kind, String.ofList text, start⟩ :: reversed) rfl
    rw [hscan, List.reverse_cons, List.append_assoc, List.singleton_append] at hmore
    exact hmore

/-- Where every token has characters, the reading gives what the recursion gives. -/
theorem readFrom?_eq_scan (hadvances : lx.Advances) (offset : Nat) (reversed : List Token)
    (cs : List Char) :
    lx.readFrom? offset reversed cs =
      some (reversed.reverse ++ (lx.scan offset reversed.isEmpty cs).1,
        (lx.scan offset reversed.isEmpty cs).2) := by
  rcases readFrom?_eq_scan_or lx offset reversed cs with h | ⟨-, -, hstalls⟩
  · exact h
  · exact absurd hadvances hstalls

end Reading

theorem lex_eq_ok {lx : Lexicon} {line : String} {tokens : List Token} :
    lx.lex line = .ok tokens ↔ lx.scan 0 true line.toList = (tokens, none) := by
  unfold lex read?
  have hread : lx.readFrom? 0 [] line.toList =
        some ((lx.scan 0 true line.toList).1, (lx.scan 0 true line.toList).2) ∨
      lx.readFrom? 0 [] line.toList = none ∧ (lx.scan 0 true line.toList).2.isSome :=
    (readFrom?_eq_scan_or lx 0 [] line.toList).imp_right fun ⟨hnone, hunread, _⟩ => ⟨hnone, hunread⟩
  generalize lx.scan 0 true line.toList = scanned at hread
  obtain ⟨found, _ | unread⟩ := scanned
  · simp [hread.resolve_right (by simp)]
  · rcases hread with hread | ⟨hread, -⟩ <;> simp [hread]

/-- Where every token has characters, a line is read by the recursion, and the reading ends. -/
theorem read?_eq_scan {lx : Lexicon} (hadvances : lx.Advances) (line : String) :
    lx.read? line = some
      (match lx.scan 0 true line.toList with
      | (tokens, none) => .ok tokens
      | (tokens, some unread) => .error ⟨String.ofList unread, tokens⟩) := by
  unfold read?
  rw [readFrom?_eq_scan hadvances, List.reverse_nil, List.nil_append, List.isEmpty_nil]
  generalize lx.scan 0 true line.toList = scanned
  obtain ⟨found, _ | unread⟩ := scanned <;> rfl

/-- The reading of every line ends exactly where whatever is recognized has characters. -/
theorem isSome_read?_iff {lx : Lexicon} :
    (∀ line, (lx.read? line).isSome = true) ↔ lx.Advances := by
  constructor
  · intro hends atStart c rest kind n hc hnext
    refine Nat.pos_of_ne_zero ?_
    rintro rfl
    -- after an opening parenthesis the text is no longer at the start of the line
    have hzero : lx.next? false (c :: rest) = some (kind, 0) := next?_of_zero hnext
    have hparen : lx.next? true ('(' :: c :: rest) = some (.openParen, 1) := by
      simp [next?, recognizers, comment?, structure?, structureKind?]
    have hstalls : lx.readFrom? 0 [] ('(' :: c :: rest) = none := by
      rw [readFrom?_of_next? (trimStart_cons_of_not_blank (by decide)) hparen, List.drop_one,
        List.tail_cons]
      exact readFrom?_eq_none (trimStart_cons_of_not_blank hc) hzero
    have hline := hends (String.ofList ('(' :: c :: rest))
    rw [read?, String.toList_ofList, hstalls] at hline
    cases hline
  · intro hadvances line
    rw [read?_eq_scan hadvances, Option.isSome_some]

theorem lex_eq_scan {lx : Lexicon} (hadvances : lx.Advances) (line : String) :
    lx.lex line =
      match lx.scan 0 true line.toList with
      | (tokens, none) => .ok tokens
      | (tokens, some unread) => .error ⟨String.ofList unread, tokens⟩ := by
  rw [lex, read?_eq_scan hadvances, Option.getD_some]

/-- The text of a token is what some text of the line starts with. -/
theorem exists_next?_of_mem_scan {lx : Lexicon} {offset : Nat} {atStart : Bool} {cs : List Char}
    {tokens : List Token} {unread : Option (List Char)}
    (h : lx.scan offset atStart cs = (tokens, unread)) {t : Token} (ht : t ∈ tokens) :
    ∃ atStart text n, lx.next? atStart text = some (t.kind, n) ∧ t.text.toList = text.take n := by
  fun_induction scan lx offset atStart cs generalizing tokens unread with
  | case1 | case2 | case3 =>
    cases h
    cases ht
  | case4 offset atStart cs c rest _ start kind length hnext text later left =>
    rename_i hscan ih
    cases h
    rcases List.mem_cons.1 ht with rfl | ht
    · exact ⟨atStart, c :: rest, length + 1, hnext, String.toList_ofList⟩
    · exact ih hscan ht

theorem scan_of_blank {lx : Lexicon} {offset : Nat} {atStart : Bool} {cs : List Char}
    (htrim : trimStart cs = []) : lx.scan offset atStart cs = ([], none) := by
  rw [scan]
  split
  · rfl
  · rename_i heq
    rw [htrim] at heq
    cases heq

/-- The reading of a text that is not blank starts with the first token, if there is one. -/
theorem scan_of_cons {lx : Lexicon} {atStart : Bool} {cs rest : List Char} {c : Char}
    (htrim : trimStart cs = c :: rest) (offset : Nat) :
    lx.scan offset atStart cs =
      let start := offset + byteLength (cs.takeWhile isBlank)
      match lx.next? atStart (c :: rest) with
      | none | some (_, 0) => ([], some (c :: rest))
      | some (kind, n + 1) =>
        let text := (c :: rest).take (n + 1)
        (⟨kind, String.ofList text, start⟩ ::
            (lx.scan (start + byteLength text) false (rest.drop n)).1,
          (lx.scan (start + byteLength text) false (rest.drop n)).2) := by
  rw [scan]
  split
  · rename_i heq
    rw [htrim] at heq
    cases heq
  · rename_i d more heq
    rw [htrim] at heq
    cases heq
    rfl

/-- The first token of a text stands after the white space, and the rest is read from its end. -/
theorem scan_eq_of_next? {lx : Lexicon} {atStart : Bool} {cs rest : List Char} {c : Char}
    {kind : TokenKind} {n : Nat} (htrim : trimStart cs = c :: rest)
    (hnext : lx.next? atStart (c :: rest) = some (kind, n + 1)) (offset : Nat) :
    lx.scan offset atStart cs =
      let start := offset + byteLength (cs.takeWhile isBlank)
      let text := (c :: rest).take (n + 1)
      (⟨kind, String.ofList text, start⟩ ::
          (lx.scan (start + byteLength text) false (rest.drop n)).1,
        (lx.scan (start + byteLength text) false (rest.drop n)).2) := by
  rw [scan_of_cons htrim, hnext]

theorem scan_of_next? {lx : Lexicon} {atStart : Bool} {cs rest : List Char} {c : Char}
    {kind : TokenKind} {n : Nat} (htrim : trimStart cs = c :: rest)
    (hnext : lx.next? atStart (c :: rest) = some (kind, n + 1)) (offset : Nat) :
    ∃ start after, lx.scan offset atStart cs =
      (⟨kind, String.ofList ((c :: rest).take (n + 1)), start⟩ ::
        (lx.scan after false (rest.drop n)).1, (lx.scan after false (rest.drop n)).2) :=
  ⟨_, _, scan_eq_of_next? htrim hnext offset⟩

/-- A text that starts with a token after some white space, and the rest of it. -/
theorem scan_eq_of_token {lx : Lexicon} {atStart : Bool} {cs word rest : List Char}
    {kind : TokenKind} (hword : word ≠ []) (htrim : trimStart cs = word ++ rest)
    (hnext : lx.next? atStart (word ++ rest) = some (kind, word.length)) (offset : Nat) :
    lx.scan offset atStart cs =
      let start := offset + byteLength (cs.takeWhile isBlank)
      (⟨kind, String.ofList word, start⟩ :: (lx.scan (start + byteLength word) false rest).1,
        (lx.scan (start + byteLength word) false rest).2) := by
  obtain ⟨c, more, rfl⟩ := List.exists_cons_of_ne_nil hword
  rw [List.cons_append] at htrim hnext
  have hscan := scan_eq_of_next? htrim hnext offset
  have htake : (c :: (more ++ rest)).take (more.length + 1) = c :: more := by
    rw [List.take_succ_cons, List.take_left]
  rwa [htake, List.drop_left] at hscan

theorem scan_token {lx : Lexicon} {atStart : Bool} {cs word rest : List Char} {kind : TokenKind}
    (hword : word ≠ []) (htrim : trimStart cs = word ++ rest)
    (hnext : lx.next? atStart (word ++ rest) = some (kind, word.length)) (offset : Nat) :
    ∃ start after, lx.scan offset atStart cs =
      (⟨kind, String.ofList word, start⟩ :: (lx.scan after false rest).1,
        (lx.scan after false rest).2) :=
  ⟨_, _, scan_eq_of_token hword htrim hnext offset⟩

theorem trimStart_append_of_cons {cs rest : List Char} {c : Char} (h : trimStart cs = c :: rest)
    (tail : List Char) : trimStart (cs ++ tail) = c :: (rest ++ tail) := by
  unfold trimStart at *
  rw [List.dropWhile_append, h]
  rfl

theorem trimStart_append_of_nil {cs : List Char} (h : trimStart cs = []) (tail : List Char) :
    trimStart (cs ++ tail) = trimStart tail := by
  unfold trimStart at *
  rw [List.dropWhile_append, h]
  rfl

/--
A text that is no comment is read before an end as it is read alone: the same tokens, and the same
rest, if there is one. If there is none, what follows is read next, after what white space is left.
-/
theorem scan_append {lx : Lexicon} {tail : List Char} (htail : lx.Ends tail) {offset : Nat}
    {atStart : Bool} {cs : List Char} (hstart : atStart = true → (trimStart cs).head? ≠ some '#')
    (start : Nat) :
    ∃ similar, List.Forall₂ Token.Similar (lx.scan offset atStart cs).1 similar ∧
      match (lx.scan offset atStart cs).2 with
      | some unread => lx.scan start false (cs ++ tail) = (similar, some (unread ++ tail))
      | none => ∃ gap after, trimStart gap = [] ∧ lx.scan start false (cs ++ tail) =
          (similar ++ (lx.scan after false (gap ++ tail)).1,
            (lx.scan after false (gap ++ tail)).2) := by
  -- the cases of the scan: nothing left, nothing recognized, no character taken, a token
  fun_induction scan lx offset atStart cs generalizing start with
  | case1 offset atStart cs htrim => exact ⟨[], .nil, cs, start, htrim, rfl⟩
  | case2 offset atStart cs c rest htrim hnone =>
    refine ⟨[], .nil, ?_⟩
    rw [scan_of_cons (trimStart_append_of_cons htrim tail),
      next?_append htail (fun hat => by simpa [htrim] using hstart hat), hnone]
    rfl
  | case3 offset atStart cs c rest htrim kind hzero =>
    refine ⟨[], .nil, ?_⟩
    rw [scan_of_cons (trimStart_append_of_cons htrim tail),
      next?_append htail (fun hat => by simpa [htrim] using hstart hat), hzero]
    rfl
  | case4 offset atStart cs c rest htrim first kind length hnext text later left =>
    rename_i hscan ih
    have hlength : length + 1 ≤ (c :: rest).length := length_le_of_next? hnext
    have htake : (c :: (rest ++ tail)).take (length + 1) = text :=
      List.take_append_of_le_length hlength
    have hdrop : (rest ++ tail).drop length = rest.drop length ++ tail :=
      List.drop_append_of_le_length (by simpa using hlength)
    -- the first token is the same, and what follows it is read before the end too
    rw [← next?_append htail (fun hat => by simpa [htrim] using hstart hat)] at hnext
    have hfirst := scan_eq_of_next? (trimStart_append_of_cons htrim tail) hnext start
    rw [htake, hdrop] at hfirst
    dsimp only at hfirst
    generalize start + byteLength ((cs ++ tail).takeWhile isBlank) = position at hfirst
    obtain ⟨similar, hsimilar, hrest⟩ := ih (by simp) (position + byteLength text)
    rw [hscan] at hsimilar hrest
    refine ⟨⟨kind, String.ofList text, position⟩ :: similar, .cons ⟨rfl, rfl⟩ hsimilar, ?_⟩
    cases left with
    | some unread =>
      dsimp only at hrest ⊢
      rw [hfirst, hrest]
    | none =>
      obtain ⟨gap, after, hgap, hrest⟩ := hrest
      exact ⟨gap, after, hgap, by rw [hfirst, hrest, List.cons_append]⟩

theorem scan_closeParen (lx : Lexicon) {cs rest : List Char} (htrim : trimStart cs = ')' :: rest)
    (start : Nat) :
    ∃ position after, lx.scan start false cs =
      (⟨.closeParen, ")", position⟩ :: (lx.scan after false rest).1, (lx.scan after false rest).2) := by
  have hnext : lx.next? false (')' :: rest) = some (.closeParen, 0 + 1) := rfl
  exact scan_of_next? htrim hnext start

/-- A text that is no comment is read before a closing parenthesis as it is read alone. -/
theorem scan_append_closeParen {lx : Lexicon} (hlx : lx.Closes) {offset : Nat} {atStart : Bool}
    {cs : List Char} {tokens : List Token} (h : lx.scan offset atStart cs = (tokens, none))
    (hstart : atStart = true → (trimStart cs).head? ≠ some '#') (start : Nat) (rest : List Char) :
    ∃ similar position after, List.Forall₂ Token.Similar tokens similar ∧
      lx.scan start false (cs ++ ')' :: rest) =
        (similar ++ ⟨.closeParen, ")", position⟩ :: (lx.scan after false rest).1,
          (lx.scan after false rest).2) := by
  obtain ⟨similar, hsimilar, hscan⟩ := scan_append (hlx.ends rest) hstart start
  rw [h] at hsimilar hscan
  obtain ⟨gap, between, hgap, hscan⟩ := hscan
  have htrim : trimStart (gap ++ ')' :: rest) = ')' :: rest := by
    rw [trimStart_append_of_nil hgap]
    exact trimStart_cons_of_not_blank (by decide)
  obtain ⟨position, after, hclose⟩ := scan_closeParen lx htrim between
  rw [hclose] at hscan
  exact ⟨similar, position, after, hsimilar, hscan⟩

end Lexicon

end LineCalc
