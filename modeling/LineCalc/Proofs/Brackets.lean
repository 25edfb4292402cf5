import LineCalc.Config.Standard
import LineCalc.Plan.OfTokens
import LineCalc.Proofs.Expression.Reading

/-!
# What makes a plan

Whether tokens make a plan is a matter of brackets and separators. The operators may stand anywhere,
whatever their precedences are: how they group decides what is computed, and not whether there is a
plan.

* **`openBrackets`**: the brackets that are open after some tokens; the scan knows no operators.
* **`WellBracketed`**: what is asked of tokens, of each at its place and of the brackets at the end.
* **`ParseState.Tracks`**: the reading agrees with the scan about what is open and what may follow.
* **`ofTokens_eq_ok_iff`**: tokens make a plan exactly when they are well bracketed.
-/

namespace LineCalc

/-! ## Brackets and operands -/

/-- An open bracket. -/
inductive Bracket where
  | paren
  /-- The parenthesis of a call, with the number of separators that it has had so far. -/
  | call (separators : Nat)
  deriving Repr, DecidableEq

/-- The brackets after a separator, which counts for the innermost one if that is a call. -/
def Bracket.separate : List Bracket → List Bracket
  | .call separators :: outer => .call (separators + 1) :: outer
  | brackets => brackets

/-- The brackets that are open after tokens given last first, innermost first. -/
def openAfter : List Token → List Bracket
  | [] => []
  | t :: earlier =>
    match t.kind with
    | .openParen =>
      (if earlier.head?.any (·.kind = .function) then .call 0 else .paren) :: openAfter earlier
    | .closeParen => (openAfter earlier).tail
    | .semicolon => Bracket.separate (openAfter earlier)
    | _ => openAfter earlier

/-- The brackets that are open after some tokens, innermost first. -/
def openBrackets (tokens : List Token) : List Bracket :=
  openAfter tokens.reverse

/-- Whether an operand ends with a token of the kind. -/
def TokenKind.endsOperand : TokenKind → Bool
  | .number | .date | .time | .unit | .aggregator | .identifier | .closeParen => true
  | _ => false

/-- Whether the last token, comments left aside, ends an operand. -/
def endsOperand (tokens : List Token) : Bool :=
  (tokens.filter (·.kind ≠ .comment)).getLast?.any (·.kind.endsOperand)

/-- Literals are written right, and names are in the vocabulary. -/
def Token.Resolves (config : Config) (t : Token) : Prop :=
  match t.kind with
  | .number => ∃ value, config.format.read t.text = .ok value
  | .date => ∃ date, Date.read? t.text.toList = some date
  | .time => ∃ time, TimeOfDay.read? t.text.toList = some time
  | .operator =>
    (∃ op, config.unaryOperators.find? t.text = some op) ∨
      ∃ op, config.binaryOperators.find? t.text = some op
  | .unit => ∃ unit, config.units.lookup t.text = some unit
  | .function => ∃ function, config.functions.find? t.text = some function
  | .aggregator => ∃ aggregator, config.aggregators.find? t.text = some aggregator
  | _ => True

/-- What is asked of tokens that are to make a plan. -/
structure WellBracketed (config : Config) (tokens : List Token) : Prop where
  resolves : ∀ t ∈ tokens, t.Resolves config
  /-- A function is called at once. -/
  called : ∀ before t after, tokens = before ++ t :: after → t.kind = .function →
    ∃ next ∈ after.head?, next.kind = .openParen
  /-- A word stands right before an assignment. -/
  named : ∀ before t after, tokens = before ++ t :: after → t.kind = .assignment →
    ∃ last ∈ before.getLast?, last.kind = .identifier
  /-- Only what is open is closed. -/
  opened : ∀ before t after, tokens = before ++ t :: after → t.kind = .closeParen →
    openBrackets before ≠ []
  /-- All that is opened is closed. -/
  closed : openBrackets tokens = []
  /-- A separator stands in a call, after an operand. -/
  separates : ∀ before t after, tokens = before ++ t :: after → t.kind = .semicolon →
    (∃ separators outer, openBrackets before = .call separators :: outer) ∧
      endsOperand before = true
  /-- After a separator there is one more argument. -/
  completed : ∀ before t after, tokens = before ++ t :: after → t.kind = .closeParen →
    ∀ separators outer, openBrackets before = .call (separators + 1) :: outer →
      endsOperand before = true

/-! ## One token more -/

section

variable {before : List Token} {t : Token}

theorem openBrackets_concat (before : List Token) (t : Token) :
    openBrackets (before ++ [t]) =
      match t.kind with
      | .openParen =>
        (if before.getLast?.any (·.kind = .function) then .call 0 else .paren) ::
          openBrackets before
      | .closeParen => (openBrackets before).tail
      | .semicolon => Bracket.separate (openBrackets before)
      | _ => openBrackets before := by
  rw [openBrackets, List.reverse_append, List.reverse_singleton, List.singleton_append, openAfter,
    List.head?_reverse]
  rfl

theorem endsOperand_concat (before : List Token) (t : Token) :
    endsOperand (before ++ [t]) =
      if t.kind = .comment then endsOperand before else t.kind.endsOperand := by
  unfold endsOperand
  split <;> rename_i hkind <;> simp [hkind]

end

/-! ## Tokens at their places -/

/-- What is asked of a token between those before it and those after it. -/
def Admitted (config : Config) (before : List Token) (t : Token) (after : List Token) : Prop :=
  t.Resolves config ∧
    match t.kind with
    | .function => ∃ next ∈ after.head?, next.kind = .openParen
    | .assignment => ∃ last ∈ before.getLast?, last.kind = .identifier
    | .closeParen => openBrackets before ≠ [] ∧
        ∀ separators outer, openBrackets before = .call (separators + 1) :: outer →
          endsOperand before = true
    | .semicolon => (∃ separators outer, openBrackets before = .call separators :: outer) ∧
        endsOperand before = true
    | _ => True

/-- What is asked of each of the tokens that follow those before them. -/
def AllAdmitted (config : Config) (before tokens : List Token) : Prop :=
  ∀ front t after, tokens = front ++ t :: after → Admitted config (before ++ front) t after

variable {config : Config} {before tokens : List Token} {t : Token}

theorem allAdmitted_nil : AllAdmitted config before [] := by
  intro front t after h
  simp at h

theorem allAdmitted_cons :
    AllAdmitted config before (t :: tokens) ↔
      Admitted config before t tokens ∧ AllAdmitted config (before ++ [t]) tokens := by
  constructor
  · intro h
    refine ⟨?_, fun front u after heq => ?_⟩
    · have hfirst := h [] t tokens rfl
      rwa [List.append_nil] at hfirst
    · have hlater := h (t :: front) u after (by rw [heq, List.cons_append])
      rwa [List.append_cons] at hlater
  · rintro ⟨hfirst, hlater⟩ front u after heq
    cases front with
    | nil =>
      obtain ⟨rfl, rfl⟩ := List.cons.inj heq
      rwa [List.append_nil]
    | cons v front =>
      rw [List.cons_append] at heq
      obtain ⟨rfl, rfl⟩ := List.cons.inj heq
      rw [List.append_cons]
      exact hlater front u after rfl

/-- What is asked of tokens is what is asked of each at its place, and that nothing stays open. -/
theorem wellBracketed_iff :
    WellBracketed config tokens ↔ AllAdmitted config [] tokens ∧ openBrackets tokens = [] := by
  constructor
  · intro h
    refine ⟨fun before t after heq => ?_, h.closed⟩
    rw [List.nil_append]
    refine ⟨h.resolves t (heq ▸ List.mem_append_cons_self), ?_⟩
    cases hkind : t.kind
    case function => exact h.called before t after heq hkind
    case assignment => exact h.named before t after heq hkind
    case closeParen =>
      exact ⟨h.opened before t after heq hkind, h.completed before t after heq hkind⟩
    case semicolon => exact h.separates before t after heq hkind
    all_goals trivial
  · rintro ⟨hall, hclosed⟩
    -- each part of what is asked is that of the tokens of one kind
    have hat : ∀ before t after, tokens = before ++ t :: after → Admitted config before t after :=
      fun before t after heq => List.nil_append before ▸ hall before t after heq
    refine ⟨fun t ht => ?_, ?_, ?_, ?_, hclosed, ?_, ?_⟩
    · obtain ⟨before, after, heq⟩ := List.append_of_mem ht
      exact (hat before t after heq).1
    all_goals
      intro before t after heq hkind
      have hat := (hat before t after heq).2
      simp only [hkind] at hat
    · exact hat
    · exact hat
    · exact hat.1
    · exact hat
    · exact hat.2

/-! ## The brackets of the stack -/

/-- The bracket that waits, if what waits is one. -/
def Pending.bracket? : Pending → Option Bracket
  | .paren => some .paren
  | .call _ args => some (.call args)
  | .operator _ | .assign _ => none

namespace ParseState

/-- The brackets that wait, innermost first. -/
def brackets (stack : List Pending) : List Bracket :=
  stack.filterMap Pending.bracket?

/-- Unwinding stops at the innermost bracket and keeps what waits below it. -/
theorem unwind_cases (reversed : List Opcode) (stack : List Pending) : ∃ made,
    (brackets stack = [] ∧ unwind reversed stack = (made, [])) ∨
      (∃ rest, brackets stack = .paren :: brackets rest ∧
        unwind reversed stack = (made, .paren :: rest)) ∨
      ∃ function args rest, brackets stack = .call args :: brackets rest ∧
        unwind reversed stack = (made, .call function args :: rest) := by
  induction stack generalizing reversed with
  | nil => exact ⟨reversed, .inl ⟨rfl, rfl⟩⟩
  | cons p rest ih =>
    cases p with
    | operator op | assign name => exact ih _
    | paren => exact ⟨reversed, .inr (.inl ⟨rest, rfl, rfl⟩)⟩
    | call function args => exact ⟨reversed, .inr (.inr ⟨function, args, rest, rfl, rfl⟩)⟩

theorem brackets_complete (next : BinaryOperator) (reversed : List Opcode) (stack : List Pending) :
    brackets (complete next reversed stack).2 = brackets stack :=
  complete_keeps (motive := fun _ left => brackets left = brackets stack) next (fun h => h) rfl

theorem brackets_pushOperator (st : ParseState) (op : Operator) :
    brackets (st.pushOperator op).stack = brackets st.stack ∧
      (st.pushOperator op).expect = .operand := by
  cases op with
  | unary op => exact ⟨rfl, rfl⟩
  | binary op => exact ⟨brackets_complete op st.reversed st.stack, rfl⟩

/-- A bracket can be closed unless none is open, or the last of several arguments is missing. -/
theorem close_iff (st : ParseState) :
    (∃ next, st.close = .ok next) ↔ brackets st.stack ≠ [] ∧
      ∀ separators outer, brackets st.stack = .call (separators + 1) :: outer →
        st.expect = .operator := by
  obtain ⟨made, ⟨hbrackets, hunwind⟩ | ⟨rest, hbrackets, hunwind⟩ |
    ⟨function, args, rest, hbrackets, hunwind⟩⟩ := unwind_cases st.reversed st.stack
  · simp [close, hunwind, hbrackets]
  · simp [close, hunwind, hbrackets]
  · cases hexpect : st.expect <;> cases args <;>
      simp [close, hunwind, hbrackets, hexpect, argumentCount?]

theorem brackets_of_close {st next : ParseState} (h : st.close = .ok next) :
    brackets next.stack = (brackets st.stack).tail ∧ next.expect = .operator := by
  obtain ⟨made, ⟨hbrackets, hunwind⟩ | ⟨rest, hbrackets, hunwind⟩ |
    ⟨function, args, rest, hbrackets, hunwind⟩⟩ := unwind_cases st.reversed st.stack
  all_goals
    simp only [close, hunwind] at h
    rw [hbrackets]
  · cases h
  · cases h
    exact ⟨rfl, rfl⟩
  · split at h <;> cases h
    exact ⟨rfl, rfl⟩

theorem separate_iff (st : ParseState) :
    (∃ next, st.separate = .ok next) ↔
      (∃ separators outer, brackets st.stack = .call separators :: outer) ∧
        st.expect = .operator := by
  obtain ⟨made, ⟨hbrackets, hunwind⟩ | ⟨rest, hbrackets, hunwind⟩ |
    ⟨function, args, rest, hbrackets, hunwind⟩⟩ := unwind_cases st.reversed st.stack
  all_goals cases hexpect : st.expect <;> simp [separate, fail, hunwind, hbrackets, hexpect]

theorem brackets_of_separate {st next : ParseState} (h : st.separate = .ok next) :
    brackets next.stack = Bracket.separate (brackets st.stack) ∧ next.expect = .operand := by
  have hexpect : st.expect = .operator := ((separate_iff st).1 ⟨next, h⟩).2
  obtain ⟨made, ⟨hbrackets, hunwind⟩ | ⟨rest, hbrackets, hunwind⟩ |
    ⟨function, args, rest, hbrackets, hunwind⟩⟩ := unwind_cases st.reversed st.stack
  all_goals
    simp only [separate, hexpect, hunwind] at h
    rw [hbrackets]
  · cases h
  · cases h
  · cases h
    exact ⟨rfl, rfl⟩

theorem finish_iff (st : ParseState) :
    (∃ plan, st.finish = .ok plan) ↔ brackets st.stack = [] := by
  obtain ⟨made, ⟨hbrackets, hunwind⟩ | ⟨rest, hbrackets, hunwind⟩ |
    ⟨function, args, rest, hbrackets, hunwind⟩⟩ := unwind_cases st.reversed st.stack
  all_goals simp [finish, hunwind, hbrackets]

/-! ## Reading beside the scan -/

/-- The reading agrees with the scan about what is open and about what may follow. -/
structure Tracks (st : ParseState) (before : List Token) : Prop where
  expect : st.expect = .operator ↔ endsOperand before = true
  brackets : brackets st.stack = openBrackets before

/-- No two tokens that are taken in together have one before and one among the tokens. -/
structure Apart (before tokens : List Token) : Prop where
  noFunction : ∀ last ∈ before.getLast?, last.kind ≠ .function
  noName : ∀ last ∈ before.getLast?, last.kind = .identifier → NoAssignment tokens

variable {config : Config} {st next : ParseState} {before rest : List Token} {t : Token}

/-- A token on its own is taken in exactly where it is admitted. -/
theorem Tracks.step_iff (h : Tracks st before) (hapart : Apart before (t :: rest))
    (hcall : t.kind = .function → ∀ next ∈ rest.head?, next.kind ≠ .openParen) :
    (∃ next, st.step config t = .ok next) ↔ Admitted config before t rest := by
  unfold step Admitted Token.Resolves
  cases hkind : t.kind <;> simp only
  case comment | identifier | openParen => simp
  case number => cases config.format.read t.text <;> simp [fail]
  case date => cases Date.read? t.text.toList <;> simp [operandOr, fail]
  case time => cases TimeOfDay.read? t.text.toList <;> simp [operandOr, fail]
  case unit => cases config.units.lookup t.text <;> simp [operandOr, fail]
  case aggregator => cases config.aggregators.find? t.text <;> simp [operandOr, fail]
  case operator =>
    unfold resolve
    cases st.expect <;> cases config.unaryOperators.find? t.text <;>
      cases config.binaryOperators.find? t.text <;> simp [fail]
  case assignment =>
    -- the name before it would have been taken in together with it
    simp only [fail, reduceCtorEq, exists_false, true_and, false_iff]
    rintro ⟨last, hlast, hname⟩
    exact hapart.noName last hlast hname t (by simp) hkind
  case function =>
    constructor
    · rintro ⟨next, hnext⟩
      split at hnext <;> cases hnext
    · rintro ⟨-, next, hnext, hopen⟩
      exact absurd hopen (hcall hkind next hnext)
  case closeParen => rw [close_iff, h.brackets, h.expect, true_and]
  case semicolon => rw [separate_iff, h.brackets, h.expect, true_and]

theorem exists_operand_of_operandOr {op : Option Opcode} {error : ParseError}
    (h : st.operandOr op error = .ok next) : ∃ op, next = st.operand op := by
  cases op with
  | none => cases h
  | some op =>
    cases h
    exact ⟨op, rfl⟩

theorem Tracks.concat (hcomment : t.kind ≠ .comment)
    (hexpect : next.expect = .operator ↔ t.kind.endsOperand = true)
    (hbrackets : ParseState.brackets next.stack = openBrackets (before ++ [t])) :
    Tracks next (before ++ [t]) := by
  refine ⟨?_, hbrackets⟩
  rw [endsOperand_concat, if_neg hcomment]
  exact hexpect

theorem Tracks.operand (h : Tracks st before) (hends : t.kind.endsOperand = true)
    (hscan : openBrackets (before ++ [t]) = openBrackets before) (op : Opcode) :
    Tracks (st.operand op) (before ++ [t]) := by
  have hcomment : t.kind ≠ .comment := by
    intro hkind
    rw [hkind] at hends
    cases hends
  exact .concat hcomment (iff_of_true rfl hends) (h.brackets.trans hscan.symm)

/-- A token on its own leaves what the scan finds after it. -/
theorem Tracks.of_step (h : Tracks st before) (hapart : Apart before (t :: rest))
    (hstep : st.step config t = .ok next) : Tracks next (before ++ [t]) := by
  have hscan := openBrackets_concat before t
  unfold step at hstep
  cases hkind : t.kind <;> simp only [hkind] at hstep hscan
  case comment =>
    cases hstep
    refine ⟨?_, h.brackets.trans hscan.symm⟩
    rw [endsOperand_concat, if_pos hkind]
    exact h.expect
  case number =>
    split at hstep <;> cases hstep
    exact h.operand (by rw [hkind]; rfl) hscan _
  case date | time | unit | aggregator =>
    obtain ⟨op, rfl⟩ := exists_operand_of_operandOr hstep
    exact h.operand (by rw [hkind]; rfl) hscan op
  case identifier =>
    cases hstep
    exact h.operand (by rw [hkind]; rfl) hscan _
  case operator =>
    split at hstep <;> cases hstep
    rename_i op hresolve
    obtain ⟨hbrackets, hexpect⟩ := brackets_pushOperator st op
    refine .concat (by simp [hkind]) (by simp [hexpect, hkind, TokenKind.endsOperand]) ?_
    rw [hbrackets, h.brackets, hscan]
  case assignment => cases hstep
  case function => split at hstep <;> cases hstep
  case openParen =>
    cases hstep
    -- the parenthesis of a call would have been taken in together with the function
    have hparen : before.getLast?.any (·.kind = .function) = false := by
      rw [Option.any_eq_false]
      simpa using hapart.noFunction
    refine .concat (by simp [hkind]) (by simp [wait, hkind, TokenKind.endsOperand]) ?_
    rw [hscan, hparen, ← h.brackets]
    rfl
  case closeParen =>
    obtain ⟨hbrackets, hexpect⟩ := brackets_of_close hstep
    refine .concat (by simp [hkind]) (by simp [hexpect, hkind, TokenKind.endsOperand]) ?_
    rw [hbrackets, h.brackets, hscan]
  case semicolon =>
    obtain ⟨hbrackets, hexpect⟩ := brackets_of_separate hstep
    refine .concat (by simp [hkind]) (by simp [hexpect, hkind, TokenKind.endsOperand]) ?_
    rw [hbrackets, h.brackets, hscan]

theorem Apart.of_step (hstep : st.step config t = .ok next)
    (hname : t.kind = .identifier → NoAssignment rest) : Apart (before ++ [t]) rest := by
  refine ⟨?_, ?_⟩ <;> rw [List.getLast?_concat] <;> rintro _ ⟨⟩
  · intro hkind
    simp only [step, hkind] at hstep
    split at hstep <;> cases hstep
  · exact hname

/-- A word and an assignment, taken in together, are admitted and leave what the scan finds. -/
theorem Tracks.assign (h : Tracks st before) {mark : Token} (hname : t.kind = .identifier)
    (hmark : mark.kind = .assignment) (rest : List Token) :
    Tracks (st.wait (.assign t.text)) (before ++ [t] ++ [mark]) ∧
      Apart (before ++ [t] ++ [mark]) rest := by
  refine ⟨.concat (by simp [hmark]) (by simp [wait, hmark, TokenKind.endsOperand]) ?_, ?_⟩
  · rw [openBrackets_concat, hmark, openBrackets_concat, hname]
    exact h.brackets
  · constructor <;> simp [hmark]

/-- A function and the parenthesis after it open a call. -/
theorem Tracks.call (h : Tracks st before) {opening : Token} (hfunction : t.kind = .function)
    (hopening : opening.kind = .openParen) (function : Function) (rest : List Token) :
    Tracks (st.wait (.call function 0)) (before ++ [t] ++ [opening]) ∧
      Apart (before ++ [t] ++ [opening]) rest := by
  refine ⟨.concat (by simp [hopening]) (by simp [wait, hopening, TokenKind.endsOperand]) ?_, ?_⟩
  · rw [openBrackets_concat, hopening, openBrackets_concat, hfunction, List.getLast?_concat]
    simpa [hfunction, wait, ParseState.brackets, Pending.bracket?] using h.brackets
  · constructor <;> simp [hopening]

/-- What is asked of all tokens is asked of the first one and of those that follow it. -/
theorem admitted_cons_and {tokens : List Token} :
    (AllAdmitted config before (t :: tokens) ∧ openBrackets (before ++ t :: tokens) = []) ↔
      Admitted config before t tokens ∧ AllAdmitted config (before ++ [t]) tokens ∧
        openBrackets (before ++ [t] ++ tokens) = [] := by
  rw [allAdmitted_cons, List.append_cons before t tokens, and_assoc]

/-- Tokens are taken in to the end exactly where all are admitted and no bracket is left open. -/
theorem Tracks.run_iff {tokens : List Token} (h : Tracks st before) (hapart : Apart before tokens) :
    (∃ plan, run config st tokens = .ok plan) ↔
      AllAdmitted config before tokens ∧ openBrackets (before ++ tokens) = [] := by
  induction st, tokens using run.induct config generalizing before with
  | case1 st =>
    rw [List.append_nil, ← h.brackets, run, finish_iff]
    exact (and_iff_right allAdmitted_nil).symm
  | case2 st token =>
    have hstep : (∃ after, st.step config token = .ok after) ↔ Admitted config before token [] :=
      h.step_iff hapart (by simp)
    rw [admitted_cons_and, ← hstep, List.append_nil, and_iff_right allAdmitted_nil]
    cases hnext : st.step config token with
    | error failure => simp [run, hnext, Except.bind]
    | ok next =>
      have htracks := h.of_step hapart hnext
      rw [run, hnext, Except.bind, finish_iff, htracks.brackets]
      simp
  | case3 st token next rest hassign ih =>
    obtain ⟨htracks, happart⟩ := h.assign hassign.1 hassign.2 rest
    have hword : Admitted config before token (next :: rest) := by
      simp [Admitted, Token.Resolves, hassign.1]
    have hmark : Admitted config (before ++ [token]) next rest := by
      simp [Admitted, Token.Resolves, hassign.1, hassign.2]
    rw [run, if_pos hassign, ih htracks happart, admitted_cons_and, admitted_cons_and,
      and_iff_right hword, and_iff_right hmark]
  | case4 st token next rest hassign hcall function hfind ih =>
    obtain ⟨htracks, happart⟩ := h.call hcall.1 hcall.2 function rest
    have hfunction : Admitted config before token (next :: rest) := by
      simp [Admitted, Token.Resolves, hcall.1, hcall.2, hfind]
    have hopening : Admitted config (before ++ [token]) next rest := by
      simp [Admitted, Token.Resolves, hcall.2]
    simp only [run, if_neg hassign, if_pos hcall, hfind]
    rw [ih htracks happart, admitted_cons_and, admitted_cons_and, and_iff_right hfunction,
      and_iff_right hopening]
  | case5 st token next rest hassign hcall hfind =>
    have hfunction : ¬ Admitted config before token (next :: rest) := by
      simp [Admitted, Token.Resolves, hcall.1, hfind]
    rw [admitted_cons_and, run, if_neg hassign, if_pos hcall, hfind]
    simp [hfunction, fail]
  | case6 st token next rest hassign hcall after hafter ih =>
    have hname : token.kind = .identifier → NoAssignment (next :: rest) :=
      fun hkind => .cons fun hmark => hassign ⟨hkind, hmark⟩
    have hadmitted : Admitted config before token (next :: rest) :=
      (h.step_iff hapart (by simpa using hcall)).1 ⟨after, hafter⟩
    simp only [run, if_neg hassign, if_neg hcall, hafter]
    rw [ih (h.of_step hapart hafter) (.of_step hafter hname), admitted_cons_and (t := token),
      and_iff_right hadmitted]
  | case7 st token next rest hassign hcall failure hfailure =>
    have hrefused : ¬ Admitted config before token (next :: rest) := by
      rw [← h.step_iff hapart (by simpa using hcall), hfailure]
      simp
    rw [admitted_cons_and, run, if_neg hassign, if_neg hcall, hfailure]
    simp [hrefused]

end ParseState

/-! ## Tokens of a line -/

/--
Tokens make a plan exactly when they are well bracketed. So a vocabulary in which the same names
resolve makes a plan of the same tokens, whatever the precedences and the associativities are.
-/
theorem ofTokens_eq_ok_iff (config : Config) (tokens : List Token) :
    ((∃ plan, Plan.ofTokens config tokens = .ok plan) ↔ WellBracketed config tokens) ∧
      ∀ other : Config, (∀ t ∈ tokens, t.Resolves other ↔ t.Resolves config) →
        ((∃ plan, Plan.ofTokens other tokens = .ok plan) ↔
          ∃ plan, Plan.ofTokens config tokens = .ok plan) := by
  have hstart : ParseState.Tracks {} [] := ⟨by decide, rfl⟩
  have hmakes : ∀ config : Config,
      (∃ plan, Plan.ofTokens config tokens = .ok plan) ↔ WellBracketed config tokens := by
    intro config
    rw [wellBracketed_iff]
    exact hstart.run_iff ⟨by simp, by simp⟩
  refine ⟨hmakes config, fun other hsame => ?_⟩
  rw [hmakes, hmakes]
  constructor
  · exact fun h => { h with resolves := fun t ht => (hsame t ht).1 (h.resolves t ht) }
  · exact fun h => { h with resolves := fun t ht => (hsame t ht).2 (h.resolves t ht) }

/-- Operators without operands make a plan, in a call as well. -/
example : (Plan.ofTokens .standard [⟨.function, "round", 0⟩, ⟨.openParen, "(", 5⟩,
    ⟨.operator, "*", 6⟩, ⟨.operator, "+", 7⟩, ⟨.closeParen, ")", 8⟩]).isOk = true := by
  decide +kernel

end LineCalc
