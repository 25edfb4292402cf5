import LineCalc.Proofs.Brackets

/-!
# What a plan keeps of its tokens

Operators, calls and assignments are moved behind their operands when tokens are read. None of them
is lost on the way and none is made twice, and the operands stay in their order. Where the tokens
make no plan, the part that is made has the operands of the tokens before the failure.

* **`Token.opcode?`**: the opcode that a token stands for at its place.
* **`opcodesBetween`**: those of a part of a line.
* **`ParseState.Ledger`**: what is in the plan and what waits are the opcodes of the tokens so far.
* **`Conserves`**, **`ofTokens_conserves`**: what a plan has of its tokens, and a plan that breaks off.
-/

namespace LineCalc

/-! ## The opcodes of tokens -/

/-- Whether an opcode brings a value of its own. -/
def Opcode.isOperand : Opcode → Bool
  | .number _ | .date _ | .time _ | .unit _ | .load _ | .aggregator _ => true
  | .operator _ | .call _ _ | .assign _ => false

/-- The operands among some opcodes, in their order. -/
def operandsOf (ops : List Opcode) : List Opcode :=
  ops.filter Opcode.isOperand

/--
The number of arguments of a call that is closed after some tokens: one more than the separators that
it is the innermost bracket of if an operand ends there, and none otherwise.
-/
def argumentsAt (before : List Token) : Nat :=
  match openBrackets before with
  | .call separators :: _ => if endsOperand before then separators + 1 else 0
  | _ => 0

/--
The number of arguments of a call that is open after some tokens, with `outer` the brackets around
it, from the tokens that follow: the call ends where a bracket is closed that has `outer` around it.
-/
def argumentCount (outer : List Bracket) (before : List Token) : List Token → Nat
  | [] => 0
  | t :: after =>
    if t.kind = .closeParen ∧ (openBrackets before).tail = outer then argumentsAt before
    else argumentCount outer (before ++ [t]) after

/-- The separator of a call among the arguments is not one of the call around it. -/
example : argumentCount [] [⟨.function, "round", 0⟩, ⟨.openParen, "(", 5⟩]
    [⟨.function, "floor", 6⟩, ⟨.openParen, "(", 11⟩, ⟨.number, "1", 12⟩, ⟨.semicolon, ";", 13⟩,
      ⟨.number, "2", 14⟩, ⟨.closeParen, ")", 15⟩, ⟨.closeParen, ")", 16⟩] = 1 := by
  decide

namespace Token

/-- The operator that a symbol stands for after some tokens. -/
def operator? (config : Config) (before : List Token) (t : Token) : Option Operator :=
  let unary := (config.unaryOperators.find? t.text).map Operator.unary
  let binary := (config.binaryOperators.find? t.text).map Operator.binary
  if endsOperand before then binary.or unary else unary.or binary

/-- Whether a token is an operand, an operator, a function or an assignment. -/
def hasOpcode (t : Token) (after : List Token) : Bool :=
  match t.kind with
  | .comment | .openParen | .closeParen | .semicolon => false
  | .identifier => !after.head?.any (·.kind = .assignment)
  | _ => true

/-- The opcode that a token stands for, between the tokens before it and those after it. -/
def opcode? (config : Config) (before : List Token) (t : Token) (after : List Token) :
    Option Opcode :=
  match t.kind with
  | .number => (config.format.read t.text).toOption.map .number
  | .date => (Date.read? t.text.toList).map .date
  | .time => (TimeOfDay.read? t.text.toList).map .time
  | .unit => (config.units.lookup t.text).map .unit
  | .aggregator => (config.aggregators.find? t.text).map .aggregator
  | .identifier =>
    if after.head?.any (·.kind = .assignment) then none else some (.load t.text)
  | .assignment => (before.getLast?.filter (·.kind = .identifier)).map (.assign ·.text)
  | .operator => (t.operator? config before).map .operator
  | .function =>
    (config.functions.find? t.text).map
      (.call · (argumentCount (openBrackets before) (before ++ [t]) after))
  | .comment | .openParen | .closeParen | .semicolon => none

end Token

/-- The opcodes of some tokens in their order, between the tokens before them and those after them. -/
def opcodesBetween (config : Config) (before : List Token) : List Token → List Token → List Opcode
  | [], _ => []
  | t :: tokens, after =>
    (t.opcode? config before (tokens ++ after)).toList ++
      opcodesBetween config (before ++ [t]) tokens after

/-- What is asked of each of some tokens, with others after them. -/
def AdmittedBefore (config : Config) (tokens after : List Token) : Prop :=
  ∀ before t later, tokens = before ++ t :: later → Admitted config before t (later ++ after)

/-- Each of some tokens has an opcode if it is to have one. -/
def HaveOpcodes (config : Config) (tokens after : List Token) : Prop :=
  ∀ before t later, tokens = before ++ t :: later →
    (t.opcode? config before (later ++ after)).isSome = t.hasOpcode (later ++ after)

/--
What a plan keeps of its tokens. Where there is none, a token is the first that is not admitted, or
all are and a bracket is left open at the end.
-/
def Conserves (config : Config) (tokens : List Token) : Except ParseFailure Plan → Prop
  | .ok plan =>
    HaveOpcodes config tokens [] ∧
      plan.Perm (opcodesBetween config [] tokens []) ∧
      operandsOf plan = operandsOf (opcodesBetween config [] tokens [])
  | .error failure =>
    (∃ before t after, tokens = before ++ t :: after ∧
      AdmittedBefore config before (t :: after) ∧ ¬ Admitted config before t after ∧
      HaveOpcodes config before (t :: after) ∧
      operandsOf failure.partialPlan = operandsOf (opcodesBetween config [] before (t :: after))) ∨
    (AdmittedBefore config tokens [] ∧ openBrackets tokens ≠ [] ∧ failure.error = .unbalancedOpen ∧
      HaveOpcodes config tokens [] ∧
      operandsOf failure.partialPlan = operandsOf (opcodesBetween config [] tokens []))

/-! ## One token more -/

section

variable {config : Config} {before after : List Token} {t : Token}

theorem opcodesBetween_concat (first tokens : List Token) :
    opcodesBetween config first (tokens ++ [t]) after =
      opcodesBetween config first tokens (t :: after) ++
        (t.opcode? config (first ++ tokens) after).toList := by
  induction tokens generalizing first with
  | nil => simp [opcodesBetween]
  | cons u tokens ih =>
    simp only [List.cons_append, opcodesBetween, ih, List.append_assoc, List.nil_append]

theorem admittedBefore_nil : AdmittedBefore config [] after := by
  intro before t later h
  simp at h

theorem AdmittedBefore.concat (h : AdmittedBefore config before (t :: after))
    (ht : Admitted config before t after) : AdmittedBefore config (before ++ [t]) after := by
  intro earlier u later heq
  rcases List.eq_nil_or_concat later with rfl | ⟨more, last, rfl⟩
  · obtain ⟨rfl, hlast⟩ := List.append_inj' heq rfl
    obtain rfl := List.singleton_inj.1 hlast
    exact ht
  · rw [List.concat_eq_append, ← List.cons_append, ← List.append_assoc] at heq
    obtain ⟨hbefore, hlast⟩ := List.append_inj' heq rfl
    obtain rfl := List.singleton_inj.1 hlast
    simpa using h earlier u more hbefore

theorem Admitted.hasOpcode (h : Admitted config before t after) :
    (t.opcode? config before after).isSome = t.hasOpcode after := by
  obtain ⟨hresolves, hplace⟩ := h
  unfold Token.Resolves at hresolves
  unfold Token.opcode? Token.hasOpcode
  cases hkind : t.kind <;> simp only [hkind] at hresolves hplace ⊢
  case comment | openParen | closeParen | semicolon => rfl
  case number | date | time | unit | aggregator | function =>
    obtain ⟨_, hfound⟩ := hresolves
    rw [hfound]
    rfl
  case identifier => split <;> simp_all
  case operator =>
    unfold Token.operator?
    rcases hresolves with ⟨op, hfound⟩ | ⟨op, hfound⟩ <;> rw [hfound] <;> split <;> simp
  case assignment =>
    obtain ⟨last, hlast, hname⟩ := hplace
    simp [Option.mem_def.1 hlast, hname]

theorem AdmittedBefore.haveOpcodes {tokens : List Token} (h : AdmittedBefore config tokens after) :
    HaveOpcodes config tokens after :=
  fun before t later heq => (h before t later heq).hasOpcode

end

namespace ParseState

/-! ## What waits -/

/-- The opcodes of what waits, the latest first; the calls end in the tokens that follow. -/
def waiting (before after : List Token) : List Pending → List Opcode
  | [] => []
  | .operator op :: stack => .operator op :: waiting before after stack
  | .paren :: stack => waiting before after stack
  | .call function _ :: stack =>
    .call function (argumentCount (brackets stack) before after) :: waiting before after stack
  | .assign name :: stack => .assign name :: waiting before after stack

variable {config : Config} {before after : List Token} {t : Token} {reversed : List Opcode}
  {stack : List Pending} {ops : List Opcode} {st next : ParseState}

/-- A token that closes no call that waits says nothing about their arguments. -/
theorem waiting_concat (stack : List Pending)
    (h : t.kind = .closeParen → (brackets stack).length < (openBrackets before).length) :
    waiting (before ++ [t]) after stack = waiting before (t :: after) stack := by
  induction stack with
  | nil => rfl
  | cons p stack ih =>
    have hbelow : (brackets stack).length ≤ (brackets (p :: stack)).length :=
      List.Sublist.length_le ((List.sublist_cons_self p stack).filterMap _)
    have hrest := ih fun hclose => Nat.lt_of_le_of_lt hbelow (h hclose)
    cases p with
    | operator op | assign name => exact congrArg _ hrest
    | paren => exact hrest
    | call function args =>
      have houter : ¬ (t.kind = .closeParen ∧ (openBrackets before).tail = brackets stack) := by
        rintro ⟨hclose, htail⟩
        have hless := h hclose
        have hlength := congrArg List.length htail
        rw [List.length_tail] at hlength
        have hcons : (brackets (.call function args :: stack)).length =
            (brackets stack).length + 1 := rfl
        omega
      rw [waiting, waiting, hrest, argumentCount, if_neg houter]

theorem Tracks.argumentsAt_eq (h : Tracks st before) {args count : Nat} {outer : List Bracket}
    (hbrackets : openBrackets before = .call args :: outer)
    (hcount : argumentCount? st.expect args = some count) : argumentsAt before = count := by
  unfold argumentsAt
  rw [hbrackets]
  cases hexpect : st.expect with
  | operator =>
    rw [hexpect] at hcount
    cases hcount
    exact if_pos (h.expect.1 hexpect)
  | operand =>
    have hends : ¬ endsOperand before = true := by simp [← h.expect, hexpect]
    rw [hexpect, argumentCount?] at hcount
    split at hcount <;> cases hcount
    exact if_neg hends

theorem Tracks.resolve_eq (h : Tracks st before) :
    st.resolve config t.text = t.operator? config before := by
  unfold resolve Token.operator?
  cases hexpect : st.expect with
  | operator => rw [if_pos (h.expect.1 hexpect)]
  | operand =>
    have hends : ¬ endsOperand before = true := by simp [← h.expect, hexpect]
    rw [if_neg hends]

/--
What is in the plan, its last opcode first, and what waits are some opcodes, and the operands of these
are in the plan in their order.
-/
structure Ledger (before after : List Token) (reversed : List Opcode) (stack : List Pending)
    (ops : List Opcode) : Prop where
  perm : (reversed ++ waiting before after stack).Perm ops
  operands : operandsOf reversed.reverse = operandsOf ops

namespace Ledger

theorem operand (h : Ledger before after reversed stack ops) (op : Opcode) :
    Ledger before after (op :: reversed) stack (ops ++ [op]) where
  perm := (h.perm.cons op).trans (List.perm_append_singleton op ops).symm
  operands := by
    have hoperands := h.operands
    unfold operandsOf at *
    rw [List.reverse_cons, List.filter_append, List.filter_append, hoperands]

/-- What is no operand can wait. -/
theorem wait (h : Ledger before after reversed stack ops) {p : Pending} {op : Opcode}
    (hop : op.isOperand = false)
    (hp : waiting before after (p :: stack) = op :: waiting before after stack) :
    Ledger before after reversed (p :: stack) (ops ++ [op]) where
  perm := by
    rw [hp]
    exact List.perm_middle.trans
      ((h.perm.cons op).trans (List.perm_append_singleton op ops).symm)
  operands := by
    have hoperands := h.operands
    unfold operandsOf at *
    rw [List.filter_append, hoperands]
    simp [hop]

/-- What has waited comes into the plan. -/
theorem complete_head {p : Pending} {op : Opcode}
    (h : Ledger before after reversed (p :: stack) ops) (hop : op.isOperand = false)
    (hp : waiting before after (p :: stack) = op :: waiting before after stack) :
    Ledger before after (op :: reversed) stack ops where
  perm := by
    have hperm := h.perm
    rw [hp] at hperm
    exact List.perm_middle.symm.trans hperm
  operands := by
    rw [← h.operands]
    unfold operandsOf
    rw [List.reverse_cons, List.filter_append]
    simp [hop]

theorem unwind (h : Ledger before after reversed stack ops) :
    Ledger before after (unwind reversed stack).1 (unwind reversed stack).2 ops :=
  unwind_keeps (motive := fun made left => Ledger before after made left ops)
    (fun h => h.complete_head rfl rfl) (fun h => h.complete_head rfl rfl) h

theorem complete (h : Ledger before after reversed stack ops) (next : BinaryOperator) :
    Ledger before after (complete next reversed stack).1 (complete next reversed stack).2 ops :=
  complete_keeps (motive := fun made left => Ledger before after made left ops) next
    (fun h => h.complete_head rfl rfl) h

theorem pushOperator (h : Ledger before after st.reversed st.stack ops) (op : Operator) :
    Ledger before after (st.pushOperator op).reversed (st.pushOperator op).stack
      (ops ++ [.operator op]) := by
  cases op with
  | unary op => exact h.wait rfl rfl
  | binary op => exact (h.complete op).wait rfl rfl

/-- The reading goes past a token. -/
theorem concat (h : Ledger before (t :: after) reversed stack ops)
    (hclose : t.kind = .closeParen → (brackets stack).length < (openBrackets before).length) :
    Ledger (before ++ [t]) after reversed stack ops :=
  ⟨waiting_concat stack hclose ▸ h.perm, h.operands⟩

/-- Closing a call ends its arguments where the tokens say. -/
theorem of_close (h : Ledger before (t :: after) st.reversed st.stack ops) (htracks : Tracks st before)
    (hkind : t.kind = .closeParen) (hclose : st.close = .ok next) :
    Ledger (before ++ [t]) after next.reversed next.stack ops := by
  have hunwound := h.unwind
  obtain ⟨made, ⟨hbrackets, hunwind⟩ | ⟨rest, hbrackets, hunwind⟩ |
    ⟨function, args, rest, hbrackets, hunwind⟩⟩ := unwind_cases st.reversed st.stack
  all_goals
    simp only [close, hunwind] at hclose
    rw [hunwind] at hunwound
    rw [htracks.brackets] at hbrackets
  · cases hclose
  · cases hclose
    exact Ledger.concat ⟨hunwound.perm, hunwound.operands⟩ fun _ => by simp [hbrackets]
  · split at hclose <;> cases hclose
    rename_i count hcount
    have hcall : waiting before (t :: after) (.call function args :: rest) =
        .call function count :: waiting before (t :: after) rest := by
      rw [waiting, argumentCount, if_pos ⟨hkind, by rw [hbrackets, List.tail_cons]⟩,
        htracks.argumentsAt_eq hbrackets hcount]
    exact (hunwound.complete_head rfl hcall).concat fun _ => by simp [hbrackets]

theorem of_separate (h : Ledger before after st.reversed st.stack ops)
    (hseparate : st.separate = .ok next) : Ledger before after next.reversed next.stack ops := by
  have hunwind := h.unwind
  unfold separate at hseparate
  split at hseparate
  · cases hseparate
  · split at hseparate <;> cases hseparate
    rename_i reversed function args rest heq
    rw [heq] at hunwind
    exact ⟨hunwind.perm, hunwind.operands⟩

theorem of_operandOr {α : Type} {found : Option α} {make : α → Opcode} {error : ParseError}
    (h : Ledger before after st.reversed st.stack ops)
    (hoperand : st.operandOr (found.map make) error = .ok next) :
    Ledger before after next.reversed next.stack (ops ++ (found.map make).toList) := by
  cases found with
  | none => cases hoperand
  | some a =>
    cases hoperand
    exact h.operand (make a)

/-- A token on its own adds the opcode that it stands for. -/
theorem of_step (h : Ledger before (t :: after) st.reversed st.stack ops) (htracks : Tracks st before)
    (hname : t.kind = .identifier → NoAssignment after) (hstep : st.step config t = .ok next) :
    Ledger (before ++ [t]) after next.reversed next.stack
      (ops ++ (t.opcode? config before after).toList) := by
  by_cases hclose : t.kind = .closeParen
  · simp only [step, hclose] at hstep
    simp only [Token.opcode?, hclose, Option.toList_none, List.append_nil]
    exact h.of_close htracks hclose hstep
  replace h := h.concat fun hkind => absurd hkind hclose
  unfold step at hstep
  unfold Token.opcode?
  cases hkind : t.kind <;> simp only [hkind] at hstep ⊢
  case comment =>
    cases hstep
    rwa [Option.toList_none, List.append_nil]
  case number =>
    split at hstep <;> cases hstep
    rename_i hread
    rw [hread]
    exact h.operand _
  case date | time | unit | aggregator => exact h.of_operandOr hstep
  case identifier =>
    cases hstep
    have hnone : after.head?.any (·.kind = .assignment) = false := by
      rw [Option.any_eq_false]
      simpa [NoAssignment] using hname hkind
    rw [hnone, if_neg Bool.false_ne_true]
    exact h.operand _
  case operator =>
    rw [htracks.resolve_eq] at hstep
    split at hstep <;> cases hstep
    rename_i op hop
    rw [hop]
    exact h.pushOperator op
  case assignment => cases hstep
  case function => split at hstep <;> cases hstep
  case openParen =>
    cases hstep
    rw [Option.toList_none, List.append_nil]
    exact ⟨h.perm, h.operands⟩
  case closeParen => exact absurd hkind hclose
  case semicolon =>
    rw [Option.toList_none, List.append_nil]
    exact h.of_separate hstep

/-- The plan that breaks off at a token has the operands so far. -/
theorem operands_of_step {failure : ParseFailure}
    (h : Ledger before after st.reversed st.stack ops) (hstep : st.step config t = .error failure) :
    operandsOf failure.partialPlan = operandsOf ops := by
  have hfail : ∀ {α : Type} {error : ParseError},
      (st.fail error : Except ParseFailure α) = .error failure →
        operandsOf failure.partialPlan = operandsOf ops := by
    rintro α error ⟨⟩
    exact h.operands
  have hunwound := h.unwind.operands
  unfold step at hstep
  cases hkind : t.kind <;> simp only [hkind] at hstep
  case comment | identifier | openParen => cases hstep
  case number | operator | function => split at hstep <;> first | cases hstep; done | exact hfail hstep
  case date | time | unit | aggregator =>
    unfold operandOr at hstep
    split at hstep
    · cases hstep
    · exact hfail hstep
  case assignment => exact hfail hstep
  case closeParen =>
    unfold close at hstep
    split at hstep
    · cases hstep
    · rename_i heq
      split at hstep <;> cases hstep
      rwa [heq] at hunwound
    · rename_i heq
      cases hstep
      rwa [heq] at hunwound
  case semicolon =>
    unfold separate at hstep
    split at hstep
    · exact hfail hstep
    · split at hstep <;> cases hstep
      rename_i heq
      rwa [heq] at hunwound

end Ledger

/-! ## Reading to the end -/

/-- The tokens so far are admitted, and what has been made of them is their opcodes. -/
structure Reads (config : Config) (st : ParseState) (before rest : List Token) : Prop where
  tracks : Tracks st before
  apart : Apart before rest
  admitted : AdmittedBefore config before rest
  ledger : Ledger before rest st.reversed st.stack (opcodesBetween config [] before rest)

namespace Reads

variable {rest : List Token}

/-- Some tokens and the opcode of the one after them. -/
theorem ledger_concat
    (h : Ledger (before ++ [t]) rest reversed stack
      (opcodesBetween config [] before (t :: rest) ++ (t.opcode? config before rest).toList)) :
    Ledger (before ++ [t]) rest reversed stack (opcodesBetween config [] (before ++ [t]) rest) := by
  rwa [opcodesBetween_concat, List.nil_append]

theorem admitted_of_step (h : Reads config st before (t :: rest))
    (hcall : t.kind = .function → ∀ next ∈ rest.head?, next.kind ≠ .openParen)
    (hstep : st.step config t = .ok next) : Admitted config before t rest :=
  (h.tracks.step_iff h.apart hcall).1 ⟨next, hstep⟩

theorem of_step (h : Reads config st before (t :: rest))
    (hname : t.kind = .identifier → NoAssignment rest)
    (hcall : t.kind = .function → ∀ next ∈ rest.head?, next.kind ≠ .openParen)
    (hstep : st.step config t = .ok next) : Reads config next (before ++ [t]) rest where
  tracks := h.tracks.of_step h.apart hstep
  apart := .of_step hstep hname
  admitted := h.admitted.concat (h.admitted_of_step hcall hstep)
  ledger := ledger_concat (h.ledger.of_step h.tracks hname hstep)

/-- A word and an assignment are taken in together; the opcode is that of the assignment. -/
theorem assign {mark : Token} (h : Reads config st before (t :: mark :: rest))
    (hname : t.kind = .identifier) (hmark : mark.kind = .assignment) :
    Reads config (st.wait (.assign t.text)) (before ++ [t] ++ [mark]) rest where
  tracks := (h.tracks.assign hname hmark rest).1
  apart := (h.tracks.assign hname hmark rest).2
  admitted := by
    have hword : Admitted config before t (mark :: rest) := by
      simp [Admitted, Token.Resolves, hname]
    exact (h.admitted.concat hword).concat (by simp [Admitted, Token.Resolves, hname, hmark])
  ledger := by
    have hnone : t.opcode? config before (mark :: rest) = none := by
      simp [Token.opcode?, hname, hmark]
    have hassign : mark.opcode? config (before ++ [t]) rest = some (.assign t.text) := by
      simp only [Token.opcode?, hmark, List.getLast?_concat]
      rw [Option.filter_some_pos (by simp [hname]), Option.map_some]
    have hword := h.ledger.concat (by simp [hname])
    have hboth := (hword.concat (by simp [hmark])).wait (p := .assign t.text) rfl rfl
    apply ledger_concat
    rwa [opcodesBetween_concat, List.nil_append, hnone, Option.toList_none, List.append_nil, hassign]

/-- A function and the parenthesis after it open a call, whose end is in the tokens that follow. -/
theorem call {opening : Token} {function : Function}
    (h : Reads config st before (t :: opening :: rest)) (hfunction : t.kind = .function)
    (hopening : opening.kind = .openParen)
    (hfind : config.functions.find? t.text = some function) :
    Reads config (st.wait (.call function 0)) (before ++ [t] ++ [opening]) rest where
  tracks := (h.tracks.call hfunction hopening function rest).1
  apart := (h.tracks.call hfunction hopening function rest).2
  admitted := by
    have hname : Admitted config before t (opening :: rest) := by
      simp [Admitted, Token.Resolves, hfunction, hopening, hfind]
    exact (h.admitted.concat hname).concat (by simp [Admitted, Token.Resolves, hopening])
  ledger := by
    have hcount : argumentCount (openBrackets before) (before ++ [t]) (opening :: rest) =
        argumentCount (brackets st.stack) (before ++ [t] ++ [opening]) rest := by
      rw [argumentCount, if_neg (by simp [hopening]), h.tracks.brackets]
    have hcalled : t.opcode? config before (opening :: rest) =
        some (.call function
          (argumentCount (brackets st.stack) (before ++ [t] ++ [opening]) rest)) := by
      simp only [Token.opcode?, hfunction, hfind, hcount, Option.map_some]
    have hnone : opening.opcode? config (before ++ [t]) rest = none := by
      simp [Token.opcode?, hopening]
    have hword := h.ledger.concat (by simp [hfunction])
    have hboth := (hword.concat (by simp [hopening])).wait (p := .call function 0) rfl rfl
    apply ledger_concat
    rwa [opcodesBetween_concat, List.nil_append, hcalled, hnone, Option.toList_none, List.append_nil]

/-- The tokens end here, and all of them are admitted. -/
theorem conserves_finish (h : Reads config st before []) : Conserves config before st.finish := by
  have hunwound := h.ledger.unwind
  obtain ⟨made, ⟨hbrackets, hunwind⟩ | ⟨rest, hbrackets, hunwind⟩ |
    ⟨function, args, rest, hbrackets, hunwind⟩⟩ := unwind_cases st.reversed st.stack
  all_goals
    simp only [finish, hunwind]
    rw [hunwind] at hunwound
    rw [h.tracks.brackets] at hbrackets
  · have hperm : made.Perm (opcodesBetween config [] before []) := by
      simpa [waiting] using hunwound.perm
    exact ⟨h.admitted.haveOpcodes, (List.reverse_perm made).trans hperm, hunwound.operands⟩
  all_goals
    exact .inr ⟨h.admitted, by simp [hbrackets], rfl, h.admitted.haveOpcodes, hunwound.operands⟩

/-- The reading breaks off at a token that is not admitted. -/
theorem conserves_error {failure : ParseFailure} (h : Reads config st before (t :: rest))
    (hrefused : ¬ Admitted config before t rest)
    (hoperands : operandsOf failure.partialPlan =
      operandsOf (opcodesBetween config [] before (t :: rest))) :
    Conserves config (before ++ t :: rest) (.error failure) :=
  .inl ⟨before, t, rest, rfl, h.admitted, hrefused, h.admitted.haveOpcodes, hoperands⟩

theorem conserves_step_error {failure : ParseFailure} (h : Reads config st before (t :: rest))
    (hcall : t.kind = .function → ∀ next ∈ rest.head?, next.kind ≠ .openParen)
    (hstep : st.step config t = .error failure) :
    Conserves config (before ++ t :: rest) (.error failure) := by
  refine h.conserves_error ?_ (h.ledger.operands_of_step hstep)
  rw [← h.tracks.step_iff h.apart hcall, hstep]
  simp

theorem conserves_run {tokens : List Token} (h : Reads config st before tokens) :
    Conserves config (before ++ tokens) (run config st tokens) := by
  induction st, tokens using run.induct config generalizing before with
  | case1 st =>
    rw [run, List.append_nil]
    exact h.conserves_finish
  | case2 st token =>
    rw [run]
    cases hstep : st.step config token with
    | error failure => exact h.conserves_step_error (by simp) hstep
    | ok next => exact (h.of_step (by simp [NoAssignment]) (by simp) hstep).conserves_finish
  | case3 st token next rest hassign ih =>
    rw [run, if_pos hassign, List.append_cons, List.append_cons]
    exact ih (h.assign hassign.1 hassign.2)
  | case4 st token next rest hassign hcall function hfind ih =>
    rw [run, if_neg hassign, if_pos hcall, List.append_cons, List.append_cons]
    simp only [hfind]
    exact ih (h.call hcall.1 hcall.2 hfind)
  | case5 st token next rest hassign hcall hfind =>
    rw [run, if_neg hassign, if_pos hcall]
    simp only [hfind]
    refine h.conserves_error ?_ h.ledger.operands
    simp [Admitted, Token.Resolves, hcall.1, hfind]
  | case6 st token next rest hassign hcall after hafter ih =>
    have hname : token.kind = .identifier → NoAssignment (next :: rest) :=
      fun hkind => .cons fun hmark => hassign ⟨hkind, hmark⟩
    rw [run, if_neg hassign, if_neg hcall, List.append_cons]
    simp only [hafter]
    exact ih (h.of_step hname (by simpa using hcall) hafter)
  | case7 st token next rest hassign hcall failure hfailure =>
    rw [run, if_neg hassign, if_neg hcall]
    simp only [hfailure]
    exact h.conserves_step_error (by simpa using hcall) hfailure

end Reads

end ParseState

/-- Every plan, and every part of one that breaks off, keeps of its tokens what it should. -/
theorem ofTokens_conserves (config : Config) (tokens : List Token) :
    Conserves config tokens (Plan.ofTokens config tokens) := by
  have hstart : ParseState.Reads config {} [] tokens :=
    { tracks := ⟨by decide, rfl⟩
      apart := ⟨by simp, by simp⟩
      admitted := admittedBefore_nil
      ledger := ⟨List.Perm.refl _, rfl⟩ }
  exact hstart.conserves_run

end LineCalc
