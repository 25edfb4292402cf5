import LineCalc.Config.Standard
import LineCalc.Plan.OfTokens
import LineCalc.Proofs.Expression.Written

/-!
# Reading expressions back

Tokens that write an expression make its plan, whatever the precedences of the vocabulary are.

While an operand is read, the operators that are open at its right end wait on the stack, the
innermost on top, and all the rest of it is in the plan already. What is below them on the stack is
not touched, as long as an operator there waits for the root of the operand. This is what every rule
of the grammar keeps:

* **`ReadsOperand`**, **`ReadsStart`**, **`ReadsArguments`**: what reading does with an operand, with
  what starts a line, a group or an argument, and with the arguments of an open call.
* **`readsOperand_infixed`** and its neighbours: one lemma for each rule of the grammar.
* **`readsOperand_of_written`**: every written operand is read so, by induction on how it is written.
-/

namespace LineCalc

open ParseState

/-! ## Steps of the reading -/

/-- The tokens do not start with an assignment, which would take the word before it as its name. -/
def NoAssignment (tokens : List Token) : Prop :=
  ∀ next ∈ tokens.head?, next.kind ≠ .assignment

theorem NoAssignment.cons {next : Token} {rest : List Token} (h : next.kind ≠ .assignment) :
    NoAssignment (next :: rest) := by
  simpa [NoAssignment] using h

/-- A token that stands for itself is taken in on its own. -/
theorem run_cons {config : Config} {st next : ParseState} {token : Token} {rest : List Token}
    (hstep : st.step config token = .ok next)
    (hname : token.kind = .identifier → NoAssignment rest) :
    run config st (token :: rest) = run config next rest := by
  -- a function on its own is a failure, so the token is none
  have hfunction : token.kind ≠ .function := by
    intro h
    simp only [step, h] at hstep
    split at hstep <;> cases hstep
  cases rest with
  | nil => simp only [run, hstep, Except.bind]
  | cons after rest =>
    -- neither of the two pairs that are taken in together
    have hassign : ¬(token.kind = .identifier ∧ after.kind = .assignment) :=
      fun h => hname h.1 after (by simp) h.2
    have hcall : ¬(token.kind = .function ∧ after.kind = .openParen) := fun h => hfunction h.1
    simp only [run, if_neg hassign, if_neg hcall, hstep]

theorem run_assign {config : Config} {st : ParseState} {name mark : Token} {rest : List Token}
    (hname : name.kind = .identifier) (hmark : mark.kind = .assignment) :
    run config st (name :: mark :: rest) = run config (st.wait (.assign name.text)) rest := by
  rw [run, if_pos ⟨hname, hmark⟩]

theorem run_call {config : Config} {st : ParseState} {token opening : Token} {rest : List Token}
    {function : Function} (hkind : token.kind = .function) (hopen : opening.kind = .openParen)
    (hfind : config.functions.find? token.text = some function) :
    run config st (token :: opening :: rest) = run config (st.wait (.call function 0)) rest := by
  have hassign : ¬(token.kind = .identifier ∧ opening.kind = .assignment) := by
    simp [hkind]
  rw [run, if_neg hassign, if_pos ⟨hkind, hopen⟩, hfind]

/-! ## What waits on the stack -/

/-- The opcode that something waiting becomes; a bracket becomes none. -/
def Pending.opcode? : Pending → Option Opcode
  | .operator op => some (.operator op)
  | .assign name => some (.assign name)
  | .paren | .call _ _ => none

/-- What waits holds no bracket, and becomes these opcodes from the top down. -/
def Completes (waiting : List Pending) (ops : List Opcode) : Prop :=
  waiting.map Pending.opcode? = ops.map some

theorem completes_operators (openOps : List Operator) :
    Completes (openOps.map .operator) (openOps.map .operator) := by
  simp [Completes, Pending.opcode?, Function.comp_def]

theorem Completes.append {waiting below : List Pending} {ops belowOps : List Opcode}
    (h : Completes waiting ops) (hbelow : Completes below belowOps) :
    Completes (waiting ++ below) (ops ++ belowOps) := by
  unfold Completes at *
  rw [List.map_append, List.map_append, h, hbelow]

/-- Completing what waits above a part of the stack puts its opcodes into the plan. -/
theorem unwind_append {waiting : List Pending} {ops : List Opcode} (h : Completes waiting ops)
    (reversed : List Opcode) (below : List Pending) :
    unwind reversed (waiting ++ below) = unwind (ops.reverse ++ reversed) below := by
  -- induction on what waits, whose opcodes go into the plan from the top down
  induction waiting generalizing ops reversed with
  | nil =>
    obtain rfl : ops = [] := by simpa [Completes] using h.symm
    rfl
  | cons p waiting ih =>
    cases ops with
    | nil => simp [Completes] at h
    | cons op ops =>
      obtain ⟨hp, hwaiting⟩ : p.opcode? = some op ∧ Completes waiting ops := by
        simpa [Completes] using h
      have hstep : unwind reversed (p :: (waiting ++ below)) =
          unwind (op :: reversed) (waiting ++ below) := by
        cases p <;> simp only [Pending.opcode?, Option.some.injEq, reduceCtorEq] at hp
        all_goals subst hp; rfl
      rw [List.cons_append, hstep, ih hwaiting, List.reverse_cons, List.append_assoc,
        List.singleton_append]

theorem bindsFirst_of_endsBefore {inner : Operator} {next : BinaryOperator}
    (h : inner.EndsBefore next) : bindsFirst inner next = true := by
  unfold bindsFirst
  rcases h with h | ⟨hprec, hleft⟩
  · simp [h]
  · simp [hprec, hleft]

theorem bindsFirst_of_waitsFor {outer : Operator} {next : BinaryOperator}
    (h : outer.WaitsFor next) : bindsFirst outer next = false := by
  unfold bindsFirst
  rcases h with h | ⟨hprec, hright⟩
  · simp only [Bool.or_eq_false_iff, decide_eq_false_iff_not, Bool.and_eq_false_iff,
      beq_eq_false_iff_ne]
    omega
  · simp [hprec, hright]

/--
An operator between operands completes the operators that are open in its left operand, given
innermost first, and nothing below them.
-/
theorem complete_append {next : BinaryOperator} {openOps : List Operator} {below : List Pending}
    (hends : ∀ inner ∈ openOps, inner.EndsBefore next)
    (hbelow : ∀ outer rest, below = .operator outer :: rest → outer.WaitsFor next)
    (reversed : List Opcode) :
    complete next reversed (openOps.map .operator ++ below) =
      ((openOps.map Opcode.operator).reverse ++ reversed, below) := by
  induction openOps generalizing reversed with
  | nil =>
    -- the first thing below stops the completion: it is no operator, or one that waits
    rcases below with _ | ⟨_ | _ | _ | _, rest⟩
    case cons.operator outer =>
      simp [complete, bindsFirst_of_waitsFor (hbelow outer rest rfl)]
    all_goals rfl
  | cons inner openOps ih =>
    have hinner := bindsFirst_of_endsBefore (hends inner (List.mem_cons_self ..))
    have hrest := ih (fun op hop => hends op (List.mem_cons_of_mem _ hop))
      (.operator inner :: reversed)
    simp only [List.map_cons, List.cons_append, complete, hinner, if_true, hrest,
      List.reverse_cons, List.append_assoc, List.nil_append]

/-! ## What reading does with a part of a line -/

/-- The state after an operand of which `done` is in the plan and `waiting` is on the stack. -/
def ParseState.advance (st : ParseState) (done : List Opcode) (waiting : List Pending) :
    ParseState where
  reversed := done.reverse ++ st.reversed
  stack := waiting ++ st.stack
  expect := .operator

/--
The tokens are read as an operand: its open operators are left waiting, and the rest of its plan is
made. An operator below them has to wait for the root of the operand.
-/
def ReadsOperand (config : Config) (e : Expression) (tokens : List Token)
    (openOps : List Operator) : Prop :=
  ∃ done, e.postorder = done ++ openOps.reverse.map .operator ∧
    ∀ (st : ParseState) (rest : List Token), st.expect = .operand →
      (∀ outer below, st.stack = .operator outer :: below → FitsRightOf outer openOps) →
      NoAssignment rest →
      run config st (tokens ++ rest) =
        run config (st.advance done (openOps.reverse.map .operator)) rest

/-- The tokens are read where a line, a group or an argument starts, with no operator before them. -/
def ReadsStart (config : Config) (e : Expression) (tokens : List Token) : Prop :=
  ∃ done waiting ops, Completes waiting ops ∧ e.postorder = done ++ ops ∧
    ∀ (st : ParseState) (rest : List Token), st.expect = .operand →
      (∀ outer below, st.stack ≠ .operator outer :: below) → NoAssignment rest →
      run config st (tokens ++ rest) = run config (st.advance done waiting) rest

/-- The tokens and the parenthesis after them are read as the last arguments of an open call. -/
def ReadsArguments (config : Config) (args : List Expression) (tokens : List Token) : Prop :=
  ∀ (st : ParseState) (rest : List Token) (function : Function) (count : Nat)
    (below : List Pending) (closing : Token), st.expect = .operand →
    st.stack = .call function count :: below → (args = [] → count = 0) →
    closing.kind = .closeParen →
    run config st (tokens ++ closing :: rest) =
      run config
        { reversed :=
            .call function (count + args.length) ::
              ((Expression.postorderAll args).reverse ++ st.reversed)
          stack := below
          expect := .operator } rest

/-! ## Literals and names -/

theorem readsOperand_of_step {config : Config} {e : Expression} {token : Token} {op : Opcode}
    (hpostorder : e.postorder = [op])
    (hstep : ∀ st : ParseState, st.step config token = .ok (st.operand op)) :
    ReadsOperand config e [token] [] := by
  refine ⟨[op], by simp [hpostorder], fun st rest _ _ hrest => ?_⟩
  rw [List.singleton_append, run_cons (hstep st) (fun _ => hrest)]
  rfl

theorem step_number {config : Config} {token : Token} {value : Decimal}
    (hkind : token.kind = .number) (hread : config.format.read token.text = .ok value)
    (st : ParseState) : st.step config token = .ok (st.operand (.number value)) := by
  simp only [step, hkind, hread]

theorem step_unit {config : Config} {token : Token} {unit : MeasureUnit}
    (hkind : token.kind = .unit) (hlookup : config.units.lookup token.text = some unit)
    (st : ParseState) : st.step config token = .ok (st.operand (.unit unit)) := by
  simp only [step, hkind, hlookup, Option.map_some, operandOr]

theorem readsOperand_quantity {config : Config} {token unitToken : Token} {value : Decimal}
    {unit : MeasureUnit}
    (hkind : token.kind = .number) (hread : config.format.read token.text = .ok value)
    (hunit : unitToken.kind = .unit) (hlookup : config.units.lookup unitToken.text = some unit) :
    ReadsOperand config (.number value (some unit)) [token, unitToken] [] := by
  refine ⟨[.number value, .unit unit], by simp [Expression.postorder], fun st rest _ _ _ => ?_⟩
  rw [List.cons_append, List.singleton_append,
    run_cons (step_number hkind hread st) (fun h => by simp [hkind] at h),
    run_cons (step_unit hunit hlookup (st.operand (.number value))) (fun h => by simp [hunit] at h)]
  rfl

/-! ## Operators -/

/-- An operator before an operand waits, and the operand is read above it. -/
theorem readsOperand_prefixed {config : Config} {token : Token} {op : UnaryOperator}
    {e : Expression} {tokens : List Token} {openOps : List Operator}
    (hkind : token.kind = .operator) (hfind : config.unaryOperators.find? token.text = some op)
    (h : ReadsOperand config e tokens openOps) (hfits : FitsRightOf (.unary op) openOps) :
    ReadsOperand config (.prefixed op e) (token :: tokens) (.unary op :: openOps) := by
  obtain ⟨done, hpostorder, hrun⟩ := h
  refine ⟨done, by simp [Expression.postorder, hpostorder], fun st rest hexpect _ hrest => ?_⟩
  -- nothing is completed by an operator before its operand, whatever waits below
  have hstep : st.step config token = .ok (st.wait (.operator (.unary op))) := by
    simp [step, hkind, resolve, hexpect, hfind, pushOperator]
  have habove : ∀ outer below, (st.wait (.operator (.unary op))).stack = .operator outer :: below →
      FitsRightOf outer openOps := by
    intro outer below hstack
    cases hstack
    exact hfits
  rw [List.cons_append, run_cons hstep (fun hname => by simp [hkind] at hname),
    hrun _ rest rfl habove hrest]
  simp [advance, wait]

/--
An operator between operands: its left operand is read, its open operators are completed, the
operator takes their place, and the right operand is read above it.
-/
theorem readsOperand_infixed {config : Config} {token : Token} {op : BinaryOperator}
    {left right : Expression} {leftTokens rightTokens : List Token}
    {leftOps rightOps : List Operator}
    (hleft : ReadsOperand config left leftTokens leftOps)
    (hends : ∀ inner ∈ leftOps, inner.EndsBefore op)
    (hkind : token.kind = .operator) (hfind : config.binaryOperators.find? token.text = some op)
    (hright : ReadsOperand config right rightTokens rightOps)
    (hfits : FitsRightOf (.binary op) rightOps) :
    ReadsOperand config (.infixed op left right) (leftTokens ++ token :: rightTokens)
      (.binary op :: rightOps) := by
  obtain ⟨leftDone, hleftPostorder, hleftRun⟩ := hleft
  obtain ⟨rightDone, hrightPostorder, hrightRun⟩ := hright
  refine ⟨left.postorder ++ rightDone, by simp [Expression.postorder, hrightPostorder],
    fun st rest hexpect hbelow hrest => ?_⟩
  -- what waits below waits for the operator, and so for the root of its left operand
  have hbelowOp : ∀ outer below, st.stack = .operator outer :: below → outer.WaitsFor op :=
    fun outer below hstack => hbelow outer below hstack op rfl
  have hbelowLeft : ∀ outer below, st.stack = .operator outer :: below →
      FitsRightOf outer leftOps :=
    fun outer below hstack root hroot =>
      (hbelowOp outer below hstack).of_endsBefore (hends _ (List.mem_of_mem_head? hroot))
  -- the operators that are open in the left operand are completed, and nothing below them
  have hcomplete := complete_append (fun inner hinner => hends inner (List.mem_reverse.1 hinner))
    hbelowOp (leftDone.reverse ++ st.reversed)
  have hstep : (st.advance leftDone (leftOps.reverse.map .operator)).step config token =
      .ok { reversed := left.postorder.reverse ++ st.reversed
            stack := .operator (.binary op) :: st.stack
            expect := .operand } := by
    simp only [step, hkind, resolve, hfind, pushOperator, advance, hcomplete, Option.map_some,
      Option.some_or, hleftPostorder, List.reverse_append, List.append_assoc]
  rw [List.append_assoc, List.cons_append,
    hleftRun st _ hexpect hbelowLeft (.cons (by simp [hkind])),
    run_cons hstep (fun hname => by simp [hkind] at hname),
    hrightRun _ rest rfl (fun outer below hstack => by cases hstack; exact hfits) hrest]
  simp [advance]

/-! ## Starts, groups and calls -/

theorem ReadsOperand.readsStart {config : Config} {e : Expression} {tokens : List Token}
    {openOps : List Operator} (h : ReadsOperand config e tokens openOps) :
    ReadsStart config e tokens := by
  obtain ⟨done, hpostorder, hrun⟩ := h
  refine ⟨done, openOps.reverse.map .operator, openOps.reverse.map .operator,
    completes_operators _, hpostorder, fun st rest hexpect htop hrest => ?_⟩
  exact hrun st rest hexpect (fun outer below hstack => absurd hstack (htop outer below)) hrest

theorem readsStart_assign {config : Config} {name mark : Token} {e : Expression}
    {tokens : List Token} (hname : name.kind = .identifier) (hmark : mark.kind = .assignment)
    (h : ReadsStart config e tokens) :
    ReadsStart config (.assign name.text e) (name :: mark :: tokens) := by
  obtain ⟨done, waiting, ops, hcompletes, hpostorder, hrun⟩ := h
  refine ⟨done, waiting ++ [.assign name.text], ops ++ [.assign name.text],
    hcompletes.append (by simp [Completes, Pending.opcode?]),
    by simp [Expression.postorder, hpostorder], fun st rest hexpect _ hrest => ?_⟩
  -- the name is no operator, so the value starts above it as a line does
  have htop : ∀ outer below, (st.wait (.assign name.text)).stack ≠ .operator outer :: below := by
    simp [wait]
  rw [List.cons_append, List.cons_append, run_assign hname hmark, hrun _ rest rfl htop hrest]
  simp [advance, wait]

theorem close_paren_advance {st : ParseState} {waiting : List Pending} {done ops : List Opcode}
    {below : List Pending} (hcompletes : Completes waiting ops) (hstack : st.stack = .paren :: below) :
    (st.advance done waiting).close =
      .ok { reversed := (done ++ ops).reverse ++ st.reversed
            stack := below
            expect := .operator } := by
  simp [close, advance, hstack, unwind_append hcompletes, unwind]

/-- A group in parentheses is read as an operand that leaves nothing open. -/
theorem readsOperand_group {config : Config} {opening closing : Token} {e : Expression}
    {tokens : List Token} (hopen : opening.kind = .openParen) (h : ReadsStart config e tokens)
    (hclose : closing.kind = .closeParen) :
    ReadsOperand config e (opening :: (tokens ++ [closing])) [] := by
  obtain ⟨done, waiting, ops, hcompletes, hpostorder, hrun⟩ := h
  refine ⟨e.postorder, by simp, fun st rest _ _ hrest => ?_⟩
  have hopenStep : st.step config opening = .ok (st.wait .paren) := by
    simp only [step, hopen]
  have hcloseStep : ((st.wait .paren).advance done waiting).step config closing =
      .ok (st.advance e.postorder []) := by
    simp only [step, hclose]
    rw [close_paren_advance hcompletes rfl, ← hpostorder]
    rfl
  rw [List.cons_append, List.append_assoc, List.singleton_append,
    run_cons hopenStep (fun hname => by simp [hopen] at hname),
    hrun _ _ rfl (by simp [wait]) (.cons (by simp [hclose])),
    run_cons hcloseStep (fun hname => by simp [hclose] at hname)]
  rfl

/-- A call that is closed after an argument has one argument more than it has separators. -/
theorem readsArguments_last {config : Config} {e : Expression} {tokens : List Token}
    (h : ReadsStart config e tokens) : ReadsArguments config [e] tokens := by
  obtain ⟨done, waiting, ops, hcompletes, hpostorder, hrun⟩ := h
  intro st rest function count below closing hexpect hstack _ hclose
  have hcloseStep : (st.advance done waiting).step config closing =
      .ok { reversed := .call function (count + 1) :: (e.postorder.reverse ++ st.reversed)
            stack := below
            expect := .operator } := by
    simp [step, hclose, close, advance, hstack, unwind_append hcompletes, unwind, argumentCount?,
      hpostorder]
  rw [hrun st _ hexpect (by simp [hstack]) (.cons (by simp [hclose])),
    run_cons hcloseStep (fun hname => by simp [hclose] at hname)]
  simp [Expression.postorderAll]

theorem readsArguments_more {config : Config} {e next : Expression} {others : List Expression}
    {separator : Token} {tokens otherTokens : List Token} (h : ReadsStart config e tokens)
    (hseparator : separator.kind = .semicolon)
    (hothers : ReadsArguments config (next :: others) otherTokens) :
    ReadsArguments config (e :: next :: others) (tokens ++ separator :: otherTokens) := by
  obtain ⟨done, waiting, ops, hcompletes, hpostorder, hrun⟩ := h
  intro st rest function count below closing hexpect hstack _ hclose
  have hstep : (st.advance done waiting).step config separator =
      .ok { reversed := e.postorder.reverse ++ st.reversed
            stack := .call function (count + 1) :: below
            expect := .operand } := by
    simp [step, hseparator, separate, advance, hstack, unwind_append hcompletes, unwind,
      hpostorder]
  rw [List.append_assoc, List.cons_append,
    hrun st _ hexpect (by simp [hstack]) (.cons (by simp [hseparator])),
    run_cons hstep (fun hname => by simp [hseparator] at hname),
    hothers _ rest function (count + 1) below closing rfl rfl (by simp) hclose]
  -- the separator has counted the first argument already
  have hcount : count + 1 + (next :: others).length = count + (e :: next :: others).length := by
    simp only [List.length_cons]
    omega
  rw [hcount]
  simp [Expression.postorderAll]

theorem readsArguments_none {config : Config} : ReadsArguments config [] [] := by
  intro st rest function count below closing hexpect hstack hcount hclose
  have hcloseStep : st.step config closing =
      .ok { reversed := .call function 0 :: st.reversed, stack := below, expect := .operator } := by
    simp [step, hclose, close, hstack, unwind, argumentCount?, hexpect, hcount rfl]
  rw [List.nil_append, run_cons hcloseStep (fun hname => by simp [hclose] at hname), hcount rfl]
  rfl

theorem readsOperand_call {config : Config} {token opening closing : Token} {function : Function}
    {args : List Expression} {tokens : List Token} (hkind : token.kind = .function)
    (hfind : config.functions.find? token.text = some function)
    (hopen : opening.kind = .openParen) (h : ReadsArguments config args tokens)
    (hclose : closing.kind = .closeParen) :
    ReadsOperand config (.call function args) (token :: opening :: (tokens ++ [closing])) [] := by
  refine ⟨Expression.postorder (.call function args), by simp, fun st rest _ _ _ => ?_⟩
  rw [List.cons_append, List.cons_append, List.append_assoc, List.singleton_append,
    run_call hkind hopen hfind,
    h _ rest function 0 st.stack closing rfl rfl (fun _ => rfl) hclose]
  simp [Expression.postorder, advance, wait]

/-! ## Lines -/

mutual

/-- Tokens that write an operand are read as that operand. -/
theorem readsOperand_of_written {config : Config} {e : Expression} {tokens : List Token}
    {openOps : List Operator} : Written config e tokens openOps →
      ReadsOperand config e tokens openOps
  | .number hkind hread => readsOperand_of_step rfl (step_number hkind hread)
  | .quantity hkind hread hunit hlookup => readsOperand_quantity hkind hread hunit hlookup
  | .date hkind hread =>
    readsOperand_of_step rfl fun st => by simp only [step, hkind, hread, Option.map_some, operandOr]
  | .time hkind hread =>
    readsOperand_of_step rfl fun st => by simp only [step, hkind, hread, Option.map_some, operandOr]
  | .load hkind => readsOperand_of_step rfl fun st => by simp only [step, hkind]
  | .aggregator hkind hfind =>
    readsOperand_of_step rfl fun st => by simp only [step, hkind, hfind, Option.map_some, operandOr]
  | .group hopen h hclose => readsOperand_group hopen (readsStart_of_started h) hclose
  | .prefixed hkind hfind h hfits =>
    readsOperand_prefixed hkind hfind (readsOperand_of_written h) hfits
  | .infixed hleft hends hkind hfind hright hfits =>
    readsOperand_infixed (readsOperand_of_written hleft) hends hkind hfind
      (readsOperand_of_written hright) hfits
  | .call hkind hfind hopen h hclose =>
    readsOperand_call hkind hfind hopen (readsArguments_of_arguments h) hclose

theorem readsStart_of_started {config : Config} {e : Expression} {tokens : List Token} :
    Started config e tokens → ReadsStart config e tokens
  | .operand h => (readsOperand_of_written h).readsStart
  | .assign hname hmark h => readsStart_assign hname hmark (readsStart_of_started h)

theorem readsArguments_of_arguments {config : Config} {args : List Expression}
    {tokens : List Token} : Arguments config args tokens → ReadsArguments config args tokens
  | .none => readsArguments_none
  | .last h => readsArguments_last (readsStart_of_started h)
  | .more h hseparator hothers =>
    readsArguments_more (readsStart_of_started h) hseparator (readsArguments_of_arguments hothers)

end

/--
Tokens that write an expression make its plan: operands from left to right, each operator after its
operands, a call after its arguments with their number, and an assignment after its value.
-/
theorem ofTokens_of_started {config : Config} {e : Expression} {tokens : List Token}
    (h : Started config e tokens) : Plan.ofTokens config tokens = .ok e.postorder := by
  obtain ⟨done, waiting, ops, hcompletes, hpostorder, hrun⟩ := readsStart_of_started h
  have hread := hrun {} [] rfl (by simp) (by simp [NoAssignment])
  rw [List.append_nil] at hread
  rw [Plan.ofTokens, hread]
  -- the end of the line completes what waits, and no bracket is among it
  simp only [run, finish, advance]
  rw [unwind_append hcompletes]
  simp [unwind, hpostorder]

/-- The line `x = -(2 + y) * round(y; 1)`: the sign goes with the group, the assignment comes last. -/
theorem ofTokens_signed_group_times_call :
    Plan.ofTokens Config.standard
        [⟨.identifier, "x", 0⟩, ⟨.assignment, "=", 2⟩, ⟨.operator, "-", 4⟩, ⟨.openParen, "(", 5⟩,
          ⟨.number, "2", 6⟩, ⟨.operator, "+", 8⟩, ⟨.identifier, "y", 10⟩, ⟨.closeParen, ")", 11⟩,
          ⟨.operator, "*", 13⟩, ⟨.function, "round", 15⟩, ⟨.openParen, "(", 20⟩,
          ⟨.identifier, "y", 21⟩, ⟨.semicolon, ";", 22⟩, ⟨.number, "1", 24⟩,
          ⟨.closeParen, ")", 25⟩] =
      .ok
        [.number (.ofInt 2), .load "y",
          .operator (Standard.binary "+" Standard.additivePrecedence (.arithmetic .add)),
          .operator (Standard.unary "-" .negate), .load "y", .number (.ofInt 1),
          .call ⟨"round", .round .round⟩ 2,
          .operator (Standard.binary "*" Standard.multiplicativePrecedence (.arithmetic .multiply)),
          .assign "x"] := by
  have hnumber : ∀ offset text value, Config.standard.format.read text = .ok value →
      Written Config.standard (.number value none) [⟨.number, text, offset⟩] [] :=
    fun _ _ _ hread => .number rfl hread
  have hy : ∀ offset, Written Config.standard (.load "y") [⟨.identifier, "y", offset⟩] [] :=
    fun offset => @Written.load _ ⟨.identifier, "y", offset⟩ rfl
  have hsum := @Written.infixed _ ⟨.operator, "+", 8⟩ _ _ _ _ _ _ _
    (hnumber 6 "2" _ rfl) (by simp) rfl rfl (hy 10) (by simp [FitsRightOf])
  have hgroup := @Written.group _ ⟨.openParen, "(", 5⟩ ⟨.closeParen, ")", 11⟩ _ _
    rfl (.operand hsum) rfl
  have hsigned := @Written.prefixed _ ⟨.operator, "-", 4⟩ _ _ _ _
    rfl rfl hgroup (by simp [FitsRightOf])
  have hargs := @Arguments.more _ _ _ _ ⟨.semicolon, ";", 22⟩ _ _
    (.operand (hy 21)) rfl (.last (.operand (hnumber 24 "1" _ rfl)))
  have hcall := @Written.call _ ⟨.function, "round", 15⟩ ⟨.openParen, "(", 20⟩
    ⟨.closeParen, ")", 25⟩ _ _ _ rfl rfl rfl hargs rfl
  -- the sign is still open before `*`, and binds tighter
  have hproduct := @Written.infixed _ ⟨.operator, "*", 13⟩ _ _ _ _ _ _ _
    hsigned (by simp [Operator.EndsBefore, Operator.precedence]; decide) rfl rfl
    hcall (by simp [FitsRightOf])
  have hline := @Started.assign _ ⟨.identifier, "x", 0⟩ ⟨.assignment, "=", 2⟩ _ _
    rfl rfl (.operand hproduct)
  exact ofTokens_of_started hline

end LineCalc
