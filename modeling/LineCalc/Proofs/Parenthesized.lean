import LineCalc.Plan.OfTokens
import LineCalc.Proofs.Expression.Reading
import LineCalc.Proofs.Lexing
import LineCalc.Proofs.Results

/-!
# Lines in parentheses

Tokens that make a plan make the same plan between parentheses: nothing of what waits before the
opening parenthesis is touched, and the closing one completes what the end of the line would.

* **`ParseState.above`**: the reading with an open parenthesis below everything that waits.
* **`step_above`**: a token does the same above an open parenthesis.
* **`run_above`**: tokens that make a plan put it into the plan around the parentheses.
-/

namespace LineCalc.ParseState

/-- The state with an open parenthesis, and what waits before it, below everything that waits. -/
def above (below : List Pending) (st : ParseState) : ParseState :=
  { st with stack := st.stack ++ .paren :: below }

variable {config : Config} (below : List Pending)

theorem complete_above (next : BinaryOperator) (reversed : List Opcode) (stack : List Pending) :
    complete next reversed (stack ++ .paren :: below) =
      ((complete next reversed stack).1, (complete next reversed stack).2 ++ .paren :: below) := by
  induction stack generalizing reversed with
  | nil => rfl
  | cons p rest ih =>
    cases p with
    | operator top =>
      simp only [List.cons_append, complete]
      split
      · exact ih _
      · rfl
    | paren | call | assign => rfl

theorem unwind_above (reversed : List Opcode) (stack : List Pending) :
    unwind reversed (stack ++ .paren :: below) =
      ((unwind reversed stack).1, (unwind reversed stack).2 ++ .paren :: below) := by
  induction stack generalizing reversed with
  | nil => rfl
  | cons p rest ih =>
    cases p with
    | operator op | assign name => exact ih _
    | paren | call => rfl

theorem pushOperator_above (st : ParseState) (op : Operator) :
    (st.above below).pushOperator op = (st.pushOperator op).above below := by
  cases op with
  | unary op => rfl
  | binary op => simp [pushOperator, above, complete_above]

theorem close_above {st next : ParseState} (h : st.close = .ok next) :
    (st.above below).close = .ok (next.above below) := by
  have hunwind := unwind_above below st.reversed st.stack
  unfold close at h
  split at h
  · rename_i reversed rest heq
    cases h
    rw [heq] at hunwind
    simp [close, above, hunwind]
  · rename_i reversed function args rest heq
    rw [heq] at hunwind
    split at h <;> cases h
    rename_i count hcount
    simp [close, above, hunwind, hcount]
  · cases h

theorem separate_above {st next : ParseState} (h : st.separate = .ok next) :
    (st.above below).separate = .ok (next.above below) := by
  have hunwind := unwind_above below st.reversed st.stack
  unfold separate at h
  split at h
  · cases h
  · rename_i hexpect
    split at h <;> cases h
    rename_i reversed function args rest heq
    rw [heq] at hunwind
    simp [separate, above, hexpect, hunwind]

/-- Where a line may end, a parenthesis may be closed. -/
theorem close_above_of_finish {st : ParseState} {plan : Plan} (h : st.finish = .ok plan) :
    (st.above below).close =
      .ok { reversed := plan.reverse, stack := below, expect := .operator } := by
  have hunwind := unwind_above below st.reversed st.stack
  unfold finish at h
  split at h <;> cases h
  rename_i reversed heq
  rw [heq] at hunwind
  simp [close, above, hunwind]

theorem operandOr_above {st next : ParseState} {op : Option Opcode} {error : ParseError}
    (h : st.operandOr op error = .ok next) :
    (st.above below).operandOr op error = .ok (next.above below) := by
  cases op with
  | none => cases h
  | some op =>
    cases h
    rfl

theorem step_above {st next : ParseState} {token similar : Token} (hsimilar : token.Similar similar)
    (h : st.step config token = .ok next) :
    (st.above below).step config similar = .ok (next.above below) := by
  obtain ⟨hkind, htext⟩ := hsimilar
  unfold step at h ⊢
  rw [← hkind, ← htext]
  cases htoken : token.kind <;> simp only [htoken] at h
  case comment | identifier | openParen =>
    cases h
    rfl
  case number =>
    split at h <;> cases h
    rfl
  case date | time | unit | aggregator => exact operandOr_above below h
  case operator =>
    split at h <;> cases h
    rename_i op hresolve
    have hresolve' : (st.above below).resolve config token.text = some op := hresolve
    simp only [hresolve', pushOperator_above]
  case assignment => cases h
  case function => split at h <;> cases h
  case closeParen => exact close_above below h
  case semicolon => exact separate_above below h

/-- Tokens that make a plan put it into the plan around the parentheses they are written in. -/
theorem run_above {st : ParseState} {tokens similar : List Token} {plan : Plan}
    (hsimilar : List.Forall₂ Token.Similar tokens similar) (h : run config st tokens = .ok plan)
    {closing : Token} (hclose : closing.kind = .closeParen) (rest : List Token) :
    run config (st.above below) (similar ++ closing :: rest) =
      run config { reversed := plan.reverse, stack := below, expect := .operator } rest := by
  -- where the line ended, the closing parenthesis completes the same
  have hend : ∀ {st : ParseState}, st.finish = .ok plan →
      run config (st.above below) (closing :: rest) =
        run config { reversed := plan.reverse, stack := below, expect := .operator } rest := by
    intro st hfinish
    have hstep : (st.above below).step config closing =
        .ok { reversed := plan.reverse, stack := below, expect := .operator } := by
      simp only [step, hclose]
      exact close_above_of_finish below hfinish
    exact run_cons hstep (fun hname => by simp [hclose] at hname)
  induction st, tokens using run.induct config generalizing similar with
  | case1 st =>
    cases hsimilar
    exact hend h
  | case2 st token =>
    cases hsimilar with
    | cons htoken hnil =>
      cases hnil
      obtain ⟨next, hnext, hfinish⟩ := bind_eq_ok.1 h
      rw [List.singleton_append,
        run_cons (step_above below htoken hnext) (fun _ => .cons (by simp [hclose]))]
      exact hend hfinish
  | case3 st token next others hassign ih =>
    rw [run, if_pos hassign] at h
    rcases hsimilar with _ | ⟨htoken, _ | ⟨hnext, hothers⟩⟩
    rw [List.cons_append, List.cons_append,
      run_assign (htoken.1 ▸ hassign.1) (hnext.1 ▸ hassign.2), ← htoken.2]
    exact ih hothers h
  | case4 st token next others hassign hcall function hfind ih =>
    rw [run, if_neg hassign, if_pos hcall, hfind] at h
    rcases hsimilar with _ | ⟨htoken, _ | ⟨hnext, hothers⟩⟩
    rw [List.cons_append, List.cons_append,
      run_call (htoken.1 ▸ hcall.1) (hnext.1 ▸ hcall.2) (htoken.2 ▸ hfind)]
    exact ih hothers h
  | case5 st token next others hassign hcall hfind =>
    rw [run, if_neg hassign, if_pos hcall, hfind] at h
    cases h
  | case6 st token next others hassign hcall after hstep ih =>
    rw [run, if_neg hassign, if_neg hcall, hstep] at h
    rcases hsimilar with _ | ⟨htoken, _ | ⟨hnext, hothers⟩⟩
    rename_i token' next' others'
    -- a name before the closing parenthesis is not taken for one that is assigned
    have hname : token'.kind = .identifier → NoAssignment (next' :: (others' ++ closing :: rest)) :=
      fun hkind => .cons fun hmark => hassign ⟨htoken.1.trans hkind, hnext.1.trans hmark⟩
    rw [List.cons_append, List.cons_append, run_cons (step_above below htoken hstep) hname]
    exact ih (.cons hnext hothers) h
  | case7 st token next others hassign hcall failure hstep =>
    rw [run, if_neg hassign, if_neg hcall, hstep] at h
    cases h

end LineCalc.ParseState
