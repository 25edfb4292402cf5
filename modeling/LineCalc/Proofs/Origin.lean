import LineCalc.Plan.OfTokens
import LineCalc.Proofs.Results

/-!
# Where opcodes come from

Whatever a line looks like, the units of its plan are looked up in the registry, and the names that it
assigns are words of the line that stand before an assignment.

* **`Opcode.ComesFrom`**: what there is to say of an opcode of a plan.
* **`ParseState.Origin`**: the same of all that has been made so far and of the names that wait.
* **`comesFrom_of_ofTokens`**: it is true of the whole plan.
-/

namespace LineCalc

/-- Units are registered under a name, and names that are assigned are among the given words. -/
def Opcode.ComesFrom (config : Config) (words : String → Prop) : Opcode → Prop
  | .unit u => ∃ name, config.units.lookup name = some u
  | .assign name => words name
  | _ => True

/-- A name that waits for its value is among the given words. -/
def Pending.ComesFrom (words : String → Prop) : Pending → Prop
  | .assign name => words name
  | _ => True

namespace ParseState

variable {config : Config} {words : String → Prop}

/-- What has been made so far, and what waits. -/
structure Origin (config : Config) (words : String → Prop) (reversed : List Opcode)
    (stack : List Pending) : Prop where
  made : ∀ op ∈ reversed, op.ComesFrom config words
  waiting : ∀ p ∈ stack, p.ComesFrom words

namespace Origin

variable {reversed : List Opcode} {stack : List Pending}

theorem opcode (h : Origin config words reversed stack) {op : Opcode}
    (hop : op.ComesFrom config words) : Origin config words (op :: reversed) stack :=
  ⟨List.forall_mem_cons.2 ⟨hop, h.made⟩, h.waiting⟩

theorem pending (h : Origin config words reversed stack) {p : Pending} (hp : p.ComesFrom words) :
    Origin config words reversed (p :: stack) :=
  ⟨h.made, List.forall_mem_cons.2 ⟨hp, h.waiting⟩⟩

theorem head {p : Pending} (h : Origin config words reversed (p :: stack)) : p.ComesFrom words :=
  h.waiting p (List.mem_cons_self ..)

theorem tail {p : Pending} (h : Origin config words reversed (p :: stack)) :
    Origin config words reversed stack :=
  ⟨h.made, (List.forall_mem_cons.1 h.waiting).2⟩

/-- Unwinding turns operators that wait into operators, and names that wait into assignments. -/
theorem unwind (h : Origin config words reversed stack) :
    Origin config words (unwind reversed stack).1 (unwind reversed stack).2 :=
  unwind_keeps (fun h => h.tail.opcode trivial) (fun h => h.tail.opcode h.head) h

theorem complete (h : Origin config words reversed stack) (next : BinaryOperator) :
    Origin config words (complete next reversed stack).1 (complete next reversed stack).2 :=
  complete_keeps next (fun h => h.tail.opcode trivial) h

theorem pushOperator {st : ParseState} (h : Origin config words st.reversed st.stack)
    (op : Operator) :
    Origin config words (st.pushOperator op).reversed (st.pushOperator op).stack := by
  cases op with
  | unary op => exact h.pending trivial
  | binary op => exact (h.complete op).pending trivial

theorem of_close {st after : ParseState} (h : Origin config words st.reversed st.stack)
    (hclose : st.close = .ok after) : Origin config words after.reversed after.stack := by
  have hunwind := h.unwind
  unfold close at hclose
  split at hclose
  · rename_i reversed rest heq
    cases hclose
    rw [heq] at hunwind
    exact hunwind.tail
  · rename_i reversed function args rest heq
    split at hclose <;> cases hclose
    rw [heq] at hunwind
    exact hunwind.tail.opcode trivial
  · cases hclose

theorem of_separate {st after : ParseState} (h : Origin config words st.reversed st.stack)
    (hseparate : st.separate = .ok after) : Origin config words after.reversed after.stack := by
  have hunwind := h.unwind
  unfold separate at hseparate
  split at hseparate
  · cases hseparate
  · split at hseparate <;> cases hseparate
    rename_i reversed function args rest heq
    rw [heq] at hunwind
    exact hunwind.tail.pending trivial

theorem of_finish {st : ParseState} {plan : Plan} (h : Origin config words st.reversed st.stack)
    (hfinish : st.finish = .ok plan) : ∀ op ∈ plan, op.ComesFrom config words := by
  have hunwind := h.unwind
  unfold finish at hfinish
  split at hfinish <;> cases hfinish
  rename_i reversed heq
  rw [heq] at hunwind
  exact fun op hop => hunwind.made op (List.mem_reverse.1 hop)

theorem of_operandOr {α : Type} {st after : ParseState} {found : Option α} {make : α → Opcode}
    {error : ParseError} (h : Origin config words st.reversed st.stack)
    (hmake : ∀ a, found = some a → (make a).ComesFrom config words)
    (hoperand : st.operandOr (found.map make) error = .ok after) :
    Origin config words after.reversed after.stack := by
  cases found with
  | none => cases hoperand
  | some a =>
    cases hoperand
    exact h.opcode (hmake a rfl)

/-- A token on its own adds no unit but one that is looked up, and assigns nothing. -/
theorem of_step {st after : ParseState} {token : Token}
    (h : Origin config words st.reversed st.stack) (hstep : st.step config token = .ok after) :
    Origin config words after.reversed after.stack := by
  unfold step at hstep
  cases hkind : token.kind <;> simp only [hkind] at hstep
  case comment =>
    cases hstep
    exact h
  case number =>
    split at hstep <;> cases hstep
    exact h.opcode trivial
  case date | time | aggregator =>
    refine h.of_operandOr ?_ hstep
    exact fun _ _ => trivial
  case operator =>
    split at hstep <;> cases hstep
    exact h.pushOperator _
  case unit =>
    refine h.of_operandOr ?_ hstep
    exact fun u hlookup => ⟨token.text, hlookup⟩
  case identifier =>
    cases hstep
    exact h.opcode trivial
  case assignment => cases hstep
  case function => split at hstep <;> cases hstep
  case openParen =>
    cases hstep
    exact h.pending trivial
  case closeParen => exact h.of_close hstep
  case semicolon => exact h.of_separate hstep

/-- An assignment is taken in together with the word before it, which is one of the given ones. -/
theorem of_run {st : ParseState} {tokens : List Token} {plan : Plan}
    (h : Origin config words st.reversed st.stack)
    (hwords : ∀ token ∈ tokens, token.kind = .identifier → words token.text)
    (hrun : run config st tokens = .ok plan) : ∀ op ∈ plan, op.ComesFrom config words := by
  induction st, tokens using run.induct config with
  | case1 st => exact h.of_finish hrun
  | case2 st token =>
    obtain ⟨last, hlast, hfinish⟩ := bind_eq_ok.1 hrun
    exact (h.of_step hlast).of_finish hfinish
  | case3 st token next rest hassign ih =>
    rw [run, if_pos hassign] at hrun
    obtain ⟨htoken, hrest⟩ := List.forall_mem_cons.1 hwords
    exact ih (h.pending (htoken hassign.1)) (List.forall_mem_cons.1 hrest).2 hrun
  | case4 st token next rest hassign hcall function hfind ih =>
    rw [run, if_neg hassign, if_pos hcall, hfind] at hrun
    have hrest := (List.forall_mem_cons.1 (List.forall_mem_cons.1 hwords).2).2
    exact ih (h.pending trivial) hrest hrun
  | case5 st token next rest hassign hcall hfind =>
    rw [run, if_neg hassign, if_pos hcall, hfind] at hrun
    cases hrun
  | case6 st token next rest hassign hcall after hafter ih =>
    rw [run, if_neg hassign, if_neg hcall, hafter] at hrun
    exact ih (h.of_step hafter) (List.forall_mem_cons.1 hwords).2 hrun
  | case7 st token next rest hassign hcall failure hfailure =>
    rw [run, if_neg hassign, if_neg hcall, hfailure] at hrun
    cases hrun

end Origin

end ParseState

/-- The units of a plan are looked up, and the names that it assigns are free words of the line. -/
theorem comesFrom_of_ofTokens {config : Config} {tokens : List Token} {plan : Plan}
    (h : Plan.ofTokens config tokens = .ok plan) : ∀ op ∈ plan, op.ComesFrom config fun name =>
      ∃ token ∈ tokens, token.kind = .identifier ∧ token.text = name := by
  have hwords : ∀ token ∈ tokens, token.kind = .identifier →
      ∃ word ∈ tokens, word.kind = .identifier ∧ word.text = token.text :=
    fun token htoken hkind => ⟨token, htoken, hkind, rfl⟩
  refine ParseState.Origin.of_run ⟨?_, ?_⟩ hwords h
  · exact fun _ hmem => absurd hmem List.not_mem_nil
  · exact fun _ hmem => absurd hmem List.not_mem_nil

end LineCalc
