import LineCalc.Machine
import LineCalc.Proofs.Expression.Evaluation
import LineCalc.Proofs.Vocabulary

/-!
# Sound values

What the machine keeps true of all values it handles: a quantity is in a unit of the registry, and a
date without a time of day is at the start of its day.

* **`Value.Sound`**, **`Environment.Sound`**: the invariant of a value and of what lines leave.
* **`MadeFrom.sound`**: what is made of sound values is sound.
* **`Machine.sound_of_step`**: each opcode keeps the stack and the environment sound.
* **`Machine.sound_of_execute`**: and so does a whole plan, whose result is recorded.
-/

namespace LineCalc

/-! ## Dates -/

/-- Whole days after midnight it is midnight again. -/
theorem TimeOfDay.advance_midnight {millis : Int} (h : millis % millisPerDay = 0) :
    (midnight.advance millis).1 = midnight := by
  -- midnight is in no leap second, so the time is that of the nanoseconds since midnight
  have hleap : midnight.isLeap = false := by decide
  have hstays : ¬midnight.StaysInLeap millis := by
    intro hstays
    have hisLeap := hstays.1
    rw [hleap] at hisLeap
    cases hisLeap
  obtain ⟨days, rfl⟩ := Int.dvd_of_emod_eq_zero h
  have hnanos : (midnight.nanos : Int) = 0 := by decide
  simp only [advance, dif_neg hstays, hleap, Bool.false_and, Bool.false_eq_true, if_false, hnanos,
    ofNanos]
  simp only [midnight, TimeOfDay.mk.injEq, nanosPerMilli, nanosPerSecond, secondsPerDay,
    millisPerDay]
  omega

theorem Instant.time_of_advance? {instant shifted : Instant} {millis : Int}
    (hmidnight : instant.time = .midnight) (hdays : millis % millisPerDay = 0)
    (h : instant.advance? millis = some shifted) : shifted.time = .midnight := by
  simp only [advance?, Option.map_eq_some_iff] at h
  obtain ⟨date, _, rfl⟩ := h
  rw [hmidnight]
  exact TimeOfDay.advance_midnight hdays

/-! ## Values -/

/-- What is true of every value the machine handles. -/
structure Value.Sound (units : Registry) (v : Value) : Prop where
  /-- The unit is registered. -/
  unit_mem : ∀ u, v.unit? = some u → u ∈ units.units
  /-- A date without a time of day is at the start of its day. -/
  time_eq : ∀ instant, v = .moment instant false → instant.time = .midnight

namespace Value.Sound

variable {units : Registry}

theorem number {q : Quantity} (h : q.unit ∈ units.units) : Sound units (.number q) where
  unit_mem := by
    intro u hu
    cases hu
    exact h
  time_eq := by simp

theorem marker {u : MeasureUnit} (h : u ∈ units.units) : Sound units (.marker u) where
  unit_mem := by
    intro v hv
    cases hv
    exact h
  time_eq := by simp

theorem moment {instant : Instant} {hasTime : Bool}
    (h : hasTime = false → instant.time = .midnight) : Sound units (.moment instant hasTime) where
  unit_mem := by simp [unit?]
  time_eq := by
    rintro _ ⟨⟩
    exact h rfl

theorem ofDate (date : Date) : Sound units (.ofDate date) :=
  moment fun _ => rfl

theorem empty : Sound units .empty where
  unit_mem := by simp [unit?]
  time_eq := by simp

theorem failed (message : String) : Sound units (.failed message) where
  unit_mem := by simp [unit?]
  time_eq := by simp

end Value.Sound

theorem UnitFrom.mem {units : Registry} {sources : List Value} {u : MeasureUnit}
    (hunits : units.Consistent) (hsources : ∀ v ∈ sources, v.Sound units)
    (h : UnitFrom units sources u) : u ∈ units.units := by
  cases h with
  | unitless => exact hunits.unitless_mem
  | percent => exact hunits.percent_mem
  | source hmem hunit => exact (hsources _ hmem).unit_mem u hunit
  | named hlookup => exact hunits.lookup_mem _ u hlookup

theorem MadeFrom.sound {units : Registry} {sources : List Value} {v : Value}
    (hunits : units.Consistent) (hsources : ∀ v ∈ sources, v.Sound units)
    (h : MadeFrom units sources v) : v.Sound units := by
  cases h with
  | number hunit => exact .number (hunit.mem hunits hsources)
  | @moved instant shifted hasTime millis hmem hadvance =>
    -- the date has no time of day only if it had none before and was moved by whole days
    refine .moment fun hdate => ?_
    obtain ⟨hhas, hdays⟩ : hasTime = false ∧ millis % millisPerDay = 0 := by simpa using hdate
    subst hhas
    exact Instant.time_of_advance? ((hsources _ hmem).time_eq instant rfl) hdays hadvance
  | kept hmem _ => exact hsources _ hmem
  | clock now => exact .moment fun hdate => by cases hdate
  | date d => exact .ofDate d
  | empty => exact .empty

/-! ## Environments -/

/-- Whether a value can be recorded for a line: any but a unit on its own. -/
def Value.isRecordable : Value → Bool
  | .marker _ => false
  | .number _ | .moment _ _ | .empty | .failed _ => true

/-- What is true of all that lines leave behind. -/
structure Environment.Sound (units : Registry) (env : Environment) : Prop where
  lines : ∀ v ∈ env.lines, v.isRecordable = true ∧ v.Sound units
  stored : ∀ name v, env.lookup? name = some v → v.isStorable = true ∧ v.Sound units

namespace Environment.Sound

variable {units : Registry} {env : Environment}

theorem fresh (now : Instant) : (Environment.fresh now).Sound units where
  lines := by simp [Environment.fresh, Environment.lines]
  stored := by
    intro name v h
    cases h

theorem latestFirst (h : env.Sound units) : ∀ v ∈ env.latestFirst, v.Sound units :=
  fun v hv => (h.lines v (List.mem_reverse.2 hv)).2

theorem atTime (h : env.Sound units) (now : Instant) : Environment.Sound units { env with now } :=
  ⟨h.lines, h.stored⟩

theorem assign (h : env.Sound units) (name : String) {v : Value} (hstorable : v.isStorable = true)
    (hv : v.Sound units) : (env.assign name v).Sound units where
  lines := h.lines
  stored := by
    intro other w hlookup
    rw [lookup?_assign] at hlookup
    split at hlookup
    · cases hlookup
      exact ⟨hstorable, hv⟩
    · exact h.stored other w hlookup

theorem record (h : env.Sound units) {v : Value} (hrecordable : v.isRecordable = true)
    (hv : v.Sound units) : (env.record v).Sound units where
  lines := by
    intro w hw
    rw [lines_record, List.mem_append, List.mem_singleton] at hw
    rcases hw with hw | rfl
    · exact h.lines w hw
    · exact ⟨hrecordable, hv⟩
  stored := h.stored

theorem getD_lookup? (h : env.Sound units) (name : String) :
    ((env.lookup? name).getD .empty).Sound units := by
  cases hlookup : env.lookup? name with
  | none => exact .empty -- an unknown variable stands for nothing
  | some v => exact (h.stored name v hlookup).2

end Environment.Sound

/-! ## The machine -/

/-- The unit of an opcode is registered. -/
def Opcode.Sound (units : Registry) : Opcode → Prop
  | .unit u => u ∈ units.units
  | _ => True

/-- What is true of the machine between two opcodes. -/
structure Machine.Sound (units : Registry) (m : Machine) : Prop where
  environment : m.environment.Sound units
  stack : ∀ v ∈ m.stack, v.Sound units

namespace Machine

variable {units : Registry}

theorem Sound.push {m : Machine} (h : m.Sound units) {v : Value} (hv : v.Sound units) :
    (m.push v).Sound units :=
  ⟨h.environment, List.forall_mem_cons.2 ⟨hv, h.stack⟩⟩

theorem sound_of_applyUnit {u : MeasureUnit} (hu : u ∈ units.units) {stack : List Value}
    (hstack : ∀ v ∈ stack, v.Sound units) : ∀ v ∈ applyUnit u stack, v.Sound units := by
  unfold applyUnit
  split
  · rename_i q rest
    split
    · -- the number keeps its place and takes the unit
      exact List.forall_mem_cons.2 ⟨.number hu, (List.forall_mem_cons.1 hstack).2⟩
    · exact List.forall_mem_cons.2 ⟨.marker hu, hstack⟩
  · exact List.forall_mem_cons.2 ⟨.marker hu, hstack⟩

/-- What is made of the operands takes their place. -/
theorem sound_of_madeFrom (hunits : units.Consistent) {sources rest : List Value} {v : Value}
    (hsources : ∀ w ∈ sources, w.Sound units) (hrest : ∀ w ∈ rest, w.Sound units)
    (hmade : MadeFrom units sources v) : ∀ w ∈ v :: rest, w.Sound units :=
  List.forall_mem_cons.2 ⟨hmade.sound hunits hsources, hrest⟩

theorem sound_of_applyOperator (hunits : units.Consistent) {today : Date} {op : Operator}
    {stack after : List Value} (hstack : ∀ v ∈ stack, v.Sound units)
    (h : applyOperator units today op stack = .ok after) : ∀ v ∈ after, v.Sound units := by
  unfold applyOperator at h
  split at h
  · rename_i operand rest
    obtain ⟨v, hv, rfl⟩ := map_eq_ok.1 h
    obtain ⟨hoperand, hrest⟩ := List.forall_mem_cons.1 hstack
    exact sound_of_madeFrom hunits (by simpa using hoperand) hrest
      (UnaryOperation.madeFrom_of_apply hv)
  · rename_i right left rest
    obtain ⟨v, hv, rfl⟩ := map_eq_ok.1 h
    simp only [List.forall_mem_cons] at hstack
    obtain ⟨hright, hleft, hrest⟩ := hstack
    exact sound_of_madeFrom hunits (by simpa using ⟨hleft, hright⟩) hrest
      (BinaryOperation.madeFrom_of_apply hv)
  · cases h

theorem sound_of_applyCall (hunits : units.Consistent) {function : Function} {args : Nat}
    {stack after : List Value} (hstack : ∀ v ∈ stack, v.Sound units)
    (h : applyCall units function args stack = .ok after) : ∀ v ∈ after, v.Sound units := by
  unfold applyCall at h
  split at h
  · rename_i value rest
    obtain ⟨v, hv, rfl⟩ := map_eq_ok.1 h
    obtain ⟨hvalue, hrest⟩ := List.forall_mem_cons.1 hstack
    -- the argument that is not given is a plain zero
    have hzero : (Value.plain .zero).Sound units := .number hunits.unitless_mem
    exact sound_of_madeFrom hunits (by simpa using ⟨hvalue, hzero⟩) hrest
      (BinaryOperation.madeFrom_of_apply hv)
  · rename_i precision value rest
    obtain ⟨v, hv, rfl⟩ := map_eq_ok.1 h
    simp only [List.forall_mem_cons] at hstack
    obtain ⟨hprecision, hvalue, hrest⟩ := hstack
    exact sound_of_madeFrom hunits (by simpa using ⟨hvalue, hprecision⟩) hrest
      (BinaryOperation.madeFrom_of_apply hv)
  · cases h
  · cases h
  · cases h

theorem sound_of_step (hunits : units.Consistent) {m after : Machine} {op : Opcode}
    (hm : m.Sound units) (hop : op.Sound units) (h : m.step units op = .ok after) :
    after.Sound units := by
  cases op with
  | number value =>
    cases h
    exact hm.push (.number hunits.unitless_mem)
  | date d =>
    cases h
    exact hm.push (.ofDate d)
  | time t =>
    cases h
    exact hm.push (.moment fun hdate => by cases hdate)
  | operator op =>
    obtain ⟨stack, hstack, rfl⟩ := map_eq_ok.1 h
    exact ⟨hm.environment, sound_of_applyOperator hunits hm.stack hstack⟩
  | unit u =>
    cases h
    exact ⟨hm.environment, sound_of_applyUnit hop hm.stack⟩
  | call function args =>
    obtain ⟨stack, hstack, rfl⟩ := map_eq_ok.1 h
    exact ⟨hm.environment, sound_of_applyCall hunits hm.stack hstack⟩
  | assign name =>
    simp only [step] at h
    split at h
    · rename_i v rest hstack
      split at h <;> cases h
      rename_i hstorable
      have hv : v.Sound units := hm.stack v (by simp [hstack])
      -- the value stays on the stack
      exact ⟨hm.environment.assign name hstorable hv, hm.stack⟩
    · cases h
  | load name =>
    cases h
    exact hm.push (hm.environment.getD_lookup? name)
  | aggregator a =>
    obtain ⟨v, hv, rfl⟩ := map_eq_ok.1 h
    exact hm.push ((Aggregate.madeFrom_of_value hv).sound hunits hm.environment.latestFirst)

/-- A run keeps the environment sound, and the stack it leaves is sound. -/
theorem sound_of_steps (hunits : units.Consistent) {m : Machine} {plan : Plan}
    (hm : m.Sound units) (hplan : ∀ op ∈ plan, op.Sound units) :
    (steps units m plan).1.Sound units ∧
      ∀ stack, (steps units m plan).2 = .ok stack → ∀ v ∈ stack, v.Sound units := by
  induction plan generalizing m with
  | nil =>
    refine ⟨hm.environment, ?_⟩
    rintro _ ⟨⟩
    exact hm.stack
  | cons op rest ih =>
    obtain ⟨hop, hrest⟩ := List.forall_mem_cons.1 hplan
    cases hstep : m.step units op with
    | ok next =>
      rw [steps, hstep]
      exact ih (sound_of_step hunits hm hop hstep) hrest
    | error e =>
      -- a failure leaves no stack, and what was assigned before it
      rw [steps, hstep]
      exact ⟨hm.environment, fun stack hstack => by cases hstack⟩

/-! ## Results -/

theorem result_eq_ok {stack : List Value} {v : Value} (h : result stack = .ok v) :
    v.isRecordable = true ∧ (v = .empty ∨ v ∈ stack) := by
  unfold result at h
  split at h
  · cases h
    exact ⟨rfl, .inl rfl⟩
  · cases h
  · cases h
  · rename_i w hmarker hfailed
    cases h
    refine ⟨?_, .inr (List.mem_singleton_self v)⟩
    cases v with
    | marker u => exact absurd rfl (hmarker u)
    | number _ | moment _ _ | empty | failed _ => rfl
  · cases h

/-- What a plan leaves and records is sound, and no unit on its own is recorded. -/
theorem sound_of_execute (hunits : units.Consistent) {env : Environment} (henv : env.Sound units)
    {plan : Plan} (hplan : ∀ op ∈ plan, op.Sound units) :
    (execute units env plan).1.Sound units := by
  obtain ⟨hafter, hstack⟩ := sound_of_steps hunits (m := ⟨env, []⟩) ⟨henv, by simp⟩ hplan
  unfold execute run
  dsimp only
  rcases houtcome : (steps units ⟨env, []⟩ plan).2 with e | stack
  · exact hafter.record rfl (.failed _)
  · have hvalues : ∀ v ∈ stack, v.Sound units := hstack stack houtcome
    cases hresult : result stack with
    | error e =>
      simp only [Except.bind, hresult, recorded]
      exact hafter.record rfl (.failed _)
    | ok v =>
      simp only [Except.bind, hresult, recorded]
      obtain ⟨hrecordable, rfl | hv⟩ := result_eq_ok hresult
      · exact hafter.record rfl .empty
      · exact hafter.record hrecordable (hvalues v hv)

/-! ## What a plan leaves alone -/

/-- An opcode changes no environment but for the variable that it assigns. -/
theorem environment_of_step {m after : Machine} {op : Opcode} (h : m.step units op = .ok after) :
    after.environment = m.environment ∨
      ∃ name v, op = .assign name ∧ after.environment = m.environment.assign name v := by
  cases op with
  | number | date | time | unit | load =>
    cases h
    exact .inl rfl
  | operator | call | aggregator =>
    obtain ⟨_, _, rfl⟩ := map_eq_ok.1 h
    exact .inl rfl
  | assign name =>
    simp only [step] at h
    split at h
    · rename_i v rest _
      split at h <;> cases h
      exact .inr ⟨name, v, rfl, rfl⟩
    · cases h

/-- A run leaves the history, the clock and every variable that it does not assign. -/
theorem frame_of_steps (m : Machine) (plan : Plan) :
    (steps units m plan).1.latestFirst = m.environment.latestFirst ∧
      (steps units m plan).1.now = m.environment.now ∧
      ∀ name, .assign name ∉ plan →
        (steps units m plan).1.lookup? name = m.environment.lookup? name := by
  induction plan generalizing m with
  | nil => exact ⟨rfl, rfl, fun _ _ => rfl⟩
  | cons op rest ih =>
    cases hstep : m.step units op with
    | error e =>
      rw [steps, hstep]
      exact ⟨rfl, rfl, fun _ _ => rfl⟩
    | ok next =>
      rw [steps, hstep]
      obtain ⟨hhistory, hclock, hvariables⟩ := ih next
      rcases environment_of_step hstep with heq | ⟨assigned, v, rfl, heq⟩
      · rw [heq] at hhistory hclock hvariables
        exact ⟨hhistory, hclock, fun name hname =>
          hvariables name (fun hrest => hname (List.mem_cons_of_mem _ hrest))⟩
      · rw [heq] at hhistory hclock hvariables
        refine ⟨hhistory, hclock, fun name hname => ?_⟩
        have hne : assigned ≠ name := by
          rintro rfl
          exact hname (List.mem_cons_self ..)
        rw [hvariables name (fun hrest => hname (List.mem_cons_of_mem _ hrest)),
          Environment.lookup?_assign, if_neg hne]

theorem frame_of_execute (env : Environment) (plan : Plan) :
    (execute units env plan).1.lines = env.lines ++ [(execute units env plan).2] ∧
      (execute units env plan).1.now = env.now ∧
      ∀ name, .assign name ∉ plan →
        (execute units env plan).1.lookup? name = env.lookup? name := by
  obtain ⟨hhistory, hclock, hvariables⟩ := @frame_of_steps units ⟨env, []⟩ plan
  refine ⟨?_, hclock, hvariables⟩
  unfold execute run
  dsimp only
  rw [Environment.lines_record, Environment.lines, hhistory]
  rfl

end Machine

end LineCalc
