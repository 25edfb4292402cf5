import LineCalc.Proofs.Repeats
import LineCalc.Proofs.UnitSizes

/-!
# Groups of units

A group is made of the units that names stand for: they are put in ascending order, those of one
size in the order in which they are named, and a unit that follows itself is dropped. So a unit that
is named twice is left in the group twice exactly when another one comes between: a different unit
of its size, or, where it is known in two sizes, one of a size between them. For display, the group
of a unit is the first one that has been added with it.

* **`Registry.MadeOf`**: what a group is that has been made of named units.
* **`Registration.groups_session`**: so is every group after any calls, and in their order.
-/

namespace LineCalc

/-! ## What a group is -/

/-- What a unit counts as. -/
def MeasureUnit.identity (u : MeasureUnit) : String × String :=
  (u.family, u.name)

theorem MeasureUnit.sameAs_iff_identity (u v : MeasureUnit) :
    u.sameAs v = true ↔ u.identity = v.identity := by
  rw [sameAs_iff, identity, identity, Prod.mk.injEq]

namespace Registry

open MeasureUnit (sameAs identity)

/-- Units in ascending order, those of one size in the order in which they are given. -/
def bySize (named : List MeasureUnit) : List MeasureUnit :=
  sorted (fun u v => u.multiplier.le v.multiplier) named

/-- What has been made of the units that are named for a group. -/
structure MadeOf (r : Registry) (named group : List MeasureUnit) : Prop where
  ne_nil : group ≠ []
  registered : ∀ u ∈ group, u ∈ r.units
  oneFamily : ∀ u ∈ group, ∀ v ∈ group, u.family = v.family
  ascending : group.Pairwise fun u v => u.multiplier.le v.multiplier = true
  /-- The units that are named are in the group, and no others. -/
  holds : ∀ u, (∃ v ∈ group, v.sameAs u = true) ↔ ∃ v ∈ named, v.sameAs u = true
  /-- No unit is in the group twice exactly when none comes back after another one in the order. -/
  apart_iff : group.Pairwise (fun u v => u.sameAs v = false) ↔ NeverReturns identity (bySize named)
  /-- That is so where the units that are named are told apart by their sizes. -/
  apart_of_sizes :
    (∀ u ∈ named, ∀ v ∈ named, u.sameAs v = true ↔ u.multiplier.sameNumber v.multiplier = true) →
      group.Pairwise (fun u v => u.sameAs v = false)

variable {r after : Registry} {named group : List MeasureUnit} {names : List String}
  {added : List MeasureUnit} {u : MeasureUnit}

theorem bySize_pairwise (named : List MeasureUnit) :
    (bySize named).Pairwise fun u v => u.multiplier.le v.multiplier = true := by
  refine sorted_pairwise (fun u v w huv hvw => ?_) (fun u v => ?_) named
  · rw [Decimal.le_iff_toRat] at huv hvw ⊢
    exact huv.trans hvw
  · rw [Decimal.le_iff_toRat, Decimal.le_iff_toRat]
    exact le_total _ _

theorem mem_bySize : u ∈ bySize named ↔ u ∈ named :=
  (sorted_perm _ _).mem_iff

/-- Between two mentions of one unit there are only mentions of its size. -/
theorem neverReturns_of_sizes
    (h : ∀ u ∈ named, ∀ v ∈ named,
      u.sameAs v = true ↔ u.multiplier.sameNumber v.multiplier = true) :
    NeverReturns identity (bySize named) := by
  intro u v w hsub huw
  have hmem : ∀ x ∈ [u, v, w], x ∈ named := fun x hx => mem_bySize.1 (hsub.subset hx)
  have hu : u ∈ named := hmem u (by simp)
  have hv : v ∈ named := hmem v (by simp)
  have hw : w ∈ named := hmem w (by simp)
  have hordered := (bySize_pairwise named).sublist hsub
  simp only [List.pairwise_cons, List.mem_cons, List.not_mem_nil, or_false, forall_eq_or_imp,
    forall_eq, Decimal.le_iff_toRat] at hordered
  obtain ⟨⟨huv, -⟩, hvw, -⟩ := hordered
  have hsize : u.multiplier.toRat = w.multiplier.toRat :=
    Decimal.sameNumber_iff_toRat.1 ((h u hu w hw).1 ((u.sameAs_iff_identity w).2 huw))
  rw [← MeasureUnit.sameAs_iff_identity, h u hu v hv, Decimal.sameNumber_iff_toRat]
  exact le_antisymm huv (hsize ▸ hvw)

/-- Units of one family that are registered make up a group. -/
theorem madeOf_dropRepeats {first : MeasureUnit} (hnamed : first ∈ named)
    (hfamily : ∀ u ∈ named, u.isConvertibleTo first = true) (hunits : ∀ u ∈ named, u ∈ r.units) :
    r.MadeOf named (dropRepeats sameAs (bySize named)) := by
  have hsub := dropRepeats_sublist sameAs (bySize named)
  have hmem : ∀ u ∈ dropRepeats sameAs (bySize named), u ∈ named :=
    fun u hu => mem_bySize.1 (hsub.subset hu)
  have hholds : ∀ u, (∃ v ∈ dropRepeats sameAs (bySize named), v.sameAs u = true) ↔
      ∃ v ∈ named, v.sameAs u = true := by
    intro u
    simp only [MeasureUnit.sameAs_iff_identity]
    rw [exists_mem_dropRepeats MeasureUnit.sameAs_iff_identity]
    simp only [mem_bySize]
  have hapart := pairwise_dropRepeats_iff MeasureUnit.sameAs_iff_identity (bySize named)
  refine ⟨?_, fun u hu => hunits u (hmem u hu), fun u hu v hv => ?_, ?_, hholds, hapart, ?_⟩
  · obtain ⟨v, hv, -⟩ := (hholds first).2 ⟨first, hnamed, first.sameAs_refl⟩
    exact List.ne_nil_of_mem hv
  · have hfirst : ∀ w ∈ named, w.family = first.family :=
      fun w hw => beq_iff_eq.1 (hfamily w hw)
    rw [hfirst u (hmem u hu), hfirst v (hmem v hv)]
  · exact (bySize_pairwise named).sublist hsub
  · exact fun hsizes => hapart.2 (neverReturns_of_sizes hsizes)

theorem MadeOf.mono (h : r.MadeOf named group) (hunits : ∀ u ∈ r.units, u ∈ after.units) :
    after.MadeOf named group :=
  { h with registered := fun u hu => hunits u (h.registered u hu) }

theorem Indexed.lookup_mem (h : r.Indexed added) {name : String}
    (hlookup : r.lookup name = some u) : u ∈ r.units := by
  rw [h.lookup] at hlookup
  rw [h.listed]
  exact List.mem_cons_of_mem _ (List.mem_reverse.1 (List.mem_of_find?_eq_some hlookup))

/-- A call that succeeds adds the group that is made of the units it names. -/
theorem exists_madeOf_of_addGroup (h : r.Indexed added) (hadd : r.addGroup names = .ok after) :
    ∃ named group, r.getAll names = .ok named ∧ r.MadeOf named group ∧
      after = { r with groups := r.groups ++ [group] } := by
  unfold addGroup at hadd
  split at hadd
  · cases hadd
  · cases hadd
  rename_i first others hnamed
  split at hadd <;> cases hadd
  rename_i hstranger
  refine ⟨first :: others, _, hnamed, madeOf_dropRepeats (List.mem_cons_self ..) ?_ ?_, rfl⟩
  · refine List.forall_mem_cons.2 ⟨by simp [MeasureUnit.isConvertibleTo], fun u hu => ?_⟩
    simpa using List.find?_eq_none.1 hstranger u hu
  · intro u hu
    obtain ⟨name, hlookup⟩ := lookup_of_getAll hnamed u hu
    exact h.lookup_mem hlookup

/-- The group of a unit is the first one that it is in. -/
theorem groupFor_eq_some_iff : r.groupFor u = some group ↔ ∃ earlier later,
    r.groups = earlier ++ group :: later ∧ (∃ v ∈ group, v.sameAs u = true) ∧
      ∀ g ∈ earlier, ∀ v ∈ g, v.sameAs u = false := by
  rw [groupFor, List.find?_eq_some_iff_append]
  simp only [List.any_eq_true, Bool.not_eq_true', List.any_eq_false, Bool.not_eq_true]
  constructor
  · rintro ⟨hmem, earlier, later, hgroups, hearlier⟩
    exact ⟨earlier, later, hgroups, hmem, hearlier⟩
  · rintro ⟨earlier, later, hgroups, hmem, hearlier⟩
    exact ⟨hmem, earlier, later, hgroups, hearlier⟩

theorem groupFor_eq_none_iff :
    r.groupFor u = none ↔ ∀ g ∈ r.groups, ∀ v ∈ g, v.sameAs u = false := by
  simp [groupFor]

end Registry

/-! ## Any calls -/

namespace Registration

open Registry (MadeOf)

/-- A call keeps what is registered, and adds at most the group of the units that it names. -/
theorem groups_perform {s : Registry × List MeasureUnit} (h : s.1.Indexed s.2) (call : Call) :
    (∀ u ∈ s.1.units, u ∈ (perform s call).1.units) ∧
      ((perform s call).1.groups = s.1.groups ∨ ∃ names named group, call = .addGroup names ∧
        s.1.getAll names = .ok named ∧ (perform s call).1.MadeOf named group ∧
        (perform s call).1.groups = s.1.groups ++ [group]) := by
  rw [perform, run_change]
  cases hresult : call.result s.1 with
  | error e => exact ⟨fun _ hu => hu, .inl rfl⟩
  | ok after =>
    cases call with
    | add u =>
      refine ⟨fun v hv => ?_, .inl (Registry.groups_of_add hresult)⟩
      rw [Registry.units_of_add hresult]
      exact List.mem_append_left _ hv
    | addGroup names =>
      obtain ⟨named, group, hnamed, hmade, rfl⟩ := Registry.exists_madeOf_of_addGroup h hresult
      exact ⟨fun _ hu => hu, .inr ⟨names, named, group, rfl, hnamed,
        hmade.mono fun _ hu => hu, rfl⟩⟩

theorem groups_prefix_session (earlier later : List Call) :
    (session earlier).1.groups <+: (session (earlier ++ later)).1.groups := by
  induction later using List.reverseRecOn with
  | nil => simp
  | append_singleton later call ih =>
    rw [← List.append_assoc, session_snoc]
    refine ih.trans ?_
    rcases (groups_perform (indexed_session (earlier ++ later)) call).2 with heq |
      ⟨_, _, group, -, -, -, heq⟩
    · rw [heq]
    · rw [heq]
      exact List.prefix_append _ _

/-- Each group has been made by one of the calls, of the units that it named. -/
theorem exists_madeOf_session (calls : List Call) :
    ∀ group ∈ (session calls).1.groups, ∃ earlier names later named,
      calls = earlier ++ .addGroup names :: later ∧
      (session earlier).1.getAll names = .ok named ∧ (session calls).1.MadeOf named group := by
  -- induction on the calls that have been made: the last one keeps the groups that there are
  induction calls using List.reverseRecOn with
  | nil =>
    intro group hgroup
    cases hgroup
  | append_singleton calls call ih =>
    intro group hgroup
    obtain ⟨hunits, hgroups⟩ := groups_perform (indexed_session calls) call
    rw [session_snoc] at hgroup ⊢
    have hold : group ∈ (session calls).1.groups → ∃ earlier names later named,
        calls ++ [call] = earlier ++ .addGroup names :: later ∧
        (session earlier).1.getAll names = .ok named ∧
        (perform (session calls) call).1.MadeOf named group := by
      intro hgroup
      obtain ⟨earlier, names, later, named, rfl, hnamed, hmade⟩ := ih group hgroup
      exact ⟨earlier, names, later ++ [call], named, by simp, hnamed, hmade.mono hunits⟩
    rcases hgroups with heq | ⟨names, named, new, rfl, hnamed, hmade, heq⟩
    · exact hold (heq ▸ hgroup)
    · rw [heq, List.mem_append, List.mem_singleton] at hgroup
      rcases hgroup with hgroup | rfl
      · exact hold hgroup
      · exact ⟨calls, names, [], named, rfl, hnamed, hmade⟩

/--
After any calls, every group is what one of them has made of the units that it named: it has units
in it, which are registered and of one family, in ascending order, and none twice exactly when none
comes back after another one in that order. Groups stay in the order of the calls, and the group of
a unit is the first one that it is in.
-/
theorem groups_session (calls : List Call) :
    (∀ group ∈ (session calls).1.groups, ∃ earlier names later named,
      calls = earlier ++ .addGroup names :: later ∧
      (session earlier).1.getAll names = .ok named ∧ (session calls).1.MadeOf named group) ∧
    (∀ earlier later, calls = earlier ++ later →
      (session earlier).1.groups <+: (session calls).1.groups) ∧
    (∀ u group, (session calls).1.groupFor u = some group ↔ ∃ earlier later,
      (session calls).1.groups = earlier ++ group :: later ∧ (∃ v ∈ group, v.sameAs u = true) ∧
        ∀ g ∈ earlier, ∀ v ∈ g, v.sameAs u = false) ∧
    ∀ u, (session calls).1.groupFor u = none ↔
      ∀ g ∈ (session calls).1.groups, ∀ v ∈ g, v.sameAs u = false := by
  refine ⟨exists_madeOf_session calls, ?_, fun u group => Registry.groupFor_eq_some_iff,
    fun u => Registry.groupFor_eq_none_iff⟩
  rintro earlier later rfl
  exact groups_prefix_session earlier later

/-- A unit that is named twice, under two names and out of order, is in the group once. -/
theorem groups_session_synonyms :
    let mm := MeasureUnit.make "length" "mm" .one [] []
    let cm := MeasureUnit.make "length" "cm" .ten [] [["centimetre"]]
    let calls := [.add cm, .add mm, .addGroup ["Centimetre", "mm", "cm"]]
    [mm, cm] ∈ (session calls).1.groups ∧ (session calls).1.groupFor cm = some [mm, cm] ∧
      ∃ earlier names later named, calls = earlier ++ .addGroup names :: later ∧
        (session earlier).1.getAll names = .ok named ∧
        (session calls).1.MadeOf named [mm, cm] := by
  intro mm cm calls
  have hgroup : [mm, cm] ∈ (session calls).1.groups := by decide +kernel
  refine ⟨hgroup, ?_, (groups_session calls).1 [mm, cm] hgroup⟩
  exact ((groups_session calls).2.2.1 cm [mm, cm]).2 ⟨[], [], by decide +kernel⟩

/-- Two units of one size, of which one is named before and after the other. -/
example :
    let a := MeasureUnit.make "length" "a" .ten [] []
    let b := MeasureUnit.make "length" "b" .ten [] []
    (session [.add a, .add b, .addGroup ["a", "b", "a"]]).1.groups = [[a, b, a]] := by
  decide +kernel

end Registration

end LineCalc
