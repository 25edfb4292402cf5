import LineCalc.Sorting

/-!
# Dropping what follows itself

A list loses the elements that equal the one just before them. What is left still has every key that
the list had, and it has a key twice exactly when that key came back after another one.

* **`mem_dropRepeats`**, **`exists_mem_dropRepeats`**: nothing is lost.
* **`NeverReturns`**: no key of a list comes back after another one.
* **`pairwise_dropRepeats_iff`**: that decides whether dropping what follows itself leaves repeats.
* **`nodup_dropRepeats`**: in a sorted list nothing comes back, so that everything is left once.
-/

namespace LineCalc

variable {α β : Type}

theorem dropRepeats_sublist (same : α → α → Bool) (l : List α) :
    (dropRepeats same l).Sublist l := by
  induction l with
  | nil => exact .slnil
  | cons a rest ih =>
    rw [dropRepeats]
    split
    · exact (List.nil_sublist rest).cons_cons a
    · rename_i b kept heq
      rw [heq] at ih
      split
      · exact ((List.sublist_cons_self b kept).trans ih).cons_cons a
      · exact ih.cons_cons a

theorem exists_dropRepeats_cons (same : α → α → Bool) (a : α) (l : List α) :
    ∃ kept, dropRepeats same (a :: l) = a :: kept := by
  rw [dropRepeats]
  split
  · exact ⟨[], rfl⟩
  · rename_i b kept _
    split
    · exact ⟨kept, rfl⟩
    · exact ⟨b :: kept, rfl⟩

theorem dropRepeats_cons_cons (same : α → α → Bool) (a b : α) (l : List α) :
    dropRepeats same (a :: b :: l) =
      a :: if same a b then (dropRepeats same (b :: l)).tail else dropRepeats same (b :: l) := by
  obtain ⟨kept, hkept⟩ := exists_dropRepeats_cons same b l
  rw [dropRepeats, hkept]
  simp only [List.tail_cons]
  split <;> rfl

/-! ## Keys -/

section Keys

variable {same : α → α → Bool} {key : α → β} {a b : α} {l : List α}

/-- What has a key comes together: no key comes back after another one. -/
def NeverReturns (key : α → β) (l : List α) : Prop :=
  ∀ a b c, [a, b, c].Sublist l → key a = key c → key a = key b

theorem neverReturns_cons : NeverReturns key (a :: l) ↔
    (∀ b c, [b, c].Sublist l → key a = key c → key a = key b) ∧ NeverReturns key l := by
  constructor
  · intro h
    exact ⟨fun b c hbc => h a b c (hbc.cons_cons a), fun x b c hsub => h x b c (hsub.cons a)⟩
  · rintro ⟨hhead, htail⟩ x b c hsub
    rcases List.sublist_cons_iff.1 hsub with hsub | ⟨_, heq, hbc⟩
    · exact htail x b c hsub
    · cases heq
      exact hhead b c hbc

variable (hsame : ∀ a b, same a b = true ↔ key a = key b)
include hsame

theorem same_eq_false_iff : same a b = false ↔ key a ≠ key b := by
  rw [← Bool.not_eq_true, hsame]

/-- No key is lost. -/
theorem exists_mem_dropRepeats (l : List α) (k : β) :
    (∃ b ∈ dropRepeats same l, key b = k) ↔ ∃ b ∈ l, key b = k := by
  constructor
  · rintro ⟨b, hb, hk⟩
    exact ⟨b, (dropRepeats_sublist same l).subset hb, hk⟩
  · rintro ⟨c, hc, rfl⟩
    induction l with
    | nil => cases hc
    | cons a rest ih =>
      rcases rest with _ | ⟨b, rest⟩
      · exact ⟨c, hc, rfl⟩
      obtain ⟨kept, hkept⟩ := exists_dropRepeats_cons same b rest
      rw [dropRepeats_cons_cons]
      rw [hkept] at ih ⊢
      rcases List.mem_cons.1 hc with rfl | hc
      · exact ⟨c, List.mem_cons_self .., rfl⟩
      obtain ⟨d, hd, hk⟩ := ih hc
      split
      · -- what is dropped has the key of what comes before it
        rename_i hab
        rcases List.mem_cons.1 hd with rfl | hd
        · exact ⟨a, List.mem_cons_self .., ((hsame a d).1 hab).trans hk⟩
        · exact ⟨d, List.mem_cons_of_mem a hd, hk⟩
      · exact ⟨d, List.mem_cons_of_mem a hd, hk⟩

/-- Nothing is left twice exactly when no key comes back after another one. -/
theorem pairwise_dropRepeats_iff (l : List α) :
    (dropRepeats same l).Pairwise (fun a b => same a b = false) ↔ NeverReturns key l := by
  induction l with
  | nil => simp [dropRepeats, NeverReturns]
  | cons a rest ih =>
    rcases rest with _ | ⟨b, rest⟩
    · refine iff_of_true (by simp [dropRepeats]) fun x y z hsub => ?_
      exact absurd hsub.length_le (by simp)
    rw [dropRepeats_cons_cons, neverReturns_cons]
    split
    · -- the second one is dropped, and the first one stands for it
      rename_i hab
      have hkey : key a = key b := (hsame a b).1 hab
      obtain ⟨kept, hkept⟩ := exists_dropRepeats_cons same b rest
      have hpairwise : (a :: kept).Pairwise (fun a b => same a b = false) ↔
          (b :: kept).Pairwise (fun a b => same a b = false) := by
        simp only [List.pairwise_cons, same_eq_false_iff hsame, hkey]
      rw [hkept] at ih ⊢
      rw [List.tail_cons, hpairwise, ih, and_iff_right_of_imp]
      intro h x c hsub hac
      rcases List.sublist_cons_iff.1 hsub with hsub | ⟨_, heq, -⟩
      · exact hkey.trans (h b x c (hsub.cons_cons b) (hkey.symm.trans hac))
      · cases heq
        exact hkey
    · -- the first key may not occur again, because the second one comes between
      rename_i hab
      rw [List.pairwise_cons, ih]
      refine and_congr_left fun _ => ?_
      have hkey : key a ≠ key b := fun hkey => hab ((hsame a b).2 hkey)
      constructor
      · intro h x c hsub hac
        have hc : c ∈ b :: rest := hsub.subset (by simp)
        obtain ⟨d, hd, hdc⟩ := (exists_mem_dropRepeats hsame _ _).2 ⟨c, hc, rfl⟩
        exact absurd (hac.trans hdc.symm) ((same_eq_false_iff hsame).1 (h d hd))
      · intro h d hd
        rw [same_eq_false_iff hsame]
        intro had
        rcases List.mem_cons.1 ((dropRepeats_sublist same _).subset hd) with rfl | hd
        · exact hkey had
        · exact hkey (h b d ((List.singleton_sublist.2 hd).cons_cons b) had)

end Keys

/-! ## Elements -/

theorem mem_dropRepeats [BEq α] [LawfulBEq α] {a : α} {l : List α} :
    a ∈ dropRepeats (· == ·) l ↔ a ∈ l := by
  have hsame : ∀ a b : α, (a == b) = true ↔ id a = id b := fun _ _ => beq_iff_eq
  simpa using exists_mem_dropRepeats hsame l a

/-- In an order in which only what is equal comes both before and after, nothing is left twice. -/
theorem nodup_dropRepeats [BEq α] [LawfulBEq α] {le : α → α → Prop}
    (hantisymm : ∀ a b, le a b → le b a → a = b) {l : List α} (hsorted : l.Pairwise le) :
    (dropRepeats (· == ·) l).Nodup := by
  have hsame : ∀ a b : α, (a == b) = true ↔ id a = id b := fun _ _ => beq_iff_eq
  have hreturns : NeverReturns id l := by
    rintro a b c hsub (rfl : a = c)
    have hordered := hsorted.sublist hsub
    simp only [List.pairwise_cons, List.mem_cons, List.not_mem_nil, or_false] at hordered
    exact hantisymm a b (hordered.1 b (.inl rfl)) (hordered.2.1 a rfl)
  exact ((pairwise_dropRepeats_iff hsame l).2 hreturns).imp ne_of_beq_false

end LineCalc
