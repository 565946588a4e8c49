import Mathlib.Algebra.Group.Basic
import Mathlib.Data.UInt
import TestWriter.Report

/-!
# Counts

Sums over the values of a map, and what adding errors does to the counts of a report.  Main
statements: changing one value by a difference changes the sum by that difference; the errors that
are added to a report are added to its total and to the count of their executable, and a method
changes neither.
-/

namespace TestWriter

namespace OrderedMap

variable {α β M : Type} [AddCommMonoid M]

/-- The sum of a quantity over the values of a map. -/
def sumOver (m : OrderedMap α β) (g : β → M) : M := m.values.foldl (fun n x => n + g x) 0

theorem foldl_add_eq (g : β → M) (xs : List β) (n : M) :
    xs.foldl (fun n x => n + g x) n = n + xs.foldl (fun n x => n + g x) 0 := by
  induction xs generalizing n with
  | nil => simp
  | cons x rest ih =>
      simp only [List.foldl_cons]
      rw [ih (n + g x), ih (0 + g x), zero_add, add_assoc]

theorem sumOver_cons (g : β → M) (entry : α × β) (rest : List (α × β)) :
    (⟨entry :: rest⟩ : OrderedMap α β).sumOver g = g entry.2 + sumOver ⟨rest⟩ g := by
  simp only [sumOver, values, List.map_cons, List.foldl_cons]
  rw [foldl_add_eq, zero_add]

variable [DecidableEq α]

/-- Changing the value of one key by a difference changes the sum by that difference. -/
theorem sumOver_alter (m : OrderedMap α β) (key : α) {f : Option β → β} {g : β → M} {d : M}
    (h : ∀ old, g (f old) = (old.map g).getD 0 + d) :
    (m.alter key f).sumOver g = m.sumOver g + d := by
  obtain ⟨entries⟩ := m
  induction entries with
  | nil =>
      have hnone := h none
      simp only [Option.map_none, Option.getD_none] at hnone
      change sumOver ⟨[(key, f none)]⟩ g = _
      rw [sumOver_cons, hnone]
      simp [sumOver, values]
  | cons entry rest ih =>
      change sumOver ⟨alterEntries key f (entry :: rest)⟩ g = _
      simp only [alterEntries]
      split
      · have hsome := h (some entry.2)
        simp only [Option.map_some, Option.getD_some] at hsome
        rw [sumOver_cons, sumOver_cons, hsome, add_assoc, add_comm d, add_assoc]
      · rw [sumOver_cons, sumOver_cons, add_assoc]
        exact congrArg (g entry.2 + ·) ih

end OrderedMap

namespace ErrorCounts

theorem total_eq_sumOver (errors : ErrorCounts) : errors.total = errors.sumOver fun n => n := rfl

theorem total_add (errors : ErrorCounts) (message : String) (count : UInt64) :
    (errors.add message count).total = errors.total + count := by
  rw [total_eq_sumOver, total_eq_sumOver]
  apply OrderedMap.sumOver_alter
  intro old
  cases old <;> rfl

theorem total_merge (errors more : ErrorCounts) :
    (errors.merge more).total = errors.total + more.total := by
  obtain ⟨entries⟩ := more
  simp only [merge]
  induction entries generalizing errors with
  | nil => exact (add_zero _).symm
  | cons entry rest ih =>
      rw [List.foldl_cons, ih, total_add, total_eq_sumOver ⟨entry :: rest⟩,
        OrderedMap.sumOver_cons, add_assoc]
      rfl

theorem total_of_isEmpty {errors : ErrorCounts} (h : errors.isEmpty = true) :
    errors.total = 0 := by
  obtain ⟨entries⟩ := errors
  cases entries with
  | nil => rfl
  | cons entry rest => cases h

/-- The sum of the counts as a number without bound. -/
def sum (errors : ErrorCounts) : Nat := errors.values.foldl (fun n x => n + x.toNat) 0

theorem total_eq_ofNat_sum (errors : ErrorCounts) : errors.total = UInt64.ofNat errors.sum := by
  obtain ⟨entries⟩ := errors
  induction entries with
  | nil => rfl
  | cons entry rest ih =>
      have hsum : sum ⟨entry :: rest⟩ = entry.2.toNat + sum ⟨rest⟩ :=
        OrderedMap.sumOver_cons UInt64.toNat entry rest
      rw [total_eq_sumOver, OrderedMap.sumOver_cons, hsum, UInt64.ofNat_add, ← ih,
        UInt64.ofNat_toNat]
      rfl

end ErrorCounts

namespace Report

/-- The number of errors of an executable; none without an entry. -/
def errorCountOf (r : Report) (e : Executable) : UInt64 :=
  ((r.executables.get? e).map ReportEntry.errorCount).getD 0

/-- A number of errors that a report shows: of the executables that satisfy a predicate. -/
structure Counter (p : Executable → Bool) (count : Report → UInt64) : Prop where
  empty : ∀ c, count (.empty c) = 0
  warn : ∀ r w, count (r.warn w) = count r
  addMethod : ∀ r m, count (r.addMethod m) = count r
  addErrors : ∀ r e errors,
    count (r.addErrors e errors) = if p e then count r + errors.total else count r

theorem errorCount_addTest (x : ReportEntry) (c : Classification) (name : String) :
    (x.addTest c name).errorCount = x.errorCount := by
  cases c <;> rfl

theorem errorCount_getD (old : Option ReportEntry) :
    (old.getD .empty).errorCount = (old.map ReportEntry.errorCount).getD 0 := by
  cases old <;> rfl

theorem totalErrors_alter (r : Report) (e : Executable) {f : ReportEntry → ReportEntry}
    {d : UInt64} (h : ∀ x, (f x).errorCount = x.errorCount + d) :
    (r.alter e f).totalErrors = r.totalErrors + d := by
  change OrderedMap.sumOver _ ReportEntry.errorCount = _
  apply OrderedMap.sumOver_alter
  intro old
  rw [h, errorCount_getD]

theorem errorCountOf_alter (r : Report) (e k : Executable) {f : ReportEntry → ReportEntry}
    {d : UInt64} (h : ∀ x, (f x).errorCount = x.errorCount + d) :
    (r.alter e f).errorCountOf k = if e = k then r.errorCountOf k + d else r.errorCountOf k := by
  simp only [errorCountOf, alter]
  rw [OrderedMap.get?_alter]
  by_cases hk : k = e
  · subst hk
    rw [if_pos rfl, if_pos rfl, Option.map_some, Option.getD_some, h, errorCount_getD]
  · rw [if_neg hk, if_neg fun he => hk he.symm]

theorem errorCount_merge (x : ReportEntry) (errors : ErrorCounts) :
    ({ x with errors := x.errors.merge errors } : ReportEntry).errorCount =
      x.errorCount + errors.total :=
  ErrorCounts.total_merge x.errors errors

/-- The total counts the errors of all executables. -/
theorem totalErrors_counter : Counter (fun _ => true) totalErrors where
  empty _ := rfl
  warn _ _ := rfl
  addMethod r m := by
    simp only [addMethod]
    split
    · exact (totalErrors_alter r _ fun x => by rw [errorCount_addTest, add_zero]).trans
        (add_zero _)
    · exact (totalErrors_alter r _ fun x => (add_zero _).symm).trans (add_zero _)
    · rfl
    · rfl
    · rfl
  addErrors r e errors := by
    rw [if_pos rfl]
    exact totalErrors_alter r e fun x => errorCount_merge x errors

/-- The entry of an executable counts its errors. -/
theorem errorCountOf_counter (k : Executable) :
    Counter (fun e => e = k) fun r => r.errorCountOf k where
  empty _ := rfl
  warn _ _ := rfl
  addMethod r m := by
    simp only [addMethod]
    split
    · refine (errorCountOf_alter r _ k fun x => by rw [errorCount_addTest, add_zero]).trans ?_
      rw [add_zero, ite_self]
    · refine (errorCountOf_alter r _ k fun x => (add_zero _).symm).trans ?_
      rw [add_zero, ite_self]
    · rfl
    · rfl
    · rfl
  addErrors r e errors := by
    refine (errorCountOf_alter r e k fun x => errorCount_merge x errors).trans ?_
    simp only [decide_eq_true_eq]

end Report

end TestWriter
