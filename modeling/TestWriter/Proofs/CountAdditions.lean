import Mathlib.Algebra.Order.BigOperators.Group.List
import Mathlib.Algebra.Order.Group.Nat
import TestWriter.Proofs.ErrorAccounting

/-!
# Additions of counts

Counts of errors are words of 64 bits that are added without a check.  Each function that adds counts
has a form here that keeps the additions which it makes.  Main statement: where the sets are of
different executables, all additions of a construction and of its report stay among the words if and
only if the exact number of errors does, and only then the report shows this number.
-/

namespace TestWriter

/-! ## Additions -/

/-- An addition of two counts. -/
structure Addition where
  left : UInt64
  right : UInt64
  deriving DecidableEq, Repr

/-- The sum is a word, so nothing of it is lost. -/
def Addition.Fits (x : Addition) : Prop := x.left.toNat + x.right.toNat < UInt64.size

instance (x : Addition) : Decidable x.Fits := inferInstanceAs (Decidable (_ < _))

theorem Addition.Fits.toNat_add {x : Addition} (h : x.Fits) :
    (x.left + x.right).toNat = x.left.toNat + x.right.toNat := by
  rw [UInt64.toNat_add]
  exact Nat.mod_eq_of_lt h

/-- Some additions work towards a sum: they fit as long as the sum is a word, and if they fit they
reach it. -/
structure Reach (additions : List Addition) (sum result : Nat) : Prop where
  fits : sum < UInt64.size → ∀ x ∈ additions, x.Fits
  result_eq : (∀ x ∈ additions, x.Fits) → result = sum

namespace Reach

variable {xs ys : List Addition} {m n k d : Nat}

theorem nil (n : Nat) : Reach [] n n := ⟨fun _ => List.forall_mem_nil _, fun _ => rfl⟩

/-- Something apart from the additions is part of the sum and of the result. -/
theorem offset (h : Reach xs n m) (d : Nat) : Reach xs (n + d) (m + d) where
  fits hsum := h.fits (by omega)
  result_eq hfits := by rw [h.result_eq hfits]

/-- Additions go on with the result of others. -/
theorem trans (h : Reach xs n m) (h' : Reach ys (m + d) k) : Reach (xs ++ ys) (n + d) k where
  fits hsum := by
    have hxs := h.fits (by omega)
    refine List.forall_mem_append.mpr ⟨hxs, h'.fits ?_⟩
    rwa [h.result_eq hxs]
  result_eq hfits := by
    obtain ⟨hxs, hys⟩ := List.forall_mem_append.mp hfits
    rw [h'.result_eq hys, h.result_eq hxs]

/-- When the result is a word, the additions fit exactly when the sum is one. -/
theorem forall_fits_iff (h : Reach xs n m) (hm : m < UInt64.size) :
    (∀ x ∈ xs, x.Fits) ↔ n < UInt64.size :=
  ⟨fun hfits => h.result_eq hfits ▸ hm, h.fits⟩

/-- When the result is a word, it is the sum exactly when the sum is one. -/
theorem result_eq_iff (h : Reach xs n m) (hm : m < UInt64.size) :
    m = n ↔ n < UInt64.size :=
  ⟨fun heq => heq ▸ hm, fun hn => h.result_eq (h.fits hn)⟩

end Reach

/-- A value with the additions of counts that lead to it. -/
structure Added (α : Type) where
  value : α
  additions : List Addition

/-! ## Sums over a map -/

namespace OrderedMap

variable {α β M : Type} [AddCommMonoid M] [DecidableEq α]

/-- Changing the value of one key by a difference changes the sum by that difference, whatever the
change does to other values. -/
theorem sumOver_alter_of_get? (m : OrderedMap α β) (key : α) {f : Option β → β} {g : β → M} {d : M}
    (h : g (f (m.get? key)) = ((m.get? key).map g).getD 0 + d) :
    (m.alter key f).sumOver g = m.sumOver g + d := by
  obtain ⟨entries⟩ := m
  induction entries with
  | nil =>
      change sumOver ⟨[(key, f none)]⟩ g = _
      rw [sumOver_cons, add_comm]
      exact congrArg (_ + ·) (h.trans (zero_add d))
  | cons entry rest ih =>
      change sumOver ⟨alterEntries key f (entry :: rest)⟩ g = _
      simp only [alterEntries]
      by_cases hkey : entry.1 = key
      · have hfound : (⟨entry :: rest⟩ : OrderedMap α β).get? key = some entry.2 := by
          simp [get?, hkey]
        rw [hfound] at h
        rw [if_pos hkey, sumOver_cons, sumOver_cons, h, Option.map_some, Option.getD_some, add_assoc,
          add_comm d, add_assoc]
      · have hfound : (⟨entry :: rest⟩ : OrderedMap α β).get? key = get? ⟨rest⟩ key := by
          simp [get?, hkey]
        rw [hfound] at h
        rw [if_neg hkey, sumOver_cons, sumOver_cons, add_assoc]
        exact congrArg (g entry.2 + ·) (ih h)

/-- A value counts in the sum. -/
theorem le_sumOver (m : OrderedMap α β) (key : α) (g : β → Nat) :
    ((m.get? key).map g).getD 0 ≤ m.sumOver g := by
  obtain ⟨entries⟩ := m
  induction entries with
  | nil => exact Nat.zero_le _
  | cons entry rest ih =>
      rw [sumOver_cons]
      by_cases hkey : entry.1 = key
      · simp [get?, hkey]
      · have hfound : (⟨entry :: rest⟩ : OrderedMap α β).get? key = get? ⟨rest⟩ key := by
          simp [get?, hkey]
        rw [hfound]
        exact ih.trans (Nat.le_add_left _ _)

end OrderedMap

/-! ## Maps of counts -/

namespace ErrorCounts

/-- The count of a message. -/
def countOf (errors : ErrorCounts) (message : String) : UInt64 := (errors.get? message).getD 0

/-- The addition to the count of a message. -/
def addition (errors : ErrorCounts) (message : String) (count : UInt64) : Addition :=
  ⟨errors.countOf message, count⟩

/-- Add to the counts of some messages, one after the other. -/
def addAll (errors : ErrorCounts) : List (String × UInt64) → Added ErrorCounts
  | [] => ⟨errors, []⟩
  | (message, count) :: rest =>
    let sums := (errors.add message count).addAll rest
    ⟨sums.value, errors.addition message count :: sums.additions⟩

theorem value_addAll (errors : ErrorCounts) (entries : List (String × UInt64)) :
    (errors.addAll entries).value = errors.merge ⟨entries⟩ := by
  induction entries generalizing errors with
  | nil => rfl
  | cons entry rest ih => exact ih _

theorem reach_add (errors : ErrorCounts) (message : String) (count : UInt64) :
    Reach [errors.addition message count] (errors.sum + count.toNat)
      (errors.add message count).sum where
  fits hsum := by
    have hle := errors.le_sumOver message UInt64.toNat
    refine List.forall_mem_singleton.mpr ?_
    have hcount : (errors.countOf message).toNat =
        ((errors.get? message).map UInt64.toNat).getD 0 := by
      rw [countOf]
      cases errors.get? message <;> rfl
    change (errors.countOf message).toNat + count.toNat < UInt64.size
    rw [hcount]
    exact (Nat.add_le_add_right hle _).trans_lt hsum
  result_eq hfits := by
    have hadd := (List.forall_mem_singleton.mp hfits).toNat_add
    refine OrderedMap.sumOver_alter_of_get? errors message (g := UInt64.toNat) ?_
    change (errors.countOf message + count).toNat = _
    rw [show (errors.countOf message + count).toNat = _ from hadd]
    change (errors.countOf message).toNat + count.toNat = _
    rw [countOf]
    cases errors.get? message <;> rfl

theorem sum_cons (entry : String × UInt64) (rest : List (String × UInt64)) :
    sum ⟨entry :: rest⟩ = entry.2.toNat + sum ⟨rest⟩ :=
  OrderedMap.sumOver_cons UInt64.toNat entry rest

theorem reach_addAll (errors : ErrorCounts) (entries : List (String × UInt64)) :
    Reach (errors.addAll entries).additions (errors.sum + sum ⟨entries⟩)
      (errors.addAll entries).value.sum := by
  induction entries generalizing errors with
  | nil => exact .nil _
  | cons entry rest ih =>
      rw [sum_cons, ← Nat.add_assoc]
      exact (errors.reach_add entry.1 entry.2).trans (ih _)

end ErrorCounts

/-- Add words to a first one, one after the other. -/
def sumUp (first : UInt64) : List UInt64 → Added UInt64
  | [] => ⟨first, []⟩
  | n :: rest =>
    let sums := sumUp (first + n) rest
    ⟨sums.value, ⟨first, n⟩ :: sums.additions⟩

theorem value_sumUp (first : UInt64) (ns : List UInt64) :
    (sumUp first ns).value = ns.foldl (· + ·) first := by
  induction ns generalizing first with
  | nil => rfl
  | cons n rest ih => exact ih _

theorem reach_sumUp (first : UInt64) (ns : List UInt64) :
    Reach (sumUp first ns).additions (first.toNat + (ns.map UInt64.toNat).sum)
      (sumUp first ns).value.toNat := by
  induction ns generalizing first with
  | nil => exact .nil _
  | cons n rest ih =>
      rw [List.map_cons, List.sum_cons, ← Nat.add_assoc]
      have hone : Reach [⟨first, n⟩] (first.toNat + n.toNat) (first + n).toNat :=
        ⟨fun h => List.forall_mem_singleton.mpr h,
          fun h => (List.forall_mem_singleton.mp h).toNat_add⟩
      exact hone.trans (ih _)

theorem reach_total (ns : List UInt64) :
    Reach (sumUp 0 ns).additions (ns.map UInt64.toNat).sum (ns.foldl (· + ·) 0).toNat := by
  have h := reach_sumUp 0 ns
  rwa [value_sumUp, UInt64.toNat_zero, Nat.zero_add] at h

theorem ErrorCounts.sum_eq (errors : ErrorCounts) :
    errors.sum = (errors.values.map UInt64.toNat).sum := by
  obtain ⟨entries⟩ := errors
  induction entries with
  | nil => rfl
  | cons entry rest ih =>
      rw [sum_cons, ih]
      exact (List.sum_cons).symm

/-! ## Additions of a report -/

namespace ReportEntry

/-- The additions that count the errors of an executable. -/
def additions (x : ReportEntry) : List Addition := (sumUp 0 x.errors.values).additions

theorem reach_additions (x : ReportEntry) : Reach x.additions x.errors.sum x.errorCount.toNat := by
  rw [ErrorCounts.sum_eq]
  exact reach_total x.errors.values

theorem reach_each (xs : List ReportEntry) :
    Reach (xs.flatMap additions) (xs.map fun x => x.errors.sum).sum
      ((xs.map errorCount).map UInt64.toNat).sum := by
  induction xs with
  | nil => exact .nil 0
  | cons x rest ih =>
      rw [List.flatMap_cons]
      simp only [List.map_cons, List.sum_cons]
      refine x.reach_additions.trans ?_
      rw [Nat.add_comm, Nat.add_comm x.errorCount.toNat]
      exact ih.offset _

end ReportEntry

namespace Report

/-- The exact number of errors that a report holds. -/
def errorSum (r : Report) : Nat := r.executables.sumOver fun x => x.errors.sum

/-- The errors that a report holds of an executable. -/
def errorsOf (r : Report) (e : Executable) : ErrorCounts :=
  ((r.executables.get? e).map ReportEntry.errors).getD .empty

/-- The additions that count the errors of a report: those of each executable, then those of all. -/
def additions (r : Report) : List Addition :=
  r.executables.values.flatMap ReportEntry.additions ++
    (sumUp 0 (r.executables.values.map ReportEntry.errorCount)).additions

theorem errorSum_eq (r : Report) :
    r.errorSum = (r.executables.values.map fun x => x.errors.sum).sum := by
  rw [errorSum, OrderedMap.sumOver, ← List.foldl_map, ← List.sum_eq_foldl]

theorem reach_additions (r : Report) : Reach r.additions r.errorSum r.totalErrors.toNat := by
  have hall := reach_total (r.executables.values.map ReportEntry.errorCount)
  rw [List.foldl_map] at hall
  rw [errorSum_eq]
  exact (ReportEntry.reach_each r.executables.values).trans (d := 0) hall

theorem errorCountOf_eq (r : Report) (e : Executable) :
    r.errorCountOf e = (r.errorsOf e).total := by
  rw [errorCountOf, errorsOf]
  cases r.executables.get? e <;> rfl

theorem errorsOf_alter (r : Report) (e k : Executable) (f : ReportEntry → ReportEntry) :
    (r.alter e f).errorsOf k =
      if k = e then (f ((r.executables.get? e).getD .empty)).errors else r.errorsOf k := by
  rw [errorsOf, alter, OrderedMap.get?_alter]
  split <;> rfl

theorem errors_getD (r : Report) (e : Executable) :
    ((r.executables.get? e).getD .empty).errors = r.errorsOf e := by
  rw [errorsOf]
  cases r.executables.get? e <;> rfl

/-- An entry that keeps its errors keeps those of the report. -/
theorem errors_alter {f : ReportEntry → ReportEntry} (h : ∀ x, (f x).errors = x.errors)
    (r : Report) (e : Executable) :
    (r.alter e f).errorsOf = r.errorsOf ∧ (r.alter e f).errorSum = r.errorSum := by
  constructor
  · funext k
    rw [errorsOf_alter, h, errors_getD]
    split
    · next hk => rw [hk]
    · rfl
  · refine (OrderedMap.sumOver_alter r.executables e (d := 0) fun old => ?_).trans (Nat.add_zero _)
    rw [h]
    cases old <;> rfl

theorem errors_addMethod (r : Report) (m : Method) :
    (r.addMethod m).errorsOf = r.errorsOf ∧ (r.addMethod m).errorSum = r.errorSum := by
  simp only [addMethod]
  split
  · refine errors_alter (fun x => ?_) r _
    rename_i info _
    cases info.classification <;> rfl
  · exact errors_alter (fun x => rfl) r _
  all_goals exact ⟨rfl, rfl⟩

theorem errorsOf_addErrors (r : Report) (e k : Executable) (errors : ErrorCounts) :
    (r.addErrors e errors).errorsOf k =
      if k = e then (r.errorsOf e).merge errors else r.errorsOf k := by
  rw [addErrors, errorsOf_alter]
  dsimp only
  rw [errors_getD]

/-- The first errors of an executable are added to the others. -/
theorem errorSum_addErrors {r : Report} {e : Executable} (h : r.errorsOf e = .empty)
    (errors : ErrorCounts) :
    (r.addErrors e errors).errorSum =
      r.errorSum + ((r.addErrors e errors).errorsOf e).sum := by
  refine OrderedMap.sumOver_alter_of_get? r.executables e ?_
  have hold : ((r.executables.get? e).map fun x => x.errors.sum).getD 0 = (r.errorsOf e).sum := by
    rw [errorsOf]
    cases r.executables.get? e <;> rfl
  rw [hold, errorsOf_addErrors, if_pos rfl, h]
  change (((r.executables.get? e).getD .empty).errors.merge errors).sum = _
  rw [errors_getD, h]
  exact (Nat.zero_add _).symm

end Report

/-! ## Additions of a construction -/

namespace TestSet

/-- The number of builds that are given up for the set: one for each run without a test, or one for
the table. -/
def givenUp (set : TestSet) (config : Config) : Nat :=
  if config.isParameterized then (set.tableObstacle config).isSome.toNat else set.failures config

/-- The exact number of errors of a set: the builds that are given up and the inherited errors, if
the set has runs. -/
def exactErrors (set : TestSet) (config : Config) : Nat :=
  if set.isCovered then set.errors.sum + set.givenUp config else 0

end TestSet

namespace Assembly

variable {a b c : Assembly} {config : Config} {e : Executable} {xs ys : List Addition} {m n : Nat}

/-- The addition that counts a build for an executable if it is given up. -/
def attemptAdditions {α : Type} (e : Executable) (m : Build Generation α) (a : Assembly) :
    List Addition :=
  match m a.generation with
  | .ok _ _ => []
  | .error fault _ =>
    if fault.isFatal then [] else [(a.generation.errorsFor e).addition fault.message 1]

/-- The additions that count the tests of some runs that are given up. -/
def runAdditions (e : Executable) : List Execution → Assembly → List Addition
  | [], _ => []
  | run :: rest, a =>
    attemptAdditions e (run.toTest e) a ++
      match addRun e run a with
      | .ok _ b => runAdditions e rest b
      | .error _ _ => []

/-- The additions that count what is given up for a set. -/
def testAdditions (set : TestSet) (a : Assembly) : List Addition :=
  if a.generation.config.isParameterized then attemptAdditions set.executable set.toTable a
  else runAdditions set.executable set.executions a

/-- The additions that list the errors of a set: what is counted for its executable is added to the
inherited errors, and the result to the report. -/
def listingAdditions (set : TestSet) (a : Assembly) : List Addition :=
  let listed := set.errors.addAll (a.generation.errorsFor set.executable).entries
  listed.additions ++
    if listed.value.isEmpty then []
    else ((a.report.errorsOf set.executable).addAll listed.value.entries).additions

/-- The additions that a set leads to. -/
def setAdditions (set : TestSet) (a : Assembly) : List Addition :=
  if set.executions.isEmpty then []
  else
    testAdditions set (a.entered set.executable) ++
      match addTests set (a.entered set.executable) with
      | .ok _ b => listingAdditions set b
      | .error _ _ => []

/-- The additions that some sets lead to, one after the other. -/
def additions : List TestSet → Assembly → List Addition
  | [], _ => []
  | set :: rest, a =>
    setAdditions set a ++
      match addCovered set a with
      | .ok _ b => additions rest b
      | .error _ _ => []

/-- A number of builds is given up and counted for an executable; nothing else is. -/
structure Tallies (e : Executable) (xs : List Addition) (n : Nat) (a b : Assembly) : Prop where
  config_eq : b.generation.config = a.generation.config
  reach : Reach xs ((a.generation.errorsFor e).sum + n) (b.generation.errorsFor e).sum
  others : ∀ k, k ≠ e → b.generation.errorsFor k = a.generation.errorsFor k
  errorsOf : b.report.errorsOf = a.report.errorsOf
  errorSum : b.report.errorSum = a.report.errorSum

namespace Tallies

theorem none (hconfig : b.generation.config = a.generation.config)
    (he : b.generation.errors = a.generation.errors)
    (hreport : b.report.errorsOf = a.report.errorsOf ∧ b.report.errorSum = a.report.errorSum) :
    Tallies e [] 0 a b where
  config_eq := hconfig
  reach := by
    have hsame : b.generation.errorsFor e = a.generation.errorsFor e := by
      simp only [Generation.errorsFor, Generation.errorsAt?, he]
    rw [hsame]
    exact .nil _
  others k _ := by simp only [Generation.errorsFor, Generation.errorsAt?, he]
  errorsOf := hreport.1
  errorSum := hreport.2

theorem trans (h : Tallies e xs n a b) (h' : Tallies e ys m b c) :
    Tallies e (xs ++ ys) (n + m) a c where
  config_eq := h'.config_eq.trans h.config_eq
  reach := by
    rw [← Nat.add_assoc]
    exact h.reach.trans h'.reach
  others k hk := (h'.others k hk).trans (h.others k hk)
  errorsOf := h'.errorsOf.trans h.errorsOf
  errorSum := h'.errorSum.trans h.errorSum

end Tallies

theorem errors_warn (a : Assembly) (w : Option String) :
    (a.warn w).report.errorsOf = a.report.errorsOf ∧
      (a.warn w).report.errorSum = a.report.errorSum := by
  cases w <;> exact ⟨rfl, rfl⟩

theorem tallies_counted (a : Assembly) (w : Option String) (e : Executable) (message : String) :
    Tallies e [(a.generation.errorsFor e).addition message 1] 1 a (a.counted w e message) where
  config_eq := rfl
  reach := by
    have hcount : (a.counted w e message).generation.errorsFor e =
        (a.generation.errorsFor e).add message 1 :=
      Generation.errorsFor_tallyAt a.generation e message
    rw [hcount]
    exact ErrorCounts.reach_add _ message 1
  others k hk := by
    change ((a.generation.tallyAt e message).errorsAt? k).getD .empty = _
    rw [Generation.errorsAt?_tallyAt, if_neg hk]
    rfl
  errorsOf := (a.errors_warn w).1
  errorSum := (a.errors_warn w).2

theorem attemptAdditions_of_ok {α : Type} {t : Build Generation α} {x : α} {g : Generation}
    (h : t a.generation = .ok x g) : attemptAdditions e t a = [] := by
  rw [attemptAdditions, h]

theorem attemptAdditions_of_error {α : Type} {t : Build Generation α} {cause : BuildFailure}
    {g : Generation} (h : t a.generation = .error (.build cause) g) :
    attemptAdditions e t a = [(a.generation.errorsFor e).addition cause.message 1] := by
  rw [attemptAdditions, h]
  rfl

/-! ## What is given up -/

theorem tallies_tested {run : Execution} {t : Method} {g : Generation} (w : Option String)
    (h : run.toTest e a.generation = .ok t g) : Tallies e [] 0 a (a.tested w t g) := by
  obtain ⟨hof, hsum⟩ := (a.warn w).report.errors_addMethod t
  obtain ⟨hof', hsum'⟩ := a.errors_warn w
  have herrors := congrArg Generation.errors (Execution.restore_of_toTest_ok h)
  exact .none (Execution.config_of_toTest_ok h) herrors ⟨hof.trans hof', hsum.trans hsum'⟩

theorem addRun_tallies (hcur : a.generation.current = some e) (run : Execution) :
    ∃ t b, addRun e run a = .ok t b ∧
      Tallies e (attemptAdditions e (run.toTest e) a)
        (run.fails a.generation.config e).toNat a b := by
  have hmeets := run.toTestUnder_meets a.generation.config e a.generation
  rcases addRun_cases hcur run with ⟨ho, t, g, h, heq⟩ | ⟨cause, ho, heq⟩
  · rw [Execution.fails, ho, attemptAdditions_of_ok h]
    exact ⟨_, _, heq, tallies_tested _ h⟩
  · rw [ho] at hmeets
    obtain ⟨g, h⟩ := hmeets
    rw [Execution.fails, ho, attemptAdditions_of_error (t := run.toTest e) h]
    exact ⟨_, _, heq, tallies_counted a _ e cause.message⟩

theorem addRuns_tallies (hconfig : a.generation.config = config)
    (hcur : a.generation.current = some e) (runs : List Execution) :
    ∃ ts b, addRuns e runs a = .ok ts b ∧
      Tallies e (runAdditions e runs a) (runs.countP fun run => run.fails config e) a b := by
  induction runs generalizing a with
  | nil => exact ⟨[], a, rfl, .none rfl rfl ⟨rfl, rfl⟩⟩
  | cons run rest ih =>
      obtain ⟨t, b, hrun, hone⟩ := addRun_tallies hcur run
      obtain ⟨t', b', hrun', hconfig', hcur'⟩ := addRun_ok hcur run
      rw [hrun] at hrun'
      cases hrun'
      obtain ⟨ts, c, hrest, hmore⟩ := ih (hconfig'.trans hconfig) hcur'
      refine ⟨_, c, addRuns_cons_eq hrun hrest, ?_⟩
      rw [hconfig] at hone
      have hcount : (run :: rest).countP (fun run => run.fails config e) =
          (run.fails config e).toNat + rest.countP fun run => run.fails config e := by
        rw [List.countP_cons, Nat.add_comm]
        cases run.fails config e <;> rfl
      rw [hcount, runAdditions, hrun]
      exact hone.trans hmore

theorem addTable_tallies {set : TestSet} (hcur : a.generation.current = some set.executable) :
    ∃ items b, addTable set a = .ok items b ∧
      Tallies set.executable (attemptAdditions set.executable set.toTable a)
        (set.tableObstacle a.generation.config).isSome.toNat a b := by
  have hmeets := set.toTableUnder_meets a.generation.config a.generation
  rcases addTable_cases hcur with ⟨ho, t, g, h, heq⟩ | ⟨cause, ho, heq⟩
  · rw [ho, attemptAdditions_of_ok h]
    obtain ⟨hof, hsum⟩ := (a.warn _).report.errors_addMethod t.test
    obtain ⟨hof', hsum'⟩ := a.errors_warn (set.tableWarning? a.generation.config)
    have herrors := congrArg Generation.errors (TestSet.restore_of_toTable_ok h)
    exact ⟨_, _, heq, .none (TestSet.config_of_toTable_ok h) herrors
      ⟨hof.trans hof', hsum.trans hsum'⟩⟩
  · rw [ho] at hmeets
    obtain ⟨g, h⟩ := hmeets
    rw [ho, attemptAdditions_of_error (t := set.toTable) h]
    exact ⟨_, _, heq, tallies_counted a _ set.executable cause.message⟩

/-- The builds that are given up for a set are counted for its executable, one by one. -/
theorem addTests_tallies {set : TestSet} (hconfig : a.generation.config = config)
    (hcur : a.generation.current = some set.executable) :
    ∃ items b, addTests set a = .ok items b ∧
      Tallies set.executable (testAdditions set a) (set.givenUp config) a b := by
  subst hconfig
  simp only [addTests, testAdditions, TestSet.givenUp]
  split
  · exact addTable_tallies hcur
  · obtain ⟨ts, b, hruns, htallies⟩ := addRuns_tallies rfl hcur set.executions
    obtain ⟨items, hitems, -⟩ := addGroups_groups hcur hruns
    exact ⟨items, b, hitems, htallies⟩

/-! ## What is listed -/

/-- The errors of a set are reported for its executable; nothing else is. -/
structure Lists (e : Executable) (xs : List Addition) (n : Nat) (a b : Assembly) : Prop where
  config_eq : b.generation.config = a.generation.config
  reach : Reach xs n (b.report.errorsOf e).sum
  tallied : b.generation.errors = a.generation.errors
  others : ∀ k, k ≠ e → b.report.errorsOf k = a.report.errorsOf k
  errorSum : b.report.errorSum = a.report.errorSum + (b.report.errorsOf e).sum

/-- The first errors of an executable are listed: the inherited ones and those counted for it. -/
theorem addErrors_listed {set : TestSet} (h : a.report.errorsOf set.executable = .empty) :
    ∃ items b, addErrors set a = .ok items b ∧
      Lists set.executable (listingAdditions set a)
        (set.errors.sum + (a.generation.errorsFor set.executable).sum) a b := by
  have hmerged := set.errors.reach_addAll (a.generation.errorsFor set.executable).entries
  have hvalue : (set.errors.addAll (a.generation.errorsFor set.executable).entries).value =
      a.errorsOf set := ErrorCounts.value_addAll _ _
  rw [hvalue] at hmerged
  simp only [listingAdditions, hvalue]
  rcases addErrors_cases set a with ⟨hempty, heq⟩ | ⟨hsome, items, -, heq⟩
  · refine ⟨_, _, heq, ?_⟩
    have hnone : (a.errorsOf set).sum = 0 := by
      cases hentries : (a.errorsOf set).entries with
      | nil => simp [ErrorCounts.sum, OrderedMap.values, hentries]
      | cons entry rest => simp [OrderedMap.isEmpty, hentries] at hempty
    have hsum : (a.report.errorsOf set.executable).sum = 0 := by rw [h]; rfl
    rw [if_pos hempty, List.append_nil]
    refine ⟨rfl, ?_, rfl, fun _ _ => rfl, by rw [hsum]; rfl⟩
    rw [hsum, ← hnone]
    exact hmerged
  · refine ⟨items, _, heq, ?_⟩
    rw [if_neg (by simp [hsome])]
    have hfolded := (a.report.errorsOf set.executable).reach_addAll (a.errorsOf set).entries
    have hreported : (a.report.addErrors set.executable (a.errorsOf set)).errorsOf set.executable =
        ((a.report.errorsOf set.executable).addAll (a.errorsOf set).entries).value := by
      rw [Report.errorsOf_addErrors, if_pos rfl, ErrorCounts.value_addAll]
    refine ⟨rfl, ?_, rfl, fun k hk => ?_, Report.errorSum_addErrors h _⟩
    · change Reach _ _ ((a.report.addErrors _ _).errorsOf _).sum
      rw [hreported]
      refine hmerged.trans (d := 0) ?_
      rw [h] at hfolded ⊢
      rw [Nat.add_zero]
      have hzero : ErrorCounts.sum .empty = 0 := rfl
      rw [hzero, Nat.zero_add] at hfolded
      exact hfolded
    · exact (Report.errorsOf_addErrors _ _ _ _).trans (if_neg hk)

/-! ## Sets of different executables -/

/-- Nothing is counted or reported yet for an executable. -/
structure IsFresh (a : Assembly) (e : Executable) : Prop where
  tallied : a.generation.errorsFor e = .empty
  reported : a.report.errorsOf e = .empty

/-- The errors of a set are reported; those of other executables stay as they are. -/
structure Reports (set : TestSet) (config : Config) (xs : List Addition) (a b : Assembly) :
    Prop where
  config_eq : b.generation.config = config
  reach : Reach xs (set.exactErrors config) (b.report.errorsOf set.executable).sum
  tallied : ∀ k, k ≠ set.executable → b.generation.errorsFor k = a.generation.errorsFor k
  others : ∀ k, k ≠ set.executable → b.report.errorsOf k = a.report.errorsOf k
  errorSum : b.report.errorSum = a.report.errorSum + (b.report.errorsOf set.executable).sum

theorem addCovered_reports {set : TestSet} (hconfig : a.generation.config = config)
    (hfresh : a.IsFresh set.executable) :
    ∃ r b, addCovered set a = .ok r b ∧ Reports set config (setAdditions set a) a b := by
  cases hcovered : set.isCovered with
  | false =>
      have hruns : set.executions.isEmpty = true := by simpa [TestSet.isCovered] using hcovered
      have hsum : (a.report.errorsOf set.executable).sum = 0 := by rw [hfresh.reported]; rfl
      refine ⟨none, a, addCovered_of_not_isCovered hcovered a, hconfig, ?_, fun _ _ => rfl,
        fun _ _ => rfl, by rw [hsum]; rfl⟩
      rw [setAdditions, if_pos hruns, TestSet.exactErrors, hcovered, hsum]
      exact .nil 0
  | true =>
      have hruns : ¬set.executions.isEmpty = true := by simpa [TestSet.isCovered] using hcovered
      obtain ⟨items, b, htests, htallies⟩ :=
        addTests_tallies (a := a.entered set.executable) hconfig rfl
      have hempty : b.report.errorsOf set.executable = .empty :=
        (congrFun htallies.errorsOf _).trans hfresh.reported
      obtain ⟨more, c, hmore, hlists⟩ := addErrors_listed hempty
      obtain ⟨r, hr, -⟩ := addSet_eq htests hmore
      refine ⟨r, _, (addCovered_of_isCovered hcovered a).trans hr,
        (hlists.config_eq.trans htallies.config_eq).trans hconfig, ?_, fun k hk => ?_,
        fun k hk => ?_, ?_⟩
      · have hzero : ((a.entered set.executable).generation.errorsFor set.executable).sum = 0 := by
          change (a.generation.errorsFor set.executable).sum = 0
          rw [hfresh.tallied]
          rfl
        have hcounted := htallies.reach
        rw [hzero, Nat.zero_add] at hcounted
        have hlisted := hlists.reach
        rw [Nat.add_comm] at hlisted
        rw [setAdditions, if_neg hruns, htests, TestSet.exactErrors, if_pos hcovered, Nat.add_comm]
        exact hcounted.trans hlisted
      · change c.generation.errorsFor k = _
        rw [Generation.errorsFor, Generation.errorsAt?, hlists.tallied]
        exact htallies.others k hk
      · exact (hlists.others k hk).trans (congrFun htallies.errorsOf k)
      · exact hlists.errorSum.trans (congrArg (· + _) htallies.errorSum)

/-- The errors of sets of different executables are reported one after the other. -/
theorem addSets_reports (hconfig : a.generation.config = config) {sets : List TestSet}
    (hdistinct : (sets.map TestSet.executable).Nodup)
    (hfresh : ∀ set ∈ sets, a.IsFresh set.executable) :
    ∃ regions b, addSets sets a = .ok regions b ∧
      Reach (additions sets a) (a.report.errorSum + (sets.map fun set => set.exactErrors config).sum)
        b.report.errorSum ∧
      (∀ k, k ∉ sets.map TestSet.executable → b.report.errorsOf k = a.report.errorsOf k) ∧
      ((∀ x ∈ additions sets a, x.Fits) → ∀ set ∈ sets,
        (b.report.errorsOf set.executable).sum = set.exactErrors config) := by
  induction sets generalizing a with
  | nil => exact ⟨[], a, rfl, .nil _, fun _ _ => rfl, fun _ => List.forall_mem_nil _⟩
  | cons set rest ih =>
      rw [List.map_cons, List.nodup_cons] at hdistinct
      obtain ⟨hset, hrest⟩ := List.forall_mem_cons.mp hfresh
      obtain ⟨r, b, hr, hreports⟩ := addCovered_reports hconfig hset
      have hother : ∀ other ∈ rest, other.executable ≠ set.executable := by
        intro other hmem heq
        exact hdistinct.1 (heq ▸ List.mem_map_of_mem hmem)
      have hfresh' : ∀ other ∈ rest, b.IsFresh other.executable := fun other hmem =>
        ⟨(hreports.tallied _ (hother other hmem)).trans (hrest other hmem).tallied,
          (hreports.others _ (hother other hmem)).trans (hrest other hmem).reported⟩
      obtain ⟨regions, c, hregions, hreach, hothers, hexact⟩ :=
        ih hreports.config_eq hdistinct.2 hfresh'
      have hadditions : additions (set :: rest) a = setAdditions set a ++ additions rest b := by
        rw [additions, hr]
      have hkept : c.report.errorsOf set.executable = b.report.errorsOf set.executable :=
        hothers _ hdistinct.1
      refine ⟨_, c, addSets_cons_eq hr hregions, ?_, fun k hk => ?_, fun hfits => ?_⟩
      · rw [hadditions, List.map_cons, List.sum_cons]
        rw [hreports.errorSum] at hreach
        have hone := hreports.reach.trans (d := a.report.errorSum +
          (rest.map fun set => set.exactErrors config).sum) (by
            rw [← Nat.add_assoc, Nat.add_comm (ErrorCounts.sum _)]
            exact hreach)
        rwa [Nat.add_left_comm] at hone
      · rw [List.map_cons, List.mem_cons, not_or] at hk
        exact (hothers k hk.2).trans (hreports.others k hk.1)
      · rw [hadditions, List.forall_mem_append] at hfits
        refine List.forall_mem_cons.mpr ⟨?_, hexact hfits.2⟩
        rw [hkept]
        exact hreports.reach.result_eq hfits.1

end Assembly

theorem Report.toNat_errorCountOf {r : Report} {e : Executable}
    (h : (r.errorsOf e).sum < UInt64.size) :
    (r.errorCountOf e).toNat = (r.errorsOf e).sum := by
  rw [errorCountOf_eq, ErrorCounts.total_eq_ofNat_sum]
  exact UInt64.toNat_ofNat_of_lt' h

/-- The exact number of errors of some sets. -/
def exactErrors (config : Config) (sets : List TestSet) : Nat :=
  (sets.map fun set => set.exactErrors config).sum

/-- Where the sets are of different executables, all additions that a construction and its report
make stay among the words of 64 bits if and only if the exact number of errors does.  Only then the
report shows this number, and then it shows the exact number for each executable, too. -/
theorem error_counts_are_exact_iff (g : Generation) (customName : Option String) (optimize : Bool)
    (sets : List TestSet) (hdistinct : (sets.map TestSet.executable).Nodup) :
    ∃ c, (g.derive customName optimize).construct sets = .ok c ∧
      ((∀ x ∈ Assembly.additions sets (.start (g.derive customName optimize)) ++
          c.report.additions, x.Fits) ↔ exactErrors g.config sets < UInt64.size) ∧
      (c.report.totalErrors.toNat = exactErrors g.config sets ↔
        exactErrors g.config sets < UInt64.size) ∧
      (exactErrors g.config sets < UInt64.size → ∀ set ∈ sets,
        (c.report.errorCountOf set.executable).toNat = set.exactErrors g.config) := by
  have hfresh : ∀ set ∈ sets,
      (Assembly.start (g.derive customName optimize)).IsFresh set.executable :=
    fun set _ => ⟨rfl, rfl⟩
  have hconfig : (Assembly.start (g.derive customName optimize)).generation.config = g.config := rfl
  obtain ⟨regions, b, hregions, hreach, -, hexact⟩ :=
    Assembly.addSets_reports hconfig hdistinct hfresh
  obtain ⟨statics, b', hstatics, hconstruct⟩ := Generation.construct_eq hregions
  have hreport : b'.report = b.report := by
    cases hstatics
    rfl
  have hstart : (Assembly.start (g.derive customName optimize)).report.errorSum = 0 := rfl
  rw [hstart, Nat.zero_add] at hreach
  have hall := hreach.trans (d := 0) b.report.reach_additions
  rw [← hreport] at hall hexact
  have hword : b'.report.totalErrors.toNat < UInt64.size := b'.report.totalErrors.toNat_lt
  refine ⟨_, hconstruct, hall.forall_fits_iff hword, hall.result_eq_iff hword, ?_⟩
  intro hsum set hset
  have hfits := List.forall_mem_append.mp (hall.fits hsum)
  have hown := hexact hfits.1 set hset
  have hsmall : (b'.report.errorsOf set.executable).sum < UInt64.size := by
    rw [hown]
    have hle : set.exactErrors g.config ≤ exactErrors g.config sets :=
      List.le_sum_of_mem (List.mem_map_of_mem hset)
    exact hle.trans_lt hsum
  exact (Report.toNat_errorCountOf hsmall).trans hown

/-- A function with as many errors of one message as a word can count, and one of another. -/
def overcounted : List TestSet :=
  [⟨⟨⟨"", "m"⟩, "f", [], .void, .function⟩, [.ofArguments [] .completed], [],
    ⟨[("solver timeout", 18446744073709551615), ("no model", 1)]⟩⟩]

/-- The exact number of the errors is no word, not all additions fit, and the report shows no
error. -/
theorem error_counts_are_exact_iff_overcounted :
    let g := Generation.new ⟨"", "m"⟩ (.forLanguage .javascript)
    (overcounted.map TestSet.executable).Nodup ∧
      exactErrors g.config overcounted = UInt64.size ∧
      ∃ c, (g.derive none false).construct overcounted = .ok c ∧
        (¬∀ x ∈ Assembly.additions overcounted (.start (g.derive none false)) ++
          c.report.additions, x.Fits) ∧
        c.report.totalErrors.toNat ≠ exactErrors g.config overcounted ∧
        c.report.hasErrors = false := by
  intro g
  have hdistinct : (overcounted.map TestSet.executable).Nodup := by decide
  have hexact : exactErrors g.config overcounted = UInt64.size := by decide
  have hlarge : ¬exactErrors g.config overcounted < UInt64.size := by
    rw [hexact]
    exact Nat.lt_irrefl _
  obtain ⟨c, hc, hfits, htotal, -⟩ := error_counts_are_exact_iff g none false overcounted hdistinct
  have hshown : ((g.derive none false).construct overcounted).toOption.map
      (fun c => c.report.hasErrors) = some false := by decide +kernel
  rw [hc] at hshown
  exact ⟨hdistinct, hexact, c, hc, mt hfits.mp hlarge, mt htotal.mp hlarge,
    Option.some.inj hshown⟩

end TestWriter
