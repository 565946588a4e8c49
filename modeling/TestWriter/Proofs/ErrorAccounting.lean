import TestWriter.Proofs.Counts
import TestWriter.Proofs.Regions

/-!
# Errors in a report

The errors counted for an executable are kept for the whole generation, and every set of the
executable adds all of them to the report again.  Main statement: where each run has its own test,
a report shows the failures and the inherited errors of the sets that have runs, and beyond them the
failures of each set once more for every later set of the same executable.  So the number is exact
if and only if these repetitions vanish among the words of 64 bits.
-/

namespace TestWriter

namespace TestSet

/-- Whether the set has a run. -/
def isCovered (set : TestSet) : Bool := !set.executions.isEmpty

/-- The number of runs whose build fails. -/
def failures (set : TestSet) (config : Config) : Nat :=
  set.executions.countP fun run => run.fails config set.executable

theorem failures_of_not_isCovered {set : TestSet} (h : set.isCovered = false) (config : Config) :
    set.failures config = 0 := by
  have hnil : set.executions = [] := by simpa [isCovered] using h
  simp [failures, hnil]

end TestSet

/-- The number of sets of an executable that have runs. -/
def coverings (e : Executable) (sets : List TestSet) : Nat :=
  sets.countP fun set => set.isCovered && set.executable = e

/-- The errors that a report should show: the runs whose build fails, and the inherited errors of
the sets that have runs. -/
def recordedErrors (config : Config) : List TestSet → Nat
  | [] => 0
  | set :: rest =>
    set.failures config + (if set.isCovered then set.errors.sum else 0) +
      recordedErrors config rest

/-- The failures that are counted again, with each later set of their executable that has runs. -/
def repeatedErrors (config : Config) : List TestSet → Nat
  | [] => 0
  | set :: rest =>
    set.failures config * coverings set.executable rest + repeatedErrors config rest

/-- Nothing is counted again when no set with a failing run is followed by a set of the same
executable that has runs. -/
theorem repeatedErrors_eq_zero_iff (config : Config) (sets : List TestSet) :
    repeatedErrors config sets = 0 ↔
      sets.Pairwise fun set later => later.executable = set.executable →
        later.isCovered = true → set.failures config = 0 := by
  induction sets with
  | nil => simp [repeatedErrors]
  | cons set rest ih =>
      rw [repeatedErrors, List.pairwise_cons, Nat.add_eq_zero_iff, ih, Nat.mul_eq_zero]
      apply and_congr_left
      intro _
      constructor
      · rintro (hzero | hnone) later hlater he hcovered
        · exact hzero
        · have hnot := List.countP_eq_zero.mp hnone later hlater
          exact absurd (by simp [he, hcovered]) hnot
      · intro h
        by_cases hzero : set.failures config = 0
        · exact Or.inl hzero
        · refine Or.inr (List.countP_eq_zero.mpr ?_)
          intro later hlater hsame
          have hsame' : later.isCovered = true ∧ later.executable = set.executable := by
            simpa using hsame
          exact hzero (h later hlater hsame'.2 hsame'.1)

namespace Assembly

variable {a b : Assembly} {config : Config} {e : Executable} {p : Executable → Bool}
  {count : Report → UInt64}

/-- The number of errors counted so far for an executable. -/
def tally (a : Assembly) (e : Executable) : UInt64 := (a.generation.errorsFor e).total

theorem tally_counted (a : Assembly) (w : Option String) (e k : Executable) (message : String) :
    (a.counted w e message).tally k = a.tally k + if k = e then 1 else 0 := by
  unfold tally counted
  by_cases h : k = e
  · subst h
    dsimp only
    rw [Generation.errorsFor_tallyAt, ErrorCounts.total_add, if_pos rfl]
  · dsimp only
    rw [if_neg h, add_zero, Generation.errorsFor, Generation.errorsAt?_tallyAt, if_neg h]
    rfl

/-- What a run adds to the counts: one error of its executable if its build fails. -/
theorem addRun_tally (hcount : Report.Counter p count) (hconfig : a.generation.config = config)
    (hcur : a.generation.current = some e) (run : Execution) :
    ∃ m b, addRun e run a = .ok m b ∧ count b.report = count a.report ∧
      ∀ k, b.tally k = a.tally k + if k = e then UInt64.ofNat (run.fails config e).toNat else 0 := by
  have hwarn : ∀ w, count (a.warn w).report = count a.report := by
    intro w
    cases w with
    | none => rfl
    | some text => exact hcount.warn _ _
  rcases addRun_cases hcur run with ⟨ho, m, g, h, heq⟩ | ⟨cause, ho, heq⟩
  · have hfails : run.fails config e = false := by simp [Execution.fails, ← hconfig, ho]
    have hg := Execution.restore_of_toTest_ok h
    have herrors := congrArg Generation.errors hg
    refine ⟨some m, _, heq, (hcount.addMethod _ _).trans (hwarn _), ?_⟩
    intro k
    rw [hfails]
    have hk : (a.tested (run.warning? a.generation.config e) m g).tally k = a.tally k := by
      change (((g.errors.get? k)).getD .empty).total = _
      change g.errors = a.generation.errors at herrors
      rw [herrors]
      rfl
    rw [hk]
    exact (add_zero _).symm.trans (by simp)
  · have hfails : run.fails config e = true := by simp [Execution.fails, ← hconfig, ho]
    refine ⟨none, _, heq, hwarn _, ?_⟩
    intro k
    rw [tally_counted, hfails]
    rfl

/-- What runs add to the counts: one error for each run whose build fails. -/
theorem addRuns_tally (hcount : Report.Counter p count) (hconfig : a.generation.config = config)
    (hcur : a.generation.current = some e) (runs : List Execution) :
    ∃ ms b, addRuns e runs a = .ok ms b ∧ count b.report = count a.report ∧
      ∀ k, b.tally k =
        a.tally k + if k = e then UInt64.ofNat (runs.countP fun run => run.fails config e)
          else 0 := by
  induction runs generalizing a with
  | nil =>
      refine ⟨[], a, rfl, rfl, ?_⟩
      intro k
      rw [List.countP_nil]
      exact (add_zero _).symm.trans (by simp)
  | cons run rest ih =>
      obtain ⟨m, b, hrun, hreport, htally⟩ := addRun_tally hcount hconfig hcur run
      obtain ⟨m', b', hrun', hconfig', hcur'⟩ := addRun_ok hcur run
      rw [hrun] at hrun'
      cases hrun'
      obtain ⟨ms, c, hrest, hreport', htally'⟩ := ih (hconfig'.trans hconfig) hcur'
      refine ⟨_, c, addRuns_cons_eq hrun hrest, hreport'.trans hreport, ?_⟩
      intro k
      rw [htally', htally, List.countP_cons, add_assoc]
      by_cases hk : k = e
      · simp only [hk, if_true]
        rw [← UInt64.ofNat_add, Nat.add_comm]
        cases run.fails config e <;> rfl
      · simp only [hk, if_false, add_zero]

theorem total_errorsOf (a : Assembly) (set : TestSet) :
    (a.errorsOf set).total = set.errors.total + a.tally set.executable :=
  ErrorCounts.total_merge set.errors _

/-- Listing the errors of a set adds the inherited errors and all that are counted so far. -/
theorem addErrors_count (hcount : Report.Counter p count) (set : TestSet) (a : Assembly) :
    ∃ items b, addErrors set a = .ok items b ∧ b.generation.config = a.generation.config ∧
      b.tally = a.tally ∧
      count b.report = count a.report +
        if p set.executable then set.errors.total + a.tally set.executable else 0 := by
  rw [← total_errorsOf]
  rcases addErrors_cases set a with ⟨hempty, heq⟩ | ⟨-, items, -, heq⟩
  · refine ⟨[], a, heq, rfl, rfl, ?_⟩
    rw [ErrorCounts.total_of_isEmpty hempty, ite_self, add_zero]
  · refine ⟨items, _, heq, rfl, rfl, (hcount.addErrors _ _ _).trans ?_⟩
    split
    · rfl
    · exact (add_zero _).symm

theorem addSet_count (hcount : Report.Counter p count) (hplain : config.isParameterized = false)
    (hconfig : a.generation.config = config) (set : TestSet) :
    ∃ r b, addSet set a = .ok r b ∧ b.generation.config = config ∧
      (∀ k, b.tally k = a.tally k +
        if k = set.executable then UInt64.ofNat (set.failures config) else 0) ∧
      count b.report = count a.report +
        if p set.executable then set.errors.total + b.tally set.executable else 0 := by
  obtain ⟨ms, b, hruns, hreport, htally⟩ :=
    addRuns_tally (a := a.entered set.executable) hcount hconfig rfl set.executions
  obtain ⟨ms', b', hruns', hconfig', -⟩ :=
    addRuns_ok (a := a.entered set.executable) rfl set.executions
  rw [hruns] at hruns'
  cases hruns'
  obtain ⟨items, hitems, -⟩ := addGroups_groups rfl hruns
  have htests : addTests set (a.entered set.executable) = .ok items b := by
    have hfalse : (a.entered set.executable).generation.config.isParameterized = false :=
      (congrArg Config.isParameterized hconfig).trans hplain
    simp only [addTests]
    rw [hfalse]
    exact hitems
  obtain ⟨more, c, hmore, hconfig'', htally', hreport'⟩ := addErrors_count hcount set b
  obtain ⟨r, hr, -⟩ := addSet_eq htests hmore
  refine ⟨r, _, hr, (hconfig''.trans hconfig').trans hconfig, ?_, ?_⟩
  · intro k
    change c.tally k = _
    rw [htally']
    exact htally k
  · change count c.report = count a.report + if p set.executable
      then set.errors.total + c.tally set.executable else 0
    rw [hreport', hreport, htally']
    rfl

theorem addCovered_of_isCovered {set : TestSet} (h : set.isCovered = true) (a : Assembly) :
    addCovered set a = addSet set a := by
  have hruns : ¬set.executions.isEmpty = true := by simpa [TestSet.isCovered] using h
  simp only [addCovered, if_neg hruns]

theorem addCovered_of_not_isCovered {set : TestSet} (h : set.isCovered = false) (a : Assembly) :
    addCovered set a = .ok none a := by
  have hruns : set.executions.isEmpty = true := by simpa [TestSet.isCovered] using h
  simp only [addCovered, if_pos hruns]
  rfl

theorem addCovered_count (hcount : Report.Counter p count)
    (hplain : config.isParameterized = false) (hconfig : a.generation.config = config)
    (set : TestSet) :
    ∃ r b, addCovered set a = .ok r b ∧ b.generation.config = config ∧
      (∀ k, b.tally k = a.tally k +
        if k = set.executable then UInt64.ofNat (set.failures config) else 0) ∧
      count b.report = count a.report +
        if p set.executable ∧ set.isCovered then
          set.errors.total + b.tally set.executable else 0 := by
  cases hcovered : set.isCovered with
  | false =>
      refine ⟨none, a, addCovered_of_not_isCovered hcovered a, hconfig, ?_, ?_⟩
      · intro k
        rw [TestSet.failures_of_not_isCovered hcovered]
        exact (add_zero _).symm.trans (by simp)
      · simp
  | true =>
      obtain ⟨r, b, hr, hb, htally, hreport⟩ := addSet_count hcount hplain hconfig set
      refine ⟨r, b, (addCovered_of_isCovered hcovered a).trans hr, hb, htally, ?_⟩
      rw [hreport]
      simp

/-- What is counted already, once for each set that has runs. -/
def pending (t : Executable → UInt64) : List TestSet → UInt64
  | [] => 0
  | set :: rest => (if set.isCovered then t set.executable else 0) + pending t rest

theorem pending_add {t t' : Executable → UInt64} {n : UInt64}
    (h : ∀ k, t' k = t k + if k = e then n else 0) (sets : List TestSet) :
    pending t' sets = pending t sets + n * UInt64.ofNat (coverings e sets) := by
  induction sets with
  | nil => simp [pending, coverings]
  | cons set rest ih =>
      have hcons : coverings e (set :: rest) = coverings e rest +
          if set.isCovered ∧ set.executable = e then 1 else 0 := by
        simp [coverings, List.countP_cons]
      rw [pending, pending, ih, h, hcons, UInt64.ofNat_add]
      cases hcovered : set.isCovered with
      | false => simp
      | true =>
          by_cases he : set.executable = e
          · simp only [he, if_true, and_self]
            grind
          · simp [he, add_assoc]

theorem pending_zero (sets : List TestSet) : pending (fun _ => 0) sets = 0 := by
  induction sets with
  | nil => rfl
  | cons set rest ih => simp [pending, ih]

theorem coverings_filter_of_not (hp : p e = false) (sets : List TestSet) :
    coverings e (sets.filter fun set => p set.executable) = 0 := by
  refine List.countP_eq_zero.mpr ?_
  intro set hset hsame
  have he : set.executable = e := by simp_all
  have hkept := (List.mem_filter.mp hset).2
  rw [he, hp] at hkept
  cases hkept

/-- The errors that a report shows after test sets, for the executables that are counted. -/
theorem addSets_count (hcount : Report.Counter p count) (hplain : config.isParameterized = false)
    (hconfig : a.generation.config = config) (sets : List TestSet) :
    ∃ regions b, addSets sets a = .ok regions b ∧
      count b.report = count a.report +
        pending a.tally (sets.filter fun set => p set.executable) +
        UInt64.ofNat (recordedErrors config (sets.filter fun set => p set.executable) +
          repeatedErrors config (sets.filter fun set => p set.executable)) := by
  induction sets generalizing a with
  | nil => exact ⟨[], a, rfl, by simp [pending, recordedErrors, repeatedErrors]⟩
  | cons set rest ih =>
      obtain ⟨r, b, hr, hb, htally, hreport⟩ := addCovered_count hcount hplain hconfig set
      obtain ⟨regions, c, hregions, hcountc⟩ := ih hb
      refine ⟨_, c, addSets_cons_eq hr hregions, ?_⟩
      rw [hcountc, hreport, pending_add htally]
      cases hp : p set.executable with
      | false =>
          rw [coverings_filter_of_not hp, List.filter_cons_of_neg (by simp [hp])]
          simp
      | true =>
          rw [List.filter_cons_of_pos (by simp [hp])]
          simp only [pending, recordedErrors, repeatedErrors, htally, true_and, if_true,
            UInt64.ofNat_add, UInt64.ofNat_mul]
          cases hcovered : set.isCovered with
          | false =>
              simp only [TestSet.failures_of_not_isCovered hcovered, Bool.false_eq_true, if_false]
              grind
          | true =>
              simp only [if_true, ErrorCounts.total_eq_ofNat_sum]
              grind

end Assembly

theorem ofNat_add_eq_left_iff (m n : Nat) :
    UInt64.ofNat (m + n) = UInt64.ofNat m ↔ UInt64.size ∣ n := by
  rw [← UInt64.toNat_inj, UInt64.toNat_ofNat', UInt64.toNat_ofNat']
  change (m + n) % 18446744073709551616 = m % 18446744073709551616 ↔ 18446744073709551616 ∣ n
  omega

/-- Where each run has its own test, a report shows the recorded errors and the repeated ones, in
all and for each executable.  It shows the recorded ones alone if and only if the repeated ones
vanish in 64 bits; there are none when no set with a failing run is followed by a set of the same
executable that has runs. -/
theorem report_counts_errors (g : Generation) (customName : Option String) (optimize : Bool)
    (sets : List TestSet) (hplain : g.config.isParameterized = false) :
    ∃ c, (g.derive customName optimize).construct sets = .ok c ∧
      c.report.totalErrors =
        UInt64.ofNat (recordedErrors g.config sets + repeatedErrors g.config sets) ∧
      (c.report.totalErrors = UInt64.ofNat (recordedErrors g.config sets) ↔
        UInt64.size ∣ repeatedErrors g.config sets) ∧
      (∀ e : Executable, let own := sets.filter fun set => set.executable = e
        c.report.errorCountOf e =
          UInt64.ofNat (recordedErrors g.config own + repeatedErrors g.config own) ∧
        (c.report.errorCountOf e = UInt64.ofNat (recordedErrors g.config own) ↔
          UInt64.size ∣ repeatedErrors g.config own)) ∧
      (repeatedErrors g.config sets = 0 ↔
        sets.Pairwise fun set later => later.executable = set.executable →
          later.isCovered = true → set.failures g.config = 0) := by
  have htally : (Assembly.start (g.derive customName optimize)).tally = fun _ => 0 := rfl
  have hsets : ∀ {p : Executable → Bool} {count : Report → UInt64}, Report.Counter p count →
      ∃ regions b, Assembly.addSets sets (.start (g.derive customName optimize)) =
          .ok regions b ∧
        count b.report = UInt64.ofNat
          (recordedErrors g.config (sets.filter fun set => p set.executable) +
            repeatedErrors g.config (sets.filter fun set => p set.executable)) := by
    intro p count hcount
    obtain ⟨regions, b, h, hreport⟩ := Assembly.addSets_count hcount hplain
      (a := .start (g.derive customName optimize)) rfl sets
    refine ⟨regions, b, h, ?_⟩
    rw [hreport, htally, Assembly.pending_zero, add_zero]
    exact (congrArg (· + _) (hcount.empty _)).trans (zero_add _)
  obtain ⟨regions, b, h, htotal⟩ := hsets Report.totalErrors_counter
  obtain ⟨statics, b', hstatics, hconstruct⟩ := Generation.construct_eq h
  have hreport : b'.report = b.report := by
    cases hstatics
    rfl
  have hall : (sets.filter fun _ => true) = sets := List.filter_eq_self.mpr fun _ _ => rfl
  rw [hall, ← hreport] at htotal
  refine ⟨_, hconstruct, htotal, ?_, ?_, repeatedErrors_eq_zero_iff g.config sets⟩
  · rw [← ofNat_add_eq_left_iff, ← htotal]
    rfl
  · intro e own
    obtain ⟨regions', b'', h', hown⟩ := hsets (Report.errorCountOf_counter e)
    rw [h] at h'
    cases h'
    rw [← hreport] at hown
    refine ⟨hown, ?_⟩
    rw [← ofNat_add_eq_left_iff (recordedErrors g.config own), ← hown]
    rfl

/-- A function without parameters in two test sets: its run fails in the first one, where it has an
argument, and can be written in the second one. -/
def sharedFunction : List TestSet :=
  let f : Executable := ⟨⟨"", "m"⟩, "f", [], .void, .function⟩
  [⟨f, [.ofArguments [.null] .completed], [], .empty⟩, ⟨f, [.ofArguments [] .completed], [], .empty⟩]

/-- One failure is recorded and two errors are shown, for the class and for the function. -/
theorem report_counts_errors_sharedFunction :
    let g := Generation.new ⟨"", "m"⟩ (.forLanguage .javascript)
    g.config.isParameterized = false ∧ recordedErrors g.config sharedFunction = 1 ∧
      ∃ c, (g.derive none false).construct sharedFunction = .ok c ∧ c.report.totalErrors = 2 ∧
        c.report.errorCountOf ⟨⟨"", "m"⟩, "f", [], .void, .function⟩ = 2 := by
  intro g
  obtain ⟨c, hc, htotal, -, hown, -⟩ :=
    report_counts_errors g none false sharedFunction (by decide)
  refine ⟨by decide, by decide, c, hc, ?_, ?_⟩
  · rw [htotal]
    decide
  · rw [(hown _).1]
    decide

end TestWriter
