import Mathlib.Data.List.Forall2
import TestWriter.Proofs.Groups

/-!
# Groups and the ranges of their clusters

Each group lies at an index, that of its first execution.  Main statements: the groups partition the
executions, those with a summary come from the clusters in order, and each execution gets the
summary of the first cluster that reaches past it, if this cluster covers it.
-/

namespace TestWriter

/-! ## Groups at their indices -/

/-- A group with the index of its first execution. -/
structure PlacedGroup where
  start : Nat
  group : Group

namespace PlacedGroup

/-- The index after the last execution. -/
def stop (p : PlacedGroup) : Nat := p.start + p.group.executions.length

/-- The execution with an index is in the group. -/
def Holds (p : PlacedGroup) (i : Nat) : Prop := p.start ≤ i ∧ i < p.stop

end PlacedGroup

/-- Groups one after the other, the first of them at an index. -/
def placed (start : Nat) : List Group → List PlacedGroup
  | [] => []
  | g :: rest => ⟨start, g⟩ :: placed (start + g.executions.length) rest

/-- The groups of a test set at their indices. -/
def TestSet.placed (set : TestSet) : List PlacedGroup := TestWriter.placed 0 set.groups

section

variable {executions : List Execution} {summary : Option ClusterNote} {groups more : List Group}
  {p : PlacedGroup} {i offset start stop : Nat}

theorem placed_append (offset : Nat) (groups more : List Group) :
    placed offset (groups ++ more) = placed offset groups ++
      placed (offset + (groups.flatMap Group.executions).length) more := by
  induction groups generalizing offset with
  | nil => rfl
  | cons g rest ih =>
      simp only [List.cons_append, placed, List.flatMap_cons, List.length_append]
      rw [ih, Nat.add_assoc]

/-- A group lies between the first index and the last one. -/
theorem bounds_of_mem_placed (hp : p ∈ placed offset groups) :
    offset ≤ p.start ∧ p.stop ≤ offset + (groups.flatMap Group.executions).length := by
  induction groups generalizing offset with
  | nil => cases hp
  | cons g rest ih =>
      simp only [List.flatMap_cons, List.length_append]
      rcases List.mem_cons.mp hp with rfl | hp
      · simp only [PlacedGroup.stop]
        omega
      · have hbounds := ih hp
        omega

/-- Each index belongs to a group. -/
theorem exists_placed_holds (hle : offset ≤ i)
    (hlt : i < offset + (groups.flatMap Group.executions).length) :
    ∃ p ∈ placed offset groups, p.Holds i := by
  induction groups generalizing offset with
  | nil =>
      simp only [List.flatMap_nil, List.length_nil] at hlt
      omega
  | cons g rest ih =>
      simp only [List.flatMap_cons, List.length_append] at hlt
      by_cases hfirst : i < offset + g.executions.length
      · exact ⟨⟨offset, g⟩, List.mem_cons_self, hle, hfirst⟩
      · have hnext : offset + g.executions.length ≤ i := by omega
        obtain ⟨p, hp, hholds⟩ := ih hnext (by omega)
        exact ⟨p, List.mem_cons_of_mem _ hp, hholds⟩

/-- The executions of a group are those with its indices. -/
theorem executions_of_mem_placed (front : List Execution)
    (hp : p ∈ placed front.length groups) :
    p.group.executions = slice (front ++ groups.flatMap Group.executions) p.start p.stop := by
  induction groups generalizing front with
  | nil => cases hp
  | cons g rest ih =>
      simp only [List.flatMap_cons]
      rcases List.mem_cons.mp hp with rfl | hp
      · simp [slice, PlacedGroup.stop, List.take_append]
      · rw [← List.length_append] at hp
        rw [ih _ hp, List.append_assoc]

theorem length_slice (hstop : stop ≤ executions.length) :
    (slice executions start stop).length = stop - start := by
  simp only [slice, List.length_drop, List.length_take]
  omega

/-- What a range of the executions adds to the groups at its index. -/
theorem placed_ofRange (hrange : start ≤ stop) (hstop : stop ≤ executions.length)
    (rest : List Group) :
    placed start (Group.ofRange executions summary start stop ++ rest) =
      placed start (Group.ofRange executions summary start stop) ++ placed stop rest := by
  rw [placed_append, flatMap_ofRange executions summary hrange, length_slice hstop]
  congr 2
  omega

theorem mem_placed_ofRange (hstop : stop ≤ executions.length)
    (hp : p ∈ placed start (Group.ofRange executions summary start stop)) :
    p.group.summary = summary ∧ p.start = start ∧ p.stop = stop := by
  simp only [Group.ofRange] at hp
  split at hp
  · next hlt =>
    obtain rfl := List.mem_singleton.mp hp
    refine ⟨rfl, rfl, ?_⟩
    simp only [PlacedGroup.stop, length_slice hstop]
    omega
  · cases hp

theorem ne_nil_of_mem_ofRange {g : Group} (hstop : stop ≤ executions.length)
    (hg : g ∈ Group.ofRange executions summary start stop) : g.executions ≠ [] := by
  simp only [Group.ofRange] at hg
  split at hg
  · next hlt =>
    obtain rfl := List.mem_singleton.mp hg
    apply List.ne_nil_of_length_pos
    rw [length_slice hstop]
    omega
  · cases hg

end

/-! ## What a cluster covers -/

namespace Cluster

/-- The range of the cluster holds an index. -/
def Covers (c : Cluster) (i : Nat) : Prop := c.start ≤ i ∧ i < c.stop

/-- The range of the cluster starts or ends behind an index. -/
def reachesPast (c : Cluster) (i : Nat) : Bool := i < max c.start c.stop

variable {c : Cluster} {cursor count i : Nat}

/-- Before its part, a cluster leaves only executions in front of its range. -/
theorem lt_start_of_lt_cutStart (hcursor : cursor ≤ i) (hi : i < c.cutStart cursor count) :
    i < c.start := by
  simp only [cutStart] at hi
  omega

/-- The part of a cluster lies in its range. -/
theorem covers_of_cut (hstart : c.cutStart cursor count ≤ i) (hstop : i < c.cutStop cursor count) :
    c.Covers i := by
  simp only [cutStart, cutStop] at hstart hstop
  constructor <;> omega

/-- Behind its part are only executions that a cluster does not reach past. -/
theorem reachesPast_eq_false (hstop : c.cutStop cursor count ≤ i) (hi : i < count) :
    c.reachesPast i = false := by
  simp only [cutStart, cutStop] at hstop
  simp only [reachesPast, decide_eq_false_iff_not]
  omega

theorem reachesPast_of_lt_start (hi : i < c.start) : c.reachesPast i = true := by
  simp only [reachesPast, decide_eq_true_eq]
  omega

theorem Covers.reachesPast (h : c.Covers i) : c.reachesPast i = true := by
  obtain ⟨hstart, hstop⟩ := h
  simp only [Cluster.reachesPast, decide_eq_true_eq]
  omega

/-- A cluster that reaches past an index covers it unless it starts behind it. -/
theorem covers_of_reachesPast (h : c.reachesPast i = true) (hstart : c.start ≤ i) :
    c.Covers i := by
  simp only [reachesPast, decide_eq_true_eq] at h
  constructor <;> omega

end Cluster

section

variable {executions : List Execution} {clusters : List Cluster} {p : PlacedGroup} {cursor i : Nat}

/-- A round of the walk, with the groups at their indices. -/
theorem placed_groupsFrom_cons (h : cursor ≤ executions.length) (c : Cluster)
    (rest : List Cluster) :
    placed cursor (groupsFrom executions cursor (c :: rest)) =
      placed cursor
          (Group.ofRange executions none cursor (c.cutStart cursor executions.length)) ++
        placed (c.cutStart cursor executions.length)
            (Group.ofRange executions (some c.summary) (c.cutStart cursor executions.length)
              (c.cutStop cursor executions.length)) ++
        placed (c.cutStop cursor executions.length)
          (groupsFrom executions (c.cutStop cursor executions.length) rest) := by
  rw [groupsFrom_cons h, List.append_assoc,
    placed_ofRange (c.cursor_le_cutStart h) (c.cutStart_le _ _),
    placed_ofRange (c.cutStart_le_cutStop _ _) (c.cutStop_le _ _), List.append_assoc]

/-- No group is empty. -/
theorem ne_nil_of_mem_groupsFrom (h : cursor ≤ executions.length) :
    ∀ g ∈ groupsFrom executions cursor clusters, g.executions ≠ [] := by
  induction clusters generalizing cursor with
  | nil =>
      intro g hg
      exact ne_nil_of_mem_ofRange (Nat.le_refl _) hg
  | cons c rest ih =>
      intro g hg
      have hstop := c.cutStop_le cursor executions.length
      rw [groupsFrom_cons h, List.mem_append, List.mem_append] at hg
      rcases hg with (hg | hg) | hg
      · exact ne_nil_of_mem_ofRange (c.cutStart_le _ _) hg
      · exact ne_nil_of_mem_ofRange hstop hg
      · exact ih hstop g hg

/-- A group with a summary has that of a cluster, and only executions that this cluster covers. -/
def PlacedGroup.ComesFrom (p : PlacedGroup) (c : Cluster) : Prop :=
  p.group.summary = some c.summary ∧ ∀ i, p.Holds i → c.Covers i

theorem filter_placed_ofRange_none {start stop : Nat} (hstop : stop ≤ executions.length) :
    (placed start (Group.ofRange executions none start stop)).filter
      (fun p => p.group.summary.isSome) = [] := by
  apply List.filter_eq_nil_iff.mpr
  intro p hp
  rw [(mem_placed_ofRange hstop hp).1]
  exact Bool.false_ne_true

/-- The groups with summaries come from clusters, in the order of these and at most one from each. -/
theorem summaries_groupsFrom (h : cursor ≤ executions.length) :
    List.SublistForall₂ PlacedGroup.ComesFrom
      ((placed cursor (groupsFrom executions cursor clusters)).filter
        fun p => p.group.summary.isSome) clusters := by
  induction clusters generalizing cursor with
  | nil =>
      rw [groupsFrom, filter_placed_ofRange_none (Nat.le_refl _)]
      exact .nil
  | cons c rest ih =>
      have hstop := c.cutStop_le cursor executions.length
      have hstart := c.cutStart_le cursor executions.length
      rw [placed_groupsFrom_cons h, List.filter_append, List.filter_append,
        filter_placed_ofRange_none hstart, List.nil_append]
      by_cases hpart : c.cutStart cursor executions.length < c.cutStop cursor executions.length
      · rw [Group.ofRange, if_pos hpart]
        apply List.SublistForall₂.cons _ (ih hstop)
        refine ⟨rfl, ?_⟩
        rintro i ⟨hle, hlt⟩
        simp only [PlacedGroup.stop, length_slice hstop] at hlt
        apply Cluster.covers_of_cut hle
        omega
      · rw [Group.ofRange, if_neg hpart]
        exact (ih hstop).cons_right

/-- The cluster that gives an execution its summary: the first that reaches past it, if this cluster
covers it. -/
def clusterOf? (clusters : List Cluster) (i : Nat) : Option Cluster :=
  (clusters.find? fun c => c.reachesPast i).filter fun c => c.start ≤ i

theorem clusterOf?_cons_of_reachesPast {c : Cluster} (h : c.reachesPast i = true) :
    clusterOf? (c :: clusters) i = if c.start ≤ i then some c else none := by
  simp [clusterOf?, h, Option.filter]

theorem clusterOf?_cons_of_not_reachesPast {c : Cluster} (h : c.reachesPast i = false) :
    clusterOf? (c :: clusters) i = clusterOf? clusters i := by
  simp [clusterOf?, h]

/-- The summary of the group that holds an execution. -/
theorem summary_of_holds (h : cursor ≤ executions.length) (hcursor : cursor ≤ i)
    (hp : p ∈ placed cursor (groupsFrom executions cursor clusters)) (hi : p.Holds i) :
    p.group.summary = (clusterOf? clusters i).map Cluster.summary := by
  induction clusters generalizing cursor with
  | nil => exact (mem_placed_ofRange (Nat.le_refl _) hp).1
  | cons c rest ih =>
      have hstop := c.cutStop_le cursor executions.length
      have hstart := c.cutStart_le cursor executions.length
      have hle := hi.1
      have hlt := hi.2
      rw [placed_groupsFrom_cons h, List.mem_append, List.mem_append] at hp
      -- The execution is in front of the part of the first cluster, in this part, or behind it.
      rcases hp with (hp | hp) | hp
      · obtain ⟨hsummary, -, hend⟩ := mem_placed_ofRange hstart hp
        have hbefore : i < c.start := Cluster.lt_start_of_lt_cutStart hcursor (hend ▸ hlt)
        rw [hsummary, clusterOf?_cons_of_reachesPast (Cluster.reachesPast_of_lt_start hbefore),
          if_neg (Nat.not_le_of_lt hbefore)]
        rfl
      · obtain ⟨hsummary, hbegin, hend⟩ := mem_placed_ofRange hstop hp
        have hcovers : c.Covers i := Cluster.covers_of_cut (hbegin ▸ hle) (hend ▸ hlt)
        rw [hsummary, clusterOf?_cons_of_reachesPast hcovers.reachesPast, if_pos hcovers.1]
        rfl
      · obtain ⟨hbegin, hend⟩ := bounds_of_mem_placed hp
        rw [flatMap_groupsFrom hstop, length_slice (Nat.le_refl _)] at hend
        have hpast : c.reachesPast i = false :=
          Cluster.reachesPast_eq_false (Nat.le_trans hbegin hle) (by omega)
        rw [ih hstop (Nat.le_trans hbegin hle) hp, clusterOf?_cons_of_not_reachesPast hpast]

/-! ## Every index is in range -/

/-- The nearest index between two bounds; there is none when the bounds are the wrong way round. -/
def clamp? (i low high : Nat) : Option Nat :=
  if low ≤ high then some (min (max i low) high) else none

/-- The items of a range; there are none when the range does not lie in the list. -/
def slice? {α : Type} (items : List α) (start stop : Nat) : Option (List α) :=
  if start ≤ stop ∧ stop ≤ items.length then some (slice items start stop) else none

/-- A group unless the range is empty, as far as the range lies in the list. -/
def Group.ofRange? (executions : List Execution) (summary : Option ClusterNote)
    (start stop : Nat) : Option (List Group) :=
  if start < stop then (slice? executions start stop).map fun part => [⟨summary, part⟩]
  else some []

/-- The walk over the clusters that gives up where bounds are the wrong way round or a range does
not lie in the list. -/
def groupsFrom? (executions : List Execution) (cursor : Nat) : List Cluster → Option (List Group)
  | [] => Group.ofRange? executions none cursor executions.length
  | cluster :: rest => do
    let start ← clamp? cluster.start cursor executions.length
    let stop ← clamp? cluster.stop start executions.length
    let gap ← Group.ofRange? executions none cursor start
    let part ← Group.ofRange? executions (some cluster.summary) start stop
    let others ← groupsFrom? executions (max cursor stop) rest
    return gap ++ part ++ others

theorem clamp?_eq {low high : Nat} (h : low ≤ high) (i : Nat) :
    clamp? i low high = some (min (max i low) high) := if_pos h

theorem ofRange?_eq {start stop : Nat} (hstop : stop ≤ executions.length)
    (summary : Option ClusterNote) :
    Group.ofRange? executions summary start stop =
      some (Group.ofRange executions summary start stop) := by
  simp only [Group.ofRange?, Group.ofRange]
  split
  · next hlt =>
    rw [slice?, if_pos ⟨Nat.le_of_lt hlt, hstop⟩]
    rfl
  · rfl

/-- The walk never gives up: the cursor stays between zero and the number of executions. -/
theorem groupsFrom?_eq (h : cursor ≤ executions.length) :
    groupsFrom? executions cursor clusters = some (groupsFrom executions cursor clusters) := by
  induction clusters generalizing cursor with
  | nil => exact ofRange?_eq (Nat.le_refl _) none
  | cons c rest ih =>
      have hstop := c.cutStop_le cursor executions.length
      have hstart := c.cutStart_le cursor executions.length
      have hmax : max cursor (c.cutStop cursor executions.length) ≤ executions.length := by omega
      have hclampStart : clamp? c.start cursor executions.length =
          some (c.cutStart cursor executions.length) := clamp?_eq h c.start
      have hclampStop : clamp? c.stop (c.cutStart cursor executions.length) executions.length =
          some (c.cutStop cursor executions.length) := clamp?_eq hstart c.stop
      simp only [groupsFrom?, hclampStart, hclampStop, Option.bind_eq_bind, Option.bind_some,
        ofRange?_eq hstart, ofRange?_eq hstop, ih hmax]
      rfl

end

/-- Groups partition the executions, whatever the clusters.  No bound and no range on the way is
invalid, no group is empty, and the groups one after the other are the executions.  The groups with
summaries come from clusters that cover them, in the order of the clusters and at most one from
each. -/
theorem TestSet.groups_partition_executions (set : TestSet) :
    groupsFrom? set.executions 0 set.clusters = some set.groups ∧
      (∀ g ∈ set.groups, g.executions ≠ []) ∧
      set.groups.flatMap Group.executions = set.executions ∧
      (∀ p ∈ set.placed, p.group.executions = slice set.executions p.start p.stop) ∧
      List.SublistForall₂ PlacedGroup.ComesFrom
        (set.placed.filter fun p => p.group.summary.isSome) set.clusters := by
  have hcursor : 0 ≤ set.executions.length := Nat.zero_le _
  refine ⟨groupsFrom?_eq hcursor, ne_nil_of_mem_groupsFrom hcursor, set.flatMap_groups, ?_,
    summaries_groupsFrom hcursor⟩
  intro p hp
  have hexecutions := executions_of_mem_placed [] hp
  rwa [List.nil_append, set.flatMap_groups] at hexecutions

/-! ## Executions without a summary -/

/-- The group that holds an execution has no summary. -/
def TestSet.LacksSummary (set : TestSet) (i : Nat) : Prop :=
  ∃ p ∈ set.placed, p.Holds i ∧ p.group.summary = none

section

variable {set : TestSet} {clusters : List Cluster} {i : Nat}

/-- Each execution is in a group, and this has the summary of its cluster. -/
theorem TestSet.exists_placed_summary (hi : i < set.executions.length) :
    ∃ p ∈ set.placed, p.Holds i ∧
      p.group.summary = (clusterOf? set.clusters i).map Cluster.summary := by
  have hend : i < 0 + (set.groups.flatMap Group.executions).length := by
    rwa [set.flatMap_groups, Nat.zero_add]
  obtain ⟨p, hp, hholds⟩ := exists_placed_holds (Nat.zero_le i) hend
  exact ⟨p, hp, hholds, summary_of_holds (Nat.zero_le _) (Nat.zero_le i) hp hholds⟩

theorem TestSet.lacksSummary_iff (hi : i < set.executions.length) :
    set.LacksSummary i ↔ clusterOf? set.clusters i = none := by
  constructor
  · rintro ⟨p, hp, hholds, hnone⟩
    rw [summary_of_holds (Nat.zero_le _) (Nat.zero_le i) hp hholds] at hnone
    exact Option.map_eq_none_iff.mp hnone
  · intro hnone
    obtain ⟨p, hp, hholds, hsummary⟩ := exists_placed_summary hi
    rw [hnone] at hsummary
    exact ⟨p, hp, hholds, hsummary⟩

/-- An execution that is covered belongs to no cluster if and only if the first cluster that reaches
past it starts behind it. -/
theorem clusterOf?_eq_none_iff :
    clusterOf? clusters i = none ↔ (∀ c ∈ clusters, ¬ c.Covers i) ∨
      ∃ c, clusters.find? (fun c => c.reachesPast i) = some c ∧ i < c.start := by
  constructor
  · intro hnone
    cases hfirst : clusters.find? fun c => c.reachesPast i with
    | none =>
        refine Or.inl fun c hc hcovers => ?_
        exact List.find?_eq_none.mp hfirst c hc hcovers.reachesPast
    | some c =>
        rw [clusterOf?, hfirst] at hnone
        refine Or.inr ⟨c, rfl, ?_⟩
        simpa using hnone
  · rintro (hnone | ⟨c, hfirst, hstart⟩)
    · rw [clusterOf?, Option.filter_eq_none_iff]
      intro c hc hstart
      have hpast : c.reachesPast i = true := by simpa using List.find?_some hc
      apply hnone c (List.mem_of_find?_eq_some hc)
      exact Cluster.covers_of_reachesPast hpast (of_decide_eq_true hstart)
    · rw [clusterOf?, hfirst]
      simpa using hstart

/-- When clusters come in the order of their starts, the first that reaches past a covered execution
covers it. -/
theorem not_covers_of_pairwise (hsorted : clusters.Pairwise fun c d => c.start ≤ d.start)
    (hnone : clusterOf? clusters i = none) : ∀ c ∈ clusters, ¬ c.Covers i := by
  induction clusters with
  | nil => simp
  | cons c rest ih =>
      obtain ⟨hfirst, hrest⟩ := List.pairwise_cons.mp hsorted
      by_cases hpast : c.reachesPast i = true
      · rw [clusterOf?_cons_of_reachesPast hpast] at hnone
        have hstart : ¬ c.start ≤ i := by
          intro hle
          rw [if_pos hle] at hnone
          cases hnone
        intro d hd hcovers
        rcases List.mem_cons.mp hd with rfl | hd
        · exact hstart hcovers.1
        · exact hstart (Nat.le_trans (hfirst d hd) hcovers.1)
      · have hfalse : c.reachesPast i = false := Bool.eq_false_iff.mpr hpast
        rw [clusterOf?_cons_of_not_reachesPast hfalse] at hnone
        intro d hd hcovers
        rcases List.mem_cons.mp hd with rfl | hd
        · exact hpast hcovers.reachesPast
        · exact ih hrest hnone d hd hcovers

end

/-- An execution is in a group with the summary of the first cluster that reaches past it, if this
cluster covers it, and in one without summary otherwise.  So it lacks a summary if and only if no
cluster covers it, or the first one that reaches past it starts behind it.  When the clusters come
in the order of their starts, exactly the executions that no cluster covers lack a summary. -/
theorem TestSet.lacks_summary_unless_first_covers (set : TestSet) (i : Nat)
    (hi : i < set.executions.length) :
    (∃ p ∈ set.placed, p.Holds i ∧
        p.group.summary = (clusterOf? set.clusters i).map Cluster.summary) ∧
      (set.LacksSummary i ↔ (∀ c ∈ set.clusters, ¬ c.Covers i) ∨
        ∃ c, set.clusters.find? (fun c => c.reachesPast i) = some c ∧ i < c.start) ∧
      ((set.clusters.Pairwise fun c d => c.start ≤ d.start) →
        (set.LacksSummary i ↔ ∀ c ∈ set.clusters, ¬ c.Covers i)) := by
  refine ⟨exists_placed_summary hi, (lacksSummary_iff hi).trans clusterOf?_eq_none_iff, ?_⟩
  intro hsorted
  rw [lacksSummary_iff hi]
  constructor
  · exact not_covers_of_pairwise hsorted
  · intro hnone
    exact clusterOf?_eq_none_iff.mpr (Or.inl hnone)

/-- Three runs with a cluster that covers all of them, listed after one that starts behind them. -/
def lateClusterFirst : TestSet :=
  let run : Execution := .ofArguments [] .completed
  { executable := ⟨⟨"calc", "calc"⟩, "f", [], .void, .function⟩
    executions := [run, run, run]
    clusters := [⟨⟨some "late", []⟩, 5, 7⟩, ⟨⟨some "all", []⟩, 0, 3⟩]
    errors := .empty }

/-- The first run is covered and lacks a summary; it has one when the clusters change places. -/
theorem TestSet.lacks_summary_unless_first_covers_lateClusterFirst :
    let sorted := { lateClusterFirst with clusters := lateClusterFirst.clusters.reverse }
    0 < lateClusterFirst.executions.length ∧ (∃ c ∈ lateClusterFirst.clusters, c.Covers 0) ∧
      lateClusterFirst.LacksSummary 0 ∧
      (sorted.clusters.Pairwise fun c d => c.start ≤ d.start) ∧ ¬ sorted.LacksSummary 0 := by
  intro sorted
  have hlength : 0 < lateClusterFirst.executions.length := by decide
  have hcovers : Cluster.Covers ⟨⟨some "all", []⟩, 0, 3⟩ 0 := by
    constructor <;> decide
  have hsorted : sorted.clusters.Pairwise fun c d => c.start ≤ d.start := by decide
  refine ⟨hlength, ⟨_, by decide, hcovers⟩, ?_, hsorted, ?_⟩
  · rw [(lacks_summary_unless_first_covers lateClusterFirst 0 hlength).2.1]
    exact Or.inr ⟨⟨⟨some "late", []⟩, 5, 7⟩, by decide, by decide⟩
  · rw [(lacks_summary_unless_first_covers sorted 0 hlength).2.2 hsorted]
    intro hnone
    exact hnone ⟨⟨some "all", []⟩, 0, 3⟩ (by decide) hcovers

end TestWriter
