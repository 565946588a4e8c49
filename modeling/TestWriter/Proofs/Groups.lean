import TestWriter.Evidence.Groups

/-!
# Groups keep the executions

A walk over the clusters keeps a cursor, and each cluster gets the part of its range that lies
behind the cursor.  Main statement: whatever the clusters, the groups of a test set one after the
other are its executions, each of them once and in input order.
-/

namespace TestWriter

variable {α : Type}

theorem drop_take_append_drop (items : List α) {i j : Nat} (h : i ≤ j) :
    (items.take j).drop i ++ items.drop j = items.drop i := by
  rcases Nat.le_total j items.length with hj | hj
  · have hi : i ≤ (items.take j).length := by simp; omega
    rw [← List.drop_append_of_le_length hi, List.take_append_drop]
  · rw [List.take_of_length_le hj, List.drop_of_length_le hj, List.append_nil]

theorem slice_append_slice (items : List α) {i j k : Nat} (hij : i ≤ j) (hjk : j ≤ k) :
    slice items i j ++ slice items j k = slice items i k := by
  have htake : items.take j = (items.take k).take j := by
    rw [List.take_take, Nat.min_eq_left hjk]
  simp only [slice]
  rw [htake, drop_take_append_drop _ hij]

theorem slice_self (items : List α) (i : Nat) : slice items i i = [] := by
  simp [slice]

theorem flatMap_ofRange (executions : List Execution) (summary : Option ClusterNote)
    {start stop : Nat} (h : start ≤ stop) :
    (Group.ofRange executions summary start stop).flatMap Group.executions =
      slice executions start stop := by
  simp only [Group.ofRange]
  split
  · simp
  · have he : start = stop := by omega
    subst he
    simp [slice_self]

/-! ## The walk over the clusters -/

namespace Cluster

/-- Where the part of the cluster starts that lies behind the cursor, within `count` executions. -/
def cutStart (c : Cluster) (cursor count : Nat) : Nat := min (max c.start cursor) count

/-- Where this part stops. -/
def cutStop (c : Cluster) (cursor count : Nat) : Nat :=
  min (max c.stop (c.cutStart cursor count)) count

variable {cursor count : Nat}

theorem cursor_le_cutStart (c : Cluster) (h : cursor ≤ count) :
    cursor ≤ c.cutStart cursor count := by
  simp only [cutStart]
  omega

theorem cutStart_le_cutStop (c : Cluster) (cursor count : Nat) :
    c.cutStart cursor count ≤ c.cutStop cursor count := by
  simp only [cutStop, cutStart]
  omega

theorem cutStart_le (c : Cluster) (cursor count : Nat) : c.cutStart cursor count ≤ count :=
  Nat.min_le_right _ _

theorem cutStop_le (c : Cluster) (cursor count : Nat) : c.cutStop cursor count ≤ count :=
  Nat.min_le_right _ _

end Cluster

section

variable {executions : List Execution} {clusters : List Cluster} {cursor : Nat}

/-- One round of the walk: the executions in front of the part of a cluster, this part, and the
groups behind it. -/
theorem groupsFrom_cons (h : cursor ≤ executions.length) (c : Cluster) (rest : List Cluster) :
    groupsFrom executions cursor (c :: rest) =
      Group.ofRange executions none cursor (c.cutStart cursor executions.length) ++
        Group.ofRange executions (some c.summary) (c.cutStart cursor executions.length)
          (c.cutStop cursor executions.length) ++
        groupsFrom executions (c.cutStop cursor executions.length) rest := by
  have hle : cursor ≤ c.cutStop cursor executions.length :=
    Nat.le_trans (c.cursor_le_cutStart h) (c.cutStart_le_cutStop _ _)
  have hmax : max cursor (c.cutStop cursor executions.length) =
      c.cutStop cursor executions.length := Nat.max_eq_right hle
  calc groupsFrom executions cursor (c :: rest)
    _ = Group.ofRange executions none cursor (c.cutStart cursor executions.length) ++
          Group.ofRange executions (some c.summary) (c.cutStart cursor executions.length)
            (c.cutStop cursor executions.length) ++
          groupsFrom executions (max cursor (c.cutStop cursor executions.length)) rest := rfl
    _ = _ := by rw [hmax]

theorem flatMap_groupsFrom (h : cursor ≤ executions.length) :
    (groupsFrom executions cursor clusters).flatMap Group.executions =
      slice executions cursor executions.length := by
  induction clusters generalizing cursor with
  | nil => exact flatMap_ofRange executions none h
  | cons c rest ih =>
      have hcursor := c.cursor_le_cutStart h
      have hrange := c.cutStart_le_cutStop cursor executions.length
      have hstop := c.cutStop_le cursor executions.length
      rw [groupsFrom_cons h, List.flatMap_append, List.flatMap_append, ih hstop,
        flatMap_ofRange _ _ hcursor, flatMap_ofRange _ _ hrange,
        slice_append_slice _ hcursor hrange, slice_append_slice _ (by omega) hstop]

end

/-- The groups of a test set partition its executions, in input order. -/
theorem TestSet.flatMap_groups (set : TestSet) :
    set.groups.flatMap Group.executions = set.executions := by
  have h : set.groups.flatMap Group.executions =
      slice set.executions 0 set.executions.length := flatMap_groupsFrom (Nat.zero_le _)
  simpa [slice] using h

end TestWriter
