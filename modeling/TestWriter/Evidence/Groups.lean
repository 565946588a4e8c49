import TestWriter.Evidence.Execution

/-!
# Groups of executions

Clusters are clamped to the executions and trimmed so that they never overlap.  The executions that
no cluster covers form groups without summary in between, so every execution is in one group.
-/

namespace TestWriter

/-- Consecutive executions, with the summary of their cluster if they have one. -/
structure Group where
  summary : Option ClusterNote
  executions : List Execution

/-- The items from index `start` up to, not including, `stop`. -/
def slice {α : Type} (items : List α) (start stop : Nat) : List α :=
  (items.take stop).drop start

/-- A group unless the range is empty. -/
def Group.ofRange (executions : List Execution) (summary : Option ClusterNote)
    (start stop : Nat) : List Group :=
  if start < stop then [⟨summary, slice executions start stop⟩] else []

/-- The groups from index `cursor` on. -/
def groupsFrom (executions : List Execution) (cursor : Nat) : List Cluster → List Group
  | [] => Group.ofRange executions none cursor executions.length
  | cluster :: rest =>
    let start := min (max cluster.start cursor) executions.length
    let stop := min (max cluster.stop start) executions.length
    Group.ofRange executions none cursor start ++
      Group.ofRange executions (some cluster.summary) start stop ++
      groupsFrom executions (max cursor stop) rest

/-- The executions of a test set by cluster, in input order. -/
def TestSet.groups (set : TestSet) : List Group :=
  groupsFrom set.executions 0 set.clusters

end TestWriter
