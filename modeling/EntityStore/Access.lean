import EntityStore.Component.Id
import Std.Data.TreeSet.Basic

/-!
# Access reports

The components that a system reads, writes, and needs change tracing for.  The queries of a
system add to one report; a scheduler asks of two reports whether their systems conflict.

* `AccessReport.add`, `AccessReport.trace`, `AccessReport.union` — filling a report;
* `AccessReport.conflicts`, `AccessReport.compatible` — the scheduler's test.

Two systems conflict when one of them writes what the other reads or writes.  The need for
change tracing is not part of the test.
-/

namespace EntityStore

/-- Components read, written and traced by one system. -/
structure AccessReport where
  written : Std.TreeSet ComponentId := {}
  read : Std.TreeSet ComponentId := {}
  traced : Std.TreeSet ComponentId := {}

namespace AccessReport

instance : Inhabited AccessReport := ⟨{}⟩

/-- Reports are equal when they name the same components. -/
instance : BEq AccessReport where
  beq a b :=
    a.written.toList == b.written.toList && a.read.toList == b.read.toList &&
      a.traced.toList == b.traced.toList

def isEmpty (r : AccessReport) : Bool :=
  r.written.isEmpty && r.read.isEmpty && r.traced.isEmpty

def add (r : AccessReport) (id : ComponentId) (mutable : Bool) : AccessReport :=
  if mutable then { r with written := r.written.insert id }
  else { r with read := r.read.insert id }

/-- Records the need for change tracing. -/
def trace (r : AccessReport) (id : ComponentId) : AccessReport :=
  { r with traced := r.traced.insert id }

def unionSets (a b : Std.TreeSet ComponentId) : Std.TreeSet ComponentId :=
  b.foldl (fun set id => set.insert id) a

def union (a b : AccessReport) : AccessReport :=
  { written := unionSets a.written b.written
    read := unionSets a.read b.read
    traced := unionSets a.traced b.traced }

/-- Whether one of the systems writes what the other reads or writes. -/
def conflicts (a b : AccessReport) : Bool :=
  a.written.any (fun id => b.written.contains id || b.read.contains id) ||
    b.written.any fun id => a.read.contains id

/-- Whether the two systems may run at the same time. -/
def compatible (a b : AccessReport) : Bool :=
  !a.conflicts b

end AccessReport

end EntityStore
