import EntityStore.Pattern
import Mathlib.Data.List.Basic
import Std.Data.TreeSet.Lemmas

/-!
# What access reports say

A report is filled by a recursion over terms that hands a mode and the report itself along.  Read
on the terms it says this: a component is written if it occurs for writing outside of every
`without`, read if it occurs for reading or below a `without`, and traced if it occurs below a
`changed`.  What the terms add does not depend on what was reported before, so the reports of parts
are put together by their union, and a union is in conflict with a report if one of its parts is.

* `AccessReport.Same`, `beq_iff_same` — reports that name the same components;
* `AccessReport.contains_unionSets` — the members of a union;
* `AccessReport.collide`, `conflicts_iff` — the scheduler's test, component by component;
* `Pattern.Occurs` — a component occurs in a term, and what is around it;
* `AccessReport.Gains`, `gains_addTo` — **what a term adds to a report;**
* `AccessReport.reports_compose` — the laws of reports.
-/

namespace EntityStore

namespace AccessReport

/-! ### Sets of components -/

theorem contains_insert_iff (set : Std.TreeSet ComponentId) (new id : ComponentId) :
    (set.insert new).contains id = true ↔ set.contains id = true ∨ new = id := by
  simp [Std.TreeSet.contains_insert, or_comm]

theorem any_eq_any_toList (set : Std.TreeSet ComponentId) (p : ComponentId → Bool) :
    set.any p = set.toList.any p := by
  have hloop : set.any p = Id.run do
      for id in set do
        if p id then return true
      return false := rfl
  rw [hloop, Std.TreeSet.forIn_eq_forIn_toList]
  induction set.toList with
  | nil => rfl
  | cons first rest ih =>
      rw [List.forIn_cons, List.any_cons]
      cases hp : p first with
      | true => rfl
      | false => simpa [hp] using ih

theorem any_iff (set : Std.TreeSet ComponentId) (p : ComponentId → Bool) :
    set.any p = true ↔ ∃ id, set.contains id = true ∧ p id = true := by
  rw [any_eq_any_toList, List.any_eq_true]
  simp only [Std.TreeSet.mem_toList, Std.TreeSet.mem_iff_contains]

theorem contains_foldl_insert (ids : List ComponentId) (set : Std.TreeSet ComponentId)
    (id : ComponentId) :
    (ids.foldl (fun set new => set.insert new) set).contains id = true ↔
      set.contains id = true ∨ id ∈ ids := by
  induction ids generalizing set with
  | nil => simp
  | cons first rest ih =>
      rw [List.foldl_cons, ih, contains_insert_iff, or_assoc, List.mem_cons,
        eq_comm (a := first)]

/-- A union has the members of both sets. -/
theorem contains_unionSets (a b : Std.TreeSet ComponentId) (id : ComponentId) :
    (unionSets a b).contains id = (a.contains id || b.contains id) := by
  rw [Bool.eq_iff_iff, unionSets, Std.TreeSet.foldl_eq_foldl_toList, contains_foldl_insert,
    Std.TreeSet.mem_toList, Std.TreeSet.mem_iff_contains, Bool.or_eq_true]

/-! ### Reports that name the same components -/

/-- Both reports name the same components, in the same way. -/
structure Same (a b : AccessReport) : Prop where
  written : ∀ id, a.written.contains id = b.written.contains id
  read : ∀ id, a.read.contains id = b.read.contains id
  traced : ∀ id, a.traced.contains id = b.traced.contains id

theorem toList_beq_iff (a b : Std.TreeSet ComponentId) :
    (a.toList == b.toList) = true ↔ ∀ id, a.contains id = b.contains id := by
  rw [beq_iff_eq, ← Std.TreeSet.equiv_iff_toList_eq]
  exact ⟨fun h id => h.contains_eq, Std.TreeSet.Equiv.of_forall_contains_eq⟩

/-- Reports are equal if they name the same components. -/
theorem beq_iff_same (a b : AccessReport) : (a == b) = true ↔ a.Same b := by
  have hbeq : (a == b) = (a.written.toList == b.written.toList && a.read.toList == b.read.toList &&
      a.traced.toList == b.traced.toList) := rfl
  rw [hbeq, Bool.and_eq_true, Bool.and_eq_true, toList_beq_iff, toList_beq_iff, toList_beq_iff]
  exact ⟨fun ⟨⟨hwritten, hread⟩, htraced⟩ => ⟨hwritten, hread, htraced⟩,
    fun h => ⟨⟨h.written, h.read⟩, h.traced⟩⟩

section Union

variable (a b c : AccessReport)

theorem union_comm : (a.union b).Same (b.union a) := by
  constructor <;> intro id <;> simp only [union, contains_unionSets, Bool.or_comm]

theorem union_assoc : ((a.union b).union c).Same (a.union (b.union c)) := by
  constructor <;> intro id <;> simp only [union, contains_unionSets, Bool.or_assoc]

theorem union_self : (a.union a).Same a := by
  constructor <;> intro id <;> simp only [union, contains_unionSets, Bool.or_self]

end Union

/-! ### Conflicts -/

/-- Whether the component is written by one of the systems and written or read by the other. -/
def collide (a b : AccessReport) (id : ComponentId) : Bool :=
  a.written.contains id && (b.written.contains id || b.read.contains id) ||
    b.written.contains id && a.read.contains id

section Conflicts

variable (a b c : AccessReport)

theorem conflicts_iff : a.conflicts b = true ↔ ∃ id, a.collide b id = true := by
  simp only [conflicts, collide, Bool.or_eq_true, Bool.and_eq_true, any_iff, exists_or]

theorem collide_comm (id : ComponentId) : a.collide b id = b.collide a id := by
  simp only [collide, Bool.and_or_distrib_left]
  ac_rfl

theorem collide_union (id : ComponentId) :
    (a.union b).collide c id = (a.collide c id || b.collide c id) := by
  simp only [collide, union, contains_unionSets, Bool.and_or_distrib_left,
    Bool.and_or_distrib_right]
  ac_rfl

/-- The test is symmetric, although it goes through the two reports in different ways. -/
theorem conflicts_comm : a.conflicts b = b.conflicts a := by
  rw [Bool.eq_iff_iff, conflicts_iff, conflicts_iff]
  exact exists_congr fun id => by rw [collide_comm]

/-- A union is in conflict where one of its parts is. -/
theorem conflicts_union : (a.union b).conflicts c = (a.conflicts c || b.conflicts c) := by
  rw [Bool.eq_iff_iff, Bool.or_eq_true, conflicts_iff, conflicts_iff, conflicts_iff, ← exists_or]
  exact exists_congr fun id => by rw [collide_union, Bool.or_eq_true]

end Conflicts

end AccessReport

/-! ### Where components occur -/

namespace Pattern

/-- How a component occurs in a term. -/
structure Occurrence where
  mutable : Bool
  excluded : Bool := false
  watched : Bool := false
deriving DecidableEq, Repr, Inhabited

/-- The component occurs in the term. -/
inductive Occurs (id : ComponentId) : Occurrence → Pattern → Prop
  | component {m : Bool} : Occurs id { mutable := m } (.component id m)
  | without {o : Occurrence} {child : Pattern} (h : Occurs id o child) :
      Occurs id { o with excluded := true } (.without child)
  | maybe {o : Occurrence} {child : Pattern} (h : Occurs id o child) : Occurs id o (.maybe child)
  | changed {o : Occurrence} {child : Pattern} (h : Occurs id o child) :
      Occurs id { o with watched := true } (.changed child)
  | batch {o : Occurrence} {child : Pattern} (h : Occurs id o child) : Occurs id o (.batch child)
  | any {o : Occurrence} {children : List Pattern} {child : Pattern} (hmem : child ∈ children)
      (h : Occurs id o child) : Occurs id o (.any children)
  | join {o : Occurrence} {children : List Pattern} {child : Pattern} (hmem : child ∈ children)
      (h : Occurs id o child) : Occurs id o (.join children)

/-- The component occurs in the term in one of the given ways. -/
def OccursAs (id : ComponentId) (ways : Occurrence → Prop) (p : Pattern) : Prop :=
  ∃ o, p.Occurs id o ∧ ways o

section OccursAs

variable {id : ComponentId} {ways : Occurrence → Prop}

theorem not_occursAs_entity : ¬OccursAs id ways .entity :=
  fun ⟨_, h, _⟩ => nomatch h

theorem occursAs_component_iff {id' : ComponentId} {m : Bool} :
    OccursAs id ways (.component id' m) ↔ id' = id ∧ ways { mutable := m } := by
  constructor
  · rintro ⟨_, ⟨⟩, hways⟩
    exact ⟨rfl, hways⟩
  · rintro ⟨rfl, hways⟩
    exact ⟨_, .component, hways⟩

theorem occursAs_without_iff {child : Pattern} : OccursAs id ways (.without child) ↔
    OccursAs id (fun o => ways { o with excluded := true }) child :=
  ⟨fun ⟨_, .without h, hways⟩ => ⟨_, h, hways⟩, fun ⟨_, h, hways⟩ => ⟨_, .without h, hways⟩⟩

theorem occursAs_maybe_iff {child : Pattern} :
    OccursAs id ways (.maybe child) ↔ OccursAs id ways child :=
  ⟨fun ⟨_, .maybe h, hways⟩ => ⟨_, h, hways⟩, fun ⟨_, h, hways⟩ => ⟨_, .maybe h, hways⟩⟩

theorem occursAs_changed_iff {child : Pattern} : OccursAs id ways (.changed child) ↔
    OccursAs id (fun o => ways { o with watched := true }) child :=
  ⟨fun ⟨_, .changed h, hways⟩ => ⟨_, h, hways⟩, fun ⟨_, h, hways⟩ => ⟨_, .changed h, hways⟩⟩

theorem occursAs_batch_iff {child : Pattern} :
    OccursAs id ways (.batch child) ↔ OccursAs id ways child :=
  ⟨fun ⟨_, .batch h, hways⟩ => ⟨_, h, hways⟩, fun ⟨_, h, hways⟩ => ⟨_, .batch h, hways⟩⟩

theorem occursAs_any_iff {children : List Pattern} :
    OccursAs id ways (.any children) ↔ ∃ child ∈ children, OccursAs id ways child :=
  ⟨fun ⟨_, .any hmem h, hways⟩ => ⟨_, hmem, _, h, hways⟩,
    fun ⟨_, hmem, _, h, hways⟩ => ⟨_, .any hmem h, hways⟩⟩

theorem occursAs_join_iff {children : List Pattern} :
    OccursAs id ways (.join children) ↔ ∃ child ∈ children, OccursAs id ways child :=
  ⟨fun ⟨_, .join hmem h, hways⟩ => ⟨_, hmem, _, h, hways⟩,
    fun ⟨_, hmem, _, h, hways⟩ => ⟨_, .join hmem h, hways⟩⟩

theorem OccursAs.mono {ways' : Occurrence → Prop} {p : Pattern} (h : p.OccursAs id ways)
    (hways : ∀ o, ways o → ways' o) : p.OccursAs id ways' :=
  h.imp fun o ho => ⟨ho.1, hways o ho.2⟩

end OccursAs

mutual

/-- The components of a term are those that occur in it. -/
theorem mem_components_iff (id : ComponentId) :
    (p : Pattern) → (id ∈ p.components ↔ p.OccursAs id fun _ => True)
  | .entity => by simp [components, not_occursAs_entity]
  | .component id' m => by simp [components, occursAs_component_iff, eq_comm]
  | .without child => by
      rw [components, occursAs_without_iff, mem_components_iff id child]
  | .maybe child => by rw [components, occursAs_maybe_iff, mem_components_iff id child]
  | .changed child => by
      rw [components, occursAs_changed_iff, mem_components_iff id child]
  | .batch child => by rw [components, occursAs_batch_iff, mem_components_iff id child]
  | .any children => by rw [components, occursAs_any_iff, mem_allComponents_iff id children]
  | .join children => by rw [components, occursAs_join_iff, mem_allComponents_iff id children]

theorem mem_allComponents_iff (id : ComponentId) :
    (ps : List Pattern) → (id ∈ allComponents ps ↔ ∃ p ∈ ps, p.OccursAs id fun _ => True)
  | [] => by simp [allComponents]
  | p :: rest => by
      rw [allComponents, List.mem_append, mem_components_iff id p, mem_allComponents_iff id rest,
        List.exists_mem_cons_iff]

end

/-! ### What has to be traced -/

mutual

/-- The components below a `changed`, where changes have to be traced. -/
def traced : Pattern → List ComponentId
  | .entity | .component .. => []
  | .without child | .maybe child | .batch child => traced child
  | .changed child => traced child ++ components child
  | .any children | .join children => allTraced children

/-- The components below a `changed` in a list of patterns. -/
def allTraced : List Pattern → List ComponentId
  | [] => []
  | p :: rest => traced p ++ allTraced rest

end

theorem allTraced_eq (ps : List Pattern) : allTraced ps = ps.flatMap traced := by
  induction ps with
  | nil => rfl
  | cons p rest ih => rw [allTraced, List.flatMap_cons, ih]

mutual

/-- The traced components are those that occur below a `changed`. -/
theorem mem_traced_iff (id : ComponentId) :
    (p : Pattern) → (id ∈ p.traced ↔ p.OccursAs id fun o => o.watched = true)
  | .entity => by simp [traced, not_occursAs_entity]
  | .component id' m => by simp [traced, occursAs_component_iff]
  | .without child => by rw [traced, occursAs_without_iff, mem_traced_iff id child]
  | .maybe child => by rw [traced, occursAs_maybe_iff, mem_traced_iff id child]
  | .changed child => by
      rw [traced, List.mem_append, mem_traced_iff id child, mem_components_iff id child,
        occursAs_changed_iff]
      -- every occurrence below a `changed` is watched, whatever it was
      constructor
      · rintro (hwatched | hoccurs)
        · exact hwatched.mono fun _ _ => rfl
        · exact hoccurs.mono fun _ _ => rfl
      · intro hoccurs
        exact .inr (hoccurs.mono fun _ _ => trivial)
  | .batch child => by rw [traced, occursAs_batch_iff, mem_traced_iff id child]
  | .any children => by rw [traced, occursAs_any_iff, mem_allTraced_iff id children]
  | .join children => by rw [traced, occursAs_join_iff, mem_allTraced_iff id children]

theorem mem_allTraced_iff (id : ComponentId) : (ps : List Pattern) →
    (id ∈ allTraced ps ↔ ∃ p ∈ ps, p.OccursAs id fun o => o.watched = true)
  | [] => by simp [allTraced]
  | p :: rest => by
      rw [allTraced, List.mem_append, mem_traced_iff id p, mem_allTraced_iff id rest,
        List.exists_mem_cons_iff]

end

/-- Whether the occurrence is reported as written.  Below a `without`, and where everything is only
read, it is not. -/
def Occurrence.writes (readOnly : Bool) (o : Occurrence) : Bool :=
  o.mutable && !(o.excluded || readOnly)

theorem Occurrence.writes_eq_true_iff (o : Occurrence) :
    o.writes false = true ↔ o.mutable = true ∧ o.excluded = false := by
  simp [writes]

theorem Occurrence.writes_eq_false_iff (o : Occurrence) :
    o.writes false = false ↔ o.mutable = false ∨ o.excluded = true := by
  simp [writes, imp_iff_not_or]

theorem Occurrence.writes_excluded (readOnly : Bool) (o : Occurrence) :
    ({ o with excluded := true } : Occurrence).writes readOnly = o.writes true := by
  simp [writes]

theorem Occurrence.writes_watched (readOnly : Bool) (o : Occurrence) :
    ({ o with watched := true } : Occurrence).writes readOnly = o.writes readOnly := rfl

end Pattern

/-! ### What is added to a report -/

namespace AccessReport

/-- What a report gains in one component: whether it is written, read and traced now. -/
structure Gains (id : ComponentId) (written read traced : Prop) (r r' : AccessReport) : Prop where
  written : r'.written.contains id = true ↔ r.written.contains id = true ∨ written
  read : r'.read.contains id = true ↔ r.read.contains id = true ∨ read
  traced : r'.traced.contains id = true ↔ r.traced.contains id = true ∨ traced

section Gains

variable {id : ComponentId} {written read traced written' read' traced' : Prop}
  {r r' r'' : AccessReport}

theorem Gains.refl (id : ComponentId) (r : AccessReport) : Gains id False False False r r := by
  constructor <;> rw [or_false]

theorem Gains.trans (h : Gains id written read traced r r')
    (h' : Gains id written' read' traced' r' r'') :
    Gains id (written ∨ written') (read ∨ read') (traced ∨ traced') r r'' where
  written := by rw [h'.written, h.written, or_assoc]
  read := by rw [h'.read, h.read, or_assoc]
  traced := by rw [h'.traced, h.traced, or_assoc]

/-- If as much is gained from an empty report, then the outcome is the union of both. -/
theorem Gains.same_union {r₀ : AccessReport} {written read traced : ComponentId → Prop}
    (h : ∀ id, Gains id (written id) (read id) (traced id) r r')
    (h₀ : ∀ id, Gains id (written id) (read id) (traced id) {} r₀) : r'.Same (r.union r₀) := by
  constructor <;> intro id <;> rw [union, contains_unionSets, Bool.eq_iff_iff, Bool.or_eq_true]
  · rw [(h id).written, (h₀ id).written]
    simp
  · rw [(h id).read, (h₀ id).read]
    simp
  · rw [(h id).traced, (h₀ id).traced]
    simp

theorem gains_add (id new : ComponentId) (m : Bool) (r : AccessReport) :
    Gains id (new = id ∧ m = true) (new = id ∧ m = false) False r (r.add new m) := by
  cases m <;> constructor <;> simp [add, or_comm]

theorem gains_traceAll (id : ComponentId) (ids : List ComponentId) (r : AccessReport) :
    Gains id False False (id ∈ ids) r (ids.foldl .trace r) := by
  induction ids generalizing r with
  | nil => simpa only [List.foldl_nil, List.not_mem_nil] using Gains.refl id r
  | cons first rest ih =>
      have hfirst : Gains id False False (first = id) r (r.trace first) := by
        constructor <;> simp [trace, or_comm]
      simpa only [List.foldl_cons, or_self, List.mem_cons, eq_comm (a := id)] using
        hfirst.trans (ih (r.trace first))

end Gains

section Terms

open Pattern

mutual

/-- **A report gains what occurs in the term.** -/
theorem gains_addTo (id : ComponentId) (readOnly : Bool) (r : AccessReport) : (p : Pattern) →
    Gains id (p.OccursAs id fun o => o.writes readOnly = true)
      (p.OccursAs id fun o => o.writes readOnly = false) (id ∈ p.traced) r (p.addTo readOnly r)
  | .entity => by
      simpa only [not_occursAs_entity, Pattern.traced, List.not_mem_nil, addTo] using
        Gains.refl id r
  | .component id' m => by
      simpa only [occursAs_component_iff, Occurrence.writes, Bool.false_or, Pattern.traced,
        List.not_mem_nil, addTo] using gains_add id id' (m && !readOnly) r
  | .without child => by
      simpa only [occursAs_without_iff, Occurrence.writes_excluded, Pattern.traced, addTo] using
        gains_addTo id true r child
  | .maybe child => by
      simpa only [occursAs_maybe_iff, Pattern.traced, addTo] using gains_addTo id readOnly r child
  | .changed child => by
      simpa only [occursAs_changed_iff, Occurrence.writes_watched, or_false, Pattern.traced,
        List.mem_append, addTo] using
        (gains_addTo id readOnly r child).trans (gains_traceAll id child.components _)
  | .batch child => by
      simpa only [occursAs_batch_iff, Pattern.traced, addTo] using gains_addTo id readOnly r child
  | .any children => by
      simpa only [occursAs_any_iff, Pattern.traced, addTo] using
        gains_addAllTo id readOnly r children
  | .join children => by
      simpa only [occursAs_join_iff, Pattern.traced, addTo] using
        gains_addAllTo id readOnly r children

theorem gains_addAllTo (id : ComponentId) (readOnly : Bool) (r : AccessReport) :
    (ps : List Pattern) →
      Gains id (∃ p ∈ ps, p.OccursAs id fun o => o.writes readOnly = true)
        (∃ p ∈ ps, p.OccursAs id fun o => o.writes readOnly = false) (id ∈ allTraced ps) r
        (addAllTo readOnly ps r)
  | [] => by simpa [allTraced, addAllTo] using Gains.refl id r
  | p :: rest => by
      simpa only [List.exists_mem_cons_iff, allTraced, addAllTo, List.mem_append] using
        (gains_addTo id readOnly r p).trans (gains_addAllTo id readOnly _ rest)

end

end Terms

/-! ### Reports of terms -/

section Reports

variable (ps : List Pattern) (id : ComponentId)

/-- A report writes what occurs for writing outside of every `without`. -/
theorem contains_written_ofPatterns : (ofPatterns ps).written.contains id = true ↔
    ∃ p ∈ ps, p.OccursAs id fun o => o.mutable = true ∧ o.excluded = false := by
  refine (gains_addAllTo id false {} ps).written.trans ?_
  simp [Pattern.Occurrence.writes_eq_true_iff]

/-- A report reads what occurs for reading or below a `without`. -/
theorem contains_read_ofPatterns : (ofPatterns ps).read.contains id = true ↔
    ∃ p ∈ ps, p.OccursAs id fun o => o.mutable = false ∨ o.excluded = true := by
  refine (gains_addAllTo id false {} ps).read.trans ?_
  simp [Pattern.Occurrence.writes_eq_false_iff]

/-- A report needs traced what is below a `changed`. -/
theorem contains_traced_ofPatterns : (ofPatterns ps).traced.contains id = true ↔
    id ∈ Pattern.allTraced ps := by
  refine (gains_addAllTo id false {} ps).traced.trans ?_
  simp

end Reports

/-- What terms add to a report does not depend on what was reported before. -/
theorem addPatterns_same (r : AccessReport) (ps : List Pattern) :
    (r.addPatterns ps).Same (r.union (ofPatterns ps)) :=
  Gains.same_union (fun id => gains_addAllTo id false r ps) fun id => gains_addAllTo id false {} ps

theorem ofPatterns_append_same (xs ys : List Pattern) :
    (ofPatterns (xs ++ ys)).Same ((ofPatterns xs).union (ofPatterns ys)) := by
  rw [ofPatterns, addPatterns_append]
  exact addPatterns_same (ofPatterns xs) ys

/-- **Access reports compose.**  Reports are equal if they name the same components.  The test for a
conflict is symmetric; the union of reports is commutative, associative and idempotent, and it is in
conflict with a report exactly if one of its parts is.

Terms that are added to a report make the union of it and their own report, so two lists of terms
together have the union of their reports.  A component is written in the report of a list of terms
exactly if it occurs there for writing outside of every `without`, read exactly if it occurs for
reading or below a `without`, and traced exactly if it occurs below a `changed`. -/
theorem reports_compose :
    (∀ a b : AccessReport, (a == b) = true ↔ a.Same b) ∧
    (∀ a b : AccessReport, a.conflicts b = b.conflicts a) ∧
    (∀ a b : AccessReport, (a.union b).Same (b.union a)) ∧
    (∀ a b c : AccessReport, ((a.union b).union c).Same (a.union (b.union c))) ∧
    (∀ a : AccessReport, (a.union a).Same a) ∧
    (∀ a b c : AccessReport, (a.union b).conflicts c = (a.conflicts c || b.conflicts c)) ∧
    (∀ (r : AccessReport) (ps : List Pattern),
      (r.addPatterns ps).Same (r.union (ofPatterns ps))) ∧
    (∀ xs ys : List Pattern,
      (ofPatterns (xs ++ ys)).Same ((ofPatterns xs).union (ofPatterns ys))) ∧
    ∀ (ps : List Pattern) (id : ComponentId),
      ((ofPatterns ps).written.contains id = true ↔
        ∃ p ∈ ps, ∃ o, p.Occurs id o ∧ o.mutable = true ∧ o.excluded = false) ∧
      ((ofPatterns ps).read.contains id = true ↔
        ∃ p ∈ ps, ∃ o, p.Occurs id o ∧ (o.mutable = false ∨ o.excluded = true)) ∧
      ((ofPatterns ps).traced.contains id = true ↔
        ∃ p ∈ ps, ∃ o, p.Occurs id o ∧ o.watched = true) := by
  refine ⟨beq_iff_same, conflicts_comm, union_comm, union_assoc, union_self, conflicts_union,
    addPatterns_same, ofPatterns_append_same, ?_⟩
  intro ps id
  refine ⟨contains_written_ofPatterns ps id, contains_read_ofPatterns ps id, ?_⟩
  exact (contains_traced_ofPatterns ps id).trans (Pattern.mem_allTraced_iff id ps)

/-- A hit to write if it was changed, and a level that is excluded: the level is only read. -/
example :
    let r := ofPatterns [.changed (.component ⟨1⟩ true), .without (.component ⟨0⟩ true)]
    r.written.contains ⟨1⟩ = true ∧ r.written.contains ⟨0⟩ = false ∧
      r.read.contains ⟨0⟩ = true ∧ r.traced.contains ⟨1⟩ = true := by decide

end AccessReport

end EntityStore
