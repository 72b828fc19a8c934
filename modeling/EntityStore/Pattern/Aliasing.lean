import EntityStore.Error
import EntityStore.Pattern

/-!
# The aliasing test

A query may not fetch a component for writing while another of its terms fetches it too.  The
test works on the fetches that the terms may make for one entity.

* `Fetch` — a fetch of a component, for writing or not;
* `Pattern.fetches` — the fetches that a term may make;
* `refuseAliasing` — refuses a list of terms with two conflicting fetches;
* `refuseAliasing_eq_ok_iff` — it accepts exactly the lists without such a pair.

A `without` fetches nothing.  The children of `any` and `join` are alternatives: only one of them
is fetched, so their fetches are merged by component and do not conflict with each other.
-/

namespace EntityStore

/-- A fetch of one component. -/
structure Fetch where
  component : ComponentId
  mutable : Bool
deriving DecidableEq, Repr, Inhabited

namespace Fetch

/-- Adds a fetch to a list of alternatives: a component that is listed already becomes mutable
if the new fetch is. -/
def mergeInto (f : Fetch) : List Fetch → List Fetch
  | [] => [f]
  | g :: rest =>
    if g.component = f.component then { g with mutable := g.mutable || f.mutable } :: rest
    else g :: mergeInto f rest

/-- Fetches of alternatives, one for each component, in order of first occurrence. -/
def alternatives (fs : List Fetch) : List Fetch :=
  fs.foldl (fun merged f => mergeInto f merged) []

/-- Whether two fetches of one query must not both be made. -/
def conflicts (f g : Fetch) : Bool :=
  f.component == g.component && (f.mutable || g.mutable)

end Fetch

namespace Pattern

mutual

/-- The fetches that a term may make for one entity. -/
def fetches : Pattern → List Fetch
  | .entity | .without _ => []
  | .component id m => [⟨id, m⟩]
  | .maybe child | .changed child | .batch child => fetches child
  | .any children | .join children => Fetch.alternatives (allFetches children)

/-- The fetches that several terms may make for one entity, term by term. -/
def allFetches : List Pattern → List Fetch
  | [] => []
  | p :: rest => fetches p ++ allFetches rest

end

theorem allFetches_eq (ps : List Pattern) : allFetches ps = ps.flatMap fetches := by
  induction ps with
  | nil => rfl
  | cons p rest ih => simp only [allFetches, List.flatMap_cons, ih]

end Pattern

/-- The first fetch of the list that conflicts with a later one. -/
def firstConflict? : List Fetch → Option Fetch
  | [] => none
  | f :: rest => if rest.any f.conflicts then some f else firstConflict? rest

theorem firstConflict?_eq_none_iff (fs : List Fetch) :
    firstConflict? fs = none ↔ fs.Pairwise fun f g => f.conflicts g = false := by
  induction fs with
  | nil => simp [firstConflict?]
  | cons f rest ih =>
    simp only [firstConflict?, List.pairwise_cons]
    split
    · next h =>
      obtain ⟨g, hg, hfg⟩ := List.any_eq_true.1 h
      constructor
      · intro hnone
        cases hnone
      · rintro ⟨hall, _⟩
        rw [hall g hg] at hfg
        cases hfg
    · next h =>
      have hall : ∀ g ∈ rest, f.conflicts g = false := by simpa using h
      rw [ih]
      exact ⟨fun hp => ⟨hall, hp⟩, fun hp => hp.2⟩

/-- Refuses a list of terms that would fetch a component for writing while another term fetches
it too. -/
def refuseAliasing (ps : List Pattern) : Except StoreError Unit :=
  match firstConflict? (Pattern.allFetches ps) with
  | some f =>
    .error (.conflictingAccess
      s!"component {f.component.text} is fetched mutably by more than one term")
  | none => .ok ()

theorem refuseAliasing_eq_ok_iff (ps : List Pattern) :
    refuseAliasing ps = .ok () ↔
      (Pattern.allFetches ps).Pairwise fun f g => f.conflicts g = false := by
  rw [← firstConflict?_eq_none_iff]
  unfold refuseAliasing
  split <;> simp_all

end EntityStore
