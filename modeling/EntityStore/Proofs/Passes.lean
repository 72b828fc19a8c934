import EntityStore.Proofs.World

/-!
# Passes over the matches of a query

Calls of one query, one after the other.  Between two calls the caller may write through the row
that it was given.

* `writeThrough` — writing through a row that was delivered;
* `RowIterator.run`, `RowIterator.skip` — calls of `next`, with writing in between or without;
* `RowCursor.getAll`, `RowCursor.walk` — fetching at one position, and stepping on;
* `UntypedUse`, `UntypedUse.run` — calls of an untyped cursor;
* `within_run`, `within_walk` and the like — none of them inserts anything.
-/

namespace EntityStore

/-- Writes through a row, if one was delivered. -/
def writeThrough (f : Record → Record) (delivered : Option Row) (st : FetchState) : FetchState :=
  match delivered with
  | some row => { st with world := updateRow f row st.world }
  | none => st

theorem within_writeThrough (f : Record → Record) (delivered : Option Row) (st : FetchState) :
    (writeThrough f delivered st).world.Within st.world := by
  cases delivered with
  | none => exact .refl st.world
  | some row => exact World.within_updateRow f row st.world

/-! ### Iterators -/

namespace RowIterator

/-- One call of `next` for each write, which goes through the row that the call gave. -/
def run (it : RowIterator) :
    List (Record → Record) → FetchState → List (Option Row) × RowIterator × FetchState
  | [], st => ([], it, st)
  | f :: rest, st =>
    let (row, it, st) := it.next st
    let (rows, it, st) := it.run rest (writeThrough f row st)
    (row :: rows, it, st)

/-- The first call, and the calls after the writing. -/
theorem fst_run_cons (it : RowIterator) (f : Record → Record) (rest : List (Record → Record))
    (st : FetchState) :
    (it.run (f :: rest) st).1 = (it.next st).1 ::
      ((it.next st).2.1.run rest (writeThrough f (it.next st).1 (it.next st).2.2)).1 := rfl

/-- Calls of `next` without writing in between. -/
def skip (it : RowIterator) : Nat → FetchState → RowIterator × FetchState
  | 0, st => (it, st)
  | n + 1, st => (it.next st).2.1.skip n (it.next st).2.2

theorem skip_succ (it : RowIterator) (n : Nat) (st : FetchState) :
    it.skip (n + 1) st = (it.next st).2.1.skip n (it.next st).2.2 := rfl

/-- The entity whose row the next call fetches. -/
def upcoming? (it : RowIterator) (w : World) : Option Entity :=
  it.remaining.find? (Term.allHold w · it.query.terms)

theorem within_nextOf (ts : List (Term Column)) (remaining : List Entity) (st : FetchState) :
    (nextOf ts remaining st).2.2.world.Within st.world := by
  induction remaining with
  | nil => exact .refl st.world
  | cons e rest ih =>
      rw [nextOf]
      split
      · exact World.within_fetchRow e ts st
      · exact ih

theorem within_run (it : RowIterator) (writes : List (Record → Record)) (st : FetchState) :
    (it.run writes st).2.2.world.Within st.world := by
  induction writes generalizing it st with
  | nil => exact .refl st.world
  | cons f rest ih =>
      have hnext : (it.next st).2.2.world.Within st.world :=
        within_nextOf it.query.terms it.remaining st
      have hwrite := within_writeThrough f (it.next st).1 (it.next st).2.2
      exact (ih _ _).trans (hwrite.trans hnext)

end RowIterator

/-! ### Cursors -/

namespace RowCursor

/-- One fetch of the current row for each write, which goes through the row. -/
def getAll (c : RowCursor) (writes : List (Record → Record)) (st : FetchState) : FetchState :=
  writes.foldl (fun st f => writeThrough f (c.row st).1 (c.row st).2) st

/-- One step for each list of writes; before the step the row is fetched for each of them. -/
def walk (c : RowCursor) : List (List (Record → Record)) → FetchState → RowCursor × FetchState
  | [], st => (c, st)
  | writes :: rest, st =>
    (c.step (c.getAll writes st).world).walk rest (c.getAll writes st)

theorem within_row (c : RowCursor) (st : FetchState) : (c.row st).2.world.Within st.world := by
  rw [row]
  split
  · exact .refl st.world
  · exact World.within_fetchRow _ _ st

theorem within_getAll (c : RowCursor) (writes : List (Record → Record)) (st : FetchState) :
    (c.getAll writes st).world.Within st.world := by
  induction writes generalizing st with
  | nil => exact .refl st.world
  | cons f rest ih =>
      exact (ih _).trans ((within_writeThrough f _ _).trans (within_row c st))

theorem within_walk (c : RowCursor) (visits : List (List (Record → Record))) (st : FetchState) :
    (c.walk visits st).2.world.Within st.world := by
  induction visits generalizing c st with
  | nil => exact .refl st.world
  | cons writes rest ih => exact (ih _ _).trans (within_getAll c writes st)

end RowCursor

/-! ### Cursors of untyped queries -/

/-- One call of an untyped cursor. -/
inductive UntypedUse where
  | next
  | visit (e : Entity)
  | drain
  | write (index : Nat) (field : String) (v : Value)

namespace UntypedUse

def apply (use : UntypedUse) (c : UntypedCursor) (st : FetchState) :
    UntypedCursor × FetchState :=
  match use with
  | .next => c.next st
  | .visit e => (c.visit e st).2
  | .drain => ((c.drain st.world).2, st)
  | .write index field v =>
    match c.accessor? index with
    | some a => (c, { st with world := (a.write st.world field v).2 })
    | none => (c, st)

def run : List UntypedUse → UntypedCursor → FetchState → UntypedCursor × FetchState
  | [], c, st => (c, st)
  | use :: rest, c, st => run rest (use.apply c st).1 (use.apply c st).2

end UntypedUse

namespace UntypedCursor

theorem within_seek (c : UntypedCursor) (st : FetchState) :
    (c.seek st).2.world.Within st.world := by
  rw [seek]
  split
  · exact .refl st.world
  · exact World.within_pointAll _ c.terms st

end UntypedCursor

/-- A write that goes through changes the storage of the component, and any other changes
nothing. -/
theorem Accessor.snd_write (a : Accessor) (w : World) (field : String) (v : Value) :
    (a.write w field v).2 =
      if a.mutable then
        a.target.elim w fun e => w.modifyStorage a.component fun s => (s.writeField e field v).2
      else w := by
  rw [Accessor.write]
  split
  · cases a.target with
    | none => rfl
    | some e =>
        rw [Option.elim_some]
        cases hs : w.storage? a.component with
        | none => exact (World.modifyStorage_of_eq_none hs _).symm
        | some s => exact World.modifyStorage_const hs fun s => (s.writeField e field v).2
  · rfl

theorem Accessor.within_write (a : Accessor) (w : World) (field : String) (v : Value) :
    (a.write w field v).2.Within w := by
  rw [snd_write]
  split
  · cases a.target with
    | none => exact .refl w
    | some e =>
        exact World.within_modifyStorage w a.component fun s _ => s.within_writeField e field v
  · exact .refl w

namespace UntypedUse

theorem within_apply (use : UntypedUse) (c : UntypedCursor) (st : FetchState) :
    (use.apply c st).2.world.Within st.world := by
  cases use with
  | next =>
      show (c.next st).2.world.Within st.world
      rw [UntypedCursor.next]
      split
      · exact .refl st.world
      · exact UntypedCursor.within_seek _ st
      · exact UntypedCursor.within_seek _ st
  | visit e =>
      show (c.visit e st).2.2.world.Within st.world
      rw [UntypedCursor.visit]
      split
      · exact World.within_pointAll e c.terms st
      · exact .refl st.world
  | drain => exact .refl st.world
  | write index field v =>
      cases haccessor : c.accessor? index with
      | some a =>
          simp only [apply, haccessor]
          exact a.within_write st.world field v
      | none =>
          simp only [apply, haccessor]
          exact .refl st.world

theorem within_run (uses : List UntypedUse) (c : UntypedCursor) (st : FetchState) :
    (run uses c st).2.world.Within st.world := by
  induction uses generalizing c st with
  | nil => exact .refl st.world
  | cons use rest ih => exact (ih _ _).trans (within_apply use c st)

end UntypedUse

end EntityStore
