import EntityStore.BitSet
import EntityStore.Entity

/-!
# Changed flags

Each storage carries the flags of the entities whose component was changed.  While marking is
switched on, marking an entity sets the flag of its slot; a flag stays until it is taken back.

* `ChangeFlags.mark`, `ChangeFlags.unmark`, `ChangeFlags.unmarkAll` — the operations;
* `ChangeFlags.isMarked`, `ChangeFlags.markedCount` — what is flagged;
* `isMarked_mark`, `isMarked_unmark`, `isMarked_unmarkAll` — what is flagged after each operation.

Flags are kept by slot.  Switching marking off keeps what is marked.
-/

namespace EntityStore

/-- The changed flags of one storage. -/
structure ChangeFlags where
  enabled : Bool := false
  marks : BitSet := {}
deriving DecidableEq, Inhabited

namespace ChangeFlags

/-- Switches marking on or off; flags that are set survive. -/
def switch (flags : ChangeFlags) (enabled : Bool) : ChangeFlags :=
  { flags with enabled }

/-- Flags the entity if marking is switched on. -/
def mark (flags : ChangeFlags) (e : Entity) : ChangeFlags :=
  if flags.enabled then { flags with marks := flags.marks.insert e.slot } else flags

def isMarked (flags : ChangeFlags) (e : Entity) : Bool :=
  flags.marks.contains e.slot

def unmark (flags : ChangeFlags) (e : Entity) : ChangeFlags :=
  { flags with marks := flags.marks.erase e.slot }

def unmarkAll (flags : ChangeFlags) : ChangeFlags :=
  { flags with marks := flags.marks.clear }

def markedCount (flags : ChangeFlags) : Nat :=
  flags.marks.size

@[simp] theorem enabled_switch (flags : ChangeFlags) (b : Bool) :
    (flags.switch b).enabled = b := rfl

@[simp] theorem enabled_mark (flags : ChangeFlags) (e : Entity) :
    (flags.mark e).enabled = flags.enabled := by
  unfold mark
  split <;> rfl

theorem mark_of_disabled {flags : ChangeFlags} (h : flags.enabled = false) (e : Entity) :
    flags.mark e = flags := by
  simp only [mark, h, Bool.false_eq_true, if_false]

theorem mark_mark (flags : ChangeFlags) (e : Entity) :
    (flags.mark e).mark e = flags.mark e := by
  cases henabled : flags.enabled with
  | false => rw [mark_of_disabled henabled, mark_of_disabled henabled]
  | true =>
      rw [mark, enabled_mark, henabled, if_pos rfl, mark, henabled, if_pos rfl]
      simp only [BitSet.insert_insert]

theorem isMarked_mark (flags : ChangeFlags) (e e' : Entity) :
    (flags.mark e).isMarked e' =
      (flags.isMarked e' || (flags.enabled && decide (e.slot = e'.slot))) := by
  rw [mark]
  cases henabled : flags.enabled with
  | true => exact BitSet.contains_insert flags.marks e.slot e'.slot
  | false =>
      rw [if_neg Bool.false_ne_true, Bool.false_and, Bool.or_false]

theorem isMarked_unmark (flags : ChangeFlags) (e e' : Entity) :
    (flags.unmark e).isMarked e' = (flags.isMarked e' && !decide (e.slot = e'.slot)) :=
  BitSet.contains_erase flags.marks e.slot e'.slot

theorem isMarked_unmarkAll (flags : ChangeFlags) (e : Entity) :
    flags.unmarkAll.isMarked e = false :=
  flags.marks.contains_clear e.slot

end ChangeFlags

end EntityStore
