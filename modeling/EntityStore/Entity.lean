/-!
# Entities

An entity is nothing but a name: a **slot** and the **generation** of that slot.  A slot is
handed out again after its entity is gone, with the next generation, so a name that was kept too
long does not name the slot's next owner.

* `Entity` — the name, ordered by slot and then by generation;
* `Entity.null` — the name of no entity;
* `Entity.ofParts` — the name behind a slot word and a version word;
* `Entity.text` — the written form, `slot:version`.

A version is always odd while an entity lives in the slot, so it is `2 * generation + 1`; the
generation is a 31-bit number and starts again at zero after its last value.
-/

namespace EntityStore

/-- How often a slot has been vacated, as a 31-bit counter. -/
abbrev Generation := Fin 2147483648

instance Generation.neZero_count : @NeZero Nat Zero.ofOfNat0 2147483648 := ⟨by decide⟩

/-- An entity: a slot and the generation of the slot that it was made in. -/
structure Entity where
  /-- Position in the slot table; also the key of the entity's changed flag. -/
  slot : Nat
  generation : Generation
deriving DecidableEq, Repr

namespace Entity

/-- The slot that no table ever reaches. -/
def nullSlot : Nat := 4294967295

def null : Entity := ⟨nullSlot, 0⟩

instance : Inhabited Entity := ⟨null⟩

/-- Every generation of the null slot counts as null. -/
def isNull (e : Entity) : Bool := e.slot == nullSlot

/-- The odd number that stands for the generation in the written form. -/
def version (e : Entity) : Nat := 2 * e.generation.val + 1

/-- The entity with the low 32 bits of `slot` as its slot and the low 32 bits of `version`, made
odd, as its version. -/
def ofParts (slot version : Nat) : Entity :=
  ⟨slot % 4294967296, Fin.ofNat _ (version % 4294967296 / 2)⟩

theorem ofParts_slot_version (e : Entity) (h : e.slot < 4294967296) :
    ofParts e.slot e.version = e := by
  obtain ⟨slot, generation⟩ := e
  have hg := generation.isLt
  simp only [ofParts, version, Entity.mk.injEq] at h ⊢
  refine ⟨by omega, Fin.ext ?_⟩
  simp only [Fin.val_ofNat]
  omega

/-- Written form: `null`, or slot and version with a colon between them. -/
def text (e : Entity) : String :=
  if e.isNull then "null" else s!"{e.slot}:{e.version}"

/-- Slots are compared first. -/
instance : Ord Entity :=
  ⟨compareLex (compareOn Entity.slot) (compareOn Entity.generation)⟩

instance : Std.TransOrd Entity :=
  inferInstanceAs
    (Std.TransCmp (compareLex (compareOn Entity.slot) (compareOn Entity.generation)))

instance : Std.LawfulEqOrd Entity where
  eq_of_compare {a b} h := by
    have h' : compareLex (compareOn Entity.slot) (compareOn Entity.generation) a b = .eq := h
    simp only [compareLex, compareOn, Ordering.then_eq_eq, Std.compare_eq_iff_eq] at h'
    cases a
    cases b
    simp_all

end Entity

end EntityStore
