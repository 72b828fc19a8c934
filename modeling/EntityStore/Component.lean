import EntityStore.Component.Id
import EntityStore.Value.Field

/-!
# Component types

A native component type is declared by its names, its fields and the storage that keeps its
instances.  Two components are the same type when their declarations are equal.

* `FieldDecl`, `StorageKind`, `ComponentType` — the parts of a declaration;
* `ComponentType.storageName` — the diagnostic name of the declared storage.
-/

namespace EntityStore

/-- One field of a component type. -/
structure FieldDecl where
  name : String
  type : FieldType
  /-- Whether the field can be read and written by name. -/
  reflected : Bool := true
deriving DecidableEq, Repr, Inhabited

/-- How the instances of a component are kept. -/
inductive StorageKind where
  | dense
  /-- Any number of instances an entity, or at most `limit`; more are dropped. -/
  | batch (limit : Option Nat)
  | counting (name : String)
  /-- One instance an entity, out of reach of typed access. -/
  | hidden (name : String)
deriving DecidableEq, Repr, Inhabited

/-- Declaration of a native component. -/
structure ComponentType where
  typeName : String
  name : String
  fields : List FieldDecl
  storage : StorageKind := .dense
deriving DecidableEq, Repr, Inhabited

/-- Name of the storage that a component type declares, for diagnostics. -/
def ComponentType.storageName (t : ComponentType) : String :=
  match t.storage with
  | .dense => s!"storage_ecs::storage::DenseVecStorage<{t.typeName}>"
  | .batch none => s!"storage_ecs::storage::BatchStorage<{t.typeName}, usize::MAX>"
  | .batch (some limit) => s!"storage_ecs::storage::BatchStorage<{t.typeName}, {limit}>"
  | .counting name => name
  | .hidden name => name

end EntityStore
