import EntityStore.Component.Id

/-!
# Errors

The ways in which an operation of the store can fail, and the name and the text of each.

* `StoreError` — why an operation failed;
* `StoreError.kind`, `StoreError.ofKind?` — the name of a cause, and back;
* `StoreError.message` — the text shown for an error.
-/

namespace EntityStore

/-- Why an operation failed. -/
inductive StoreError where
  | entityNotFound
  | componentNotRegistered (id : ComponentId)
  | duplicateComponent (name : String)
  | invalidQuery (reason : String)
  | conflictingAccess (reason : String)
  | storageTypeMismatch (component : String)
  | unsupportedOperation (reason : String)
  | unknownField (name : String)
  | fieldTypeMismatch (field : String)
  | deserialization (reason : String)
  | tracingInit (reason : String)
deriving DecidableEq, Repr, Inhabited

def StoreError.kind : StoreError → String
  | .entityNotFound => "EntityNotFound"
  | .componentNotRegistered _ => "ComponentNotRegistered"
  | .duplicateComponent _ => "DuplicateComponent"
  | .invalidQuery _ => "InvalidQuery"
  | .conflictingAccess _ => "ConflictingAccess"
  | .storageTypeMismatch _ => "StorageTypeMismatch"
  | .unsupportedOperation _ => "UnsupportedOperation"
  | .unknownField _ => "UnknownField"
  | .fieldTypeMismatch _ => "FieldTypeMismatch"
  | .deserialization _ => "DeserializationError"
  | .tracingInit _ => "TracingInit"

/-- The error with the given name of its cause, about an identifier or a text. -/
def StoreError.ofKind? (kind : String) (id : ComponentId) (text : String) : Option StoreError :=
  [.entityNotFound, .componentNotRegistered id, .duplicateComponent text, .invalidQuery text,
    .conflictingAccess text, .storageTypeMismatch text, .unsupportedOperation text,
    .unknownField text, .fieldTypeMismatch text, .deserialization text, .tracingInit text].find?
    fun err : StoreError => err.kind == kind

def StoreError.message : StoreError → String
  | .entityNotFound => "Entity not found"
  | .componentNotRegistered id => s!"Component {id.text} is not registered"
  | .duplicateComponent name => s!"Component '{name}' is already registered"
  | .invalidQuery reason => s!"Invalid query: {reason}"
  | .conflictingAccess reason => s!"Conflicting query access: {reason}"
  | .storageTypeMismatch component => s!"Storage type mismatch: {component}"
  | .unsupportedOperation reason => s!"Unsupported operation: {reason}"
  | .unknownField name => s!"Unknown field '{name}'"
  | .fieldTypeMismatch field => s!"Value type does not match field '{field}'"
  | .deserialization reason => s!"Deserialization error: {reason}"
  | .tracingInit reason => s!"Tracing init error: {reason}"

end EntityStore
