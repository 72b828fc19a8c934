import EntityStore.Component.Id

/-!
# Erased payloads

What a term with several children delivers: nothing, one instance, or all instances of one
component, together with the component, the type of the instances and whether they may be
written.  A cast names a type and gives the target only if type, shape and mode fit.

* `Payload` — the payload, over a type `τ` of type names and a type `ρ` of targets;
* `Payload.one?`, `Payload.oneMut?` — casts to one instance;
* `Payload.all?`, `Payload.allMut?` — casts to all instances.
-/

namespace EntityStore

/-- One-of-many component payload. -/
inductive Payload (τ ρ : Type) where
  | null
  | one (component : ComponentId) (type : τ) (mutable : Bool) (target : ρ)
  | many (component : ComponentId) (type : τ) (mutable : Bool) (target : ρ) (length : Nat)
deriving DecidableEq, Repr, Inhabited

namespace Payload

variable {τ ρ : Type}

def isNull : Payload τ ρ → Bool
  | .null => true
  | .one .. | .many .. => false

def component? : Payload τ ρ → Option ComponentId
  | .null => none
  | .one id .. | .many id .. => some id

def type? : Payload τ ρ → Option τ
  | .null => none
  | .one _ t .. | .many _ t .. => some t

def isWritable : Payload τ ρ → Bool
  | .null => false
  | .one _ _ m _ | .many _ _ m _ _ => m

def isMany : Payload τ ρ → Bool
  | .many .. => true
  | .null | .one .. => false

def length : Payload τ ρ → Nat
  | .null => 0
  | .one .. => 1
  | .many _ _ _ _ n => n

/-- Whether there is no instance behind the payload. -/
def isEmpty (p : Payload τ ρ) : Bool :=
  p.length == 0

variable [DecidableEq τ]

/-- Whether the instances are of the given type, in whatever mode. -/
def hasType (t : τ) (p : Payload τ ρ) : Bool :=
  p.type? == some t

/-- Whether the instances are of the given type and may only be read. -/
def isShared (t : τ) (p : Payload τ ρ) : Bool :=
  p.hasType t && !p.isWritable

/-- Whether the instances are of the given type and may be written. -/
def isExclusive (t : τ) (p : Payload τ ρ) : Bool :=
  p.hasType t && p.isWritable

/-- The single instance, if it is of the given type. -/
def one? (t : τ) : Payload τ ρ → Option ρ
  | .one _ u _ target => if u = t then some target else none
  | .null | .many .. => none

/-- The single instance for writing, if it is of the given type and may be written. -/
def oneMut? (t : τ) (p : Payload τ ρ) : Option ρ :=
  if p.isWritable then p.one? t else none

/-- All instances, if they are of the given type. -/
def all? (t : τ) : Payload τ ρ → Option ρ
  | .many _ u _ target _ => if u = t then some target else none
  | .null | .one .. => none

/-- All instances for writing, if they are of the given type and may be written. -/
def allMut? (t : τ) (p : Payload τ ρ) : Option ρ :=
  if p.isWritable then p.all? t else none

def debugText (p : Payload τ ρ) : String :=
  let component :=
    match p.component? with
    | some id => s!"Some(ComponentId({id.raw}))"
    | none => "None"
  s!"JoinData \x7b component: {component}, mutable: {p.isWritable}, batch: {p.isMany}, " ++
    s!"len: {p.length} \x7d"

end Payload

end EntityStore
