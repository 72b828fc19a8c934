import EntityStore.Proofs.Holding
import EntityStore.Proofs.Reachable
import Mathlib.Data.Finset.Card
import Mathlib.Data.Finset.Insert

/-!
# Ledgers: the store as a map

The reference for everything that makes and removes entities and attaches, detaches and writes
their components.  A ledger knows the registered components, the live entities, and what each
entity has of each component; it has no rows, no index, no flags and no slots to run out of step.

* `Ledger` — the reference state;
* `Ledger.attach`, `Ledger.make`, `Ledger.detach` and the like — what is done to it;
* `Ledger.entry?`, `Ledger.instance?` — what is asked of it;
* `Request`, `Answer`, `Request.interpret` — all of this as requests with answers;
* `Ledger.Step`, `Ledger.Run` — one request with an entity to hand out, and a run of requests.
-/

namespace EntityStore

/-- Registered components, live entities, and what each entity has of each component. -/
@[ext]
structure Ledger where
  registry : Registry := {}
  live : Finset Entity := ∅
  entries : Entity → ComponentId → Option Holding := fun _ _ => none

/-- Whether typed access passes the storage by. -/
def StorageKind.isHidden : StorageKind → Bool
  | .hidden _ => true
  | .dense | .batch _ | .counting _ => false

namespace Ledger

/-! ### Operations -/

/-- The position of a native component, which is registered if it is new. -/
def column (l : Ledger) (t : ComponentType) : ComponentId × Ledger :=
  let (id, registry) := l.registry.register t
  (id, { l with registry })

/-- The ledger with one entry replaced. -/
def put (l : Ledger) (e : Entity) (id : ComponentId) (new : Option Holding) : Ledger :=
  { l with entries := fun e' id' => if e = e' ∧ id = id' then new else l.entries e' id' }

def enter (l : Ledger) (e : Entity) : Ledger :=
  { l with live := insert e l.live }

/-- The ledger without an entity and all that it has. -/
def leave (l : Ledger) (e : Entity) : Ledger :=
  { l with
    live := l.live.erase e
    entries := fun e' id => if e = e' then none else l.entries e' id }

/-- Attaches a record to a live entity. -/
def attach (l : Ledger) (e : Entity) (record : Record) : Except StoreError Unit × Ledger :=
  if e ∈ l.live then
    let (id, l) := l.column record.type
    if record.type.storage.isHidden then
      (.error (.storageTypeMismatch record.type.name), l)
    else
      (.ok (), l.put e id (record.type.storage.add record (l.entries e id)))
  else
    (.error .entityNotFound, l)

/-- Attaches a script component described by named values to a live entity. -/
def attachNamed (l : Ledger) (e : Entity) (id : ComponentId) (values : List (String × Value)) :
    Except StoreError Unit × Ledger :=
  if e ∈ l.live then
    match l.registry.entry? id with
    | none => (.error (.componentNotRegistered id), l)
    | some entry =>
      match entry.instantiate values with
      | .ok inst => (.ok (), l.put e id (some (.script inst)))
      | .error err => (.error err, l)
  else
    (.error .entityNotFound, l)

def attachPart (l : Ledger) (e : Entity) : Store.Part → Except StoreError Unit × Ledger
  | .native record => l.attach e record
  | .named id values => l.attachNamed e id values

/-- Attaches parts in order, up to the first that fails. -/
def attachParts (l : Ledger) (e : Entity) : List Store.Part → Except StoreError Unit × Ledger
  | [] => (.ok (), l)
  | part :: rest =>
    match l.attachPart e part with
    | (.ok (), l) => attachParts l e rest
    | (.error err, l) => (.error err, l)

/-- Makes an entity with parts, all or none. -/
def make (l : Ledger) (new : Entity) (parts : List Store.Part) :
    Except StoreError Entity × Ledger :=
  match (l.enter new).attachParts new parts with
  | (.ok (), l') => (.ok new, l')
  | (.error err, l') => (.error err, { l with registry := l'.registry })

/-- Detaches a component.  The answer tells whether the entity had it. -/
def detachAt (l : Ledger) (id : ComponentId) (e : Entity) : Bool × Ledger :=
  ((l.entries e id).isSome, l.put e id none)

/-- Detaches a native component. -/
def detach (l : Ledger) (t : ComponentType) (e : Entity) : Bool × Ledger :=
  (l.column t).2.detachAt (l.column t).1 e

/-- Removes a live entity with all that it has. -/
def despawn (l : Ledger) (e : Entity) : Except StoreError Unit × Ledger :=
  if e ∈ l.live then (.ok (), l.leave e) else (.error .entityNotFound, l)

/-- Changes the first record of a native component and gives the new one. -/
def update (l : Ledger) (t : ComponentType) (e : Entity) (f : Record → Record) :
    Option Record × Ledger :=
  let new := (l.entries e (l.column t).1).map (Holding.writeFirst f)
  (new.bind fun holding => holding.records.head?, (l.column t).2.put e (l.column t).1 new)

def registerSchema (l : Ledger) (schema : Schema) : Except StoreError Unit × Ledger :=
  match l.registry.registerSchema schema with
  | .ok (_, registry) => (.ok (), { l with registry })
  | .error err => (.error err, l)

/-! ### What is asked of a ledger -/

/-- What an entity has of a native component. -/
def entry? (l : Ledger) (t : ComponentType) (e : Entity) : Option Holding :=
  l.entries e (l.column t).1

def holds (l : Ledger) (t : ComponentType) (e : Entity) : Bool :=
  (l.entry? t e).isSome

/-- All records of a native component that an entity has. -/
def records (l : Ledger) (t : ComponentType) (e : Entity) : List Record :=
  (l.entry? t e).elim [] Holding.records

/-- The first instance that an entity has at a position. -/
def instance? (l : Ledger) (id : ComponentId) (e : Entity) : Option Instance :=
  (l.entries e id).bind Holding.first?

end Ledger

/-! ### Requests -/

/-- What can be asked of a store. -/
inductive Request where
  | register (t : ComponentType)
  | registerSchema (schema : Schema)
  | spawnBare
  | spawn (bundle : List Record)
  /-- Makes an entity with parts, one at a time, and completes it or leaves it as it is. -/
  | assemble (parts : List Store.Part) (complete : Bool)
  | attach (e : Entity) (record : Record)
  | attachNamed (e : Entity) (id : ComponentId) (values : List (String × Value))
  | detach (t : ComponentType) (e : Entity)
  | detachAt (id : ComponentId) (e : Entity)
  | despawn (e : Entity)
  | holds (t : ComponentType) (e : Entity)
  | read (t : ComponentType) (e : Entity)
  | update (t : ComponentType) (e : Entity) (f : Record → Record)

/-- What is answered. -/
inductive Answer where
  | done
  | made (e : Entity)
  | detached (found : Bool)
  | held (found : Bool)
  | given (record : Option Record)
  | written (record : Option Record)
  | refused (err : StoreError)
deriving Repr, Inhabited

namespace Answer

def ofUnit : Except StoreError Unit → Answer
  | .ok () => .done
  | .error err => .refused err

def ofEntity : Except StoreError Entity → Answer
  | .ok e => .made e
  | .error err => .refused err

/-- An error, a `false`, or nothing. -/
def isRefusal : Answer → Bool
  | .refused _ | .detached false | .held false | .given none | .written none => true
  | .done | .made _ | .detached true | .held true | .given (some _) | .written (some _) => false

end Answer

namespace Request

/-- What a ledger answers and what is left of it.  If the request makes an entity, it is the given
one. -/
def interpret (r : Request) (new : Entity) (l : Ledger) : Answer × Ledger :=
  match r with
  | .register t => (.done, (l.column t).2)
  | .registerSchema schema => Prod.map Answer.ofUnit id (l.registerSchema schema)
  | .spawnBare => (.made new, l.enter new)
  | .spawn bundle => Prod.map Answer.ofEntity id (l.make new (bundle.map .native))
  | .assemble parts true => Prod.map Answer.ofEntity id (l.make new parts)
  | .assemble parts false => (.made new, ((l.enter new).attachParts new parts).2)
  | .attach e record => Prod.map Answer.ofUnit id (l.attach e record)
  | .attachNamed e i values => Prod.map Answer.ofUnit id (l.attachNamed e i values)
  | .detach t e => Prod.map Answer.detached id (l.detach t e)
  | .detachAt i e => Prod.map Answer.detached id (l.detachAt i e)
  | .despawn e => Prod.map Answer.ofUnit id (l.despawn e)
  | .holds t e => (.held (l.holds t e), (l.column t).2)
  | .read t e => (.given (l.records t e).head?, (l.column t).2)
  | .update t e f => Prod.map Answer.written id (l.update t e f)

/-- Whether the request, with its answer, is about the component of an entity.  A request that
makes an entity is about the entity that it answers. -/
def Concerns (r : Request) (registry : Registry) (a : Answer) (e : Entity) (id : ComponentId) :
    Prop :=
  match r with
  | .register _ | .registerSchema _ | .spawnBare | .holds .. | .read .. => False
  | .spawn _ | .assemble .. => a = .made e
  | .attach e' record => e' = e ∧ registry.position? record.type = some id
  | .attachNamed e' id' _ => e' = e ∧ id' = id
  | .detach t e' => e' = e ∧ registry.position? t = some id
  | .detachAt id' e' => e' = e ∧ id' = id
  | .despawn e' => e' = e
  | .update t e' _ => e' = e ∧ registry.position? t = some id

end Request

namespace Ledger

/-- A ledger answers a request, with an entity to hand out that is not alive and has a slot of its
own. -/
def Step (l : Ledger) (r : Request) (a : Answer) (l' : Ledger) : Prop :=
  ∃ new : Entity, new ∉ l.live ∧ (∀ e ∈ l.live, e.slot ≠ new.slot) ∧
    r.interpret new l = (a, l')

/-- A ledger answers requests, one after the other. -/
inductive Run : Ledger → List Request → List Answer → Ledger → Prop where
  | nil (l : Ledger) : Run l [] [] l
  | cons {l l₁ l₂ : Ledger} {r : Request} {rs : List Request} {a : Answer} {as : List Answer}
    (step : l.Step r a l₁) (rest : Run l₁ rs as l₂) : Run l (r :: rs) (a :: as) l₂

end Ledger

end EntityStore
