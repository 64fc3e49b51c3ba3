import Provision.Resource

/-!
# Builder registries

Input:
* builders, each registered for a kind or as the fallback for all other kinds.

Algorithm:
* the builders are kept in the order of their kinds; a later registration for a kind replaces the
  earlier one.

Results:
* `get?` gives the builder of a kind, `require` the builder of a unit or an error; `requireAll`
  passes units that all have builders.
-/

namespace Provision

structure Registry (β : Type) where
  own : List (Kind × β)
  fallback : Option β

namespace Registry

variable {β : Type}

def empty : Registry β := ⟨[], none⟩

/-- Puts a builder at the place of its kind. -/
def insertAt (kind : Kind) (builder : β) : List (Kind × β) → List (Kind × β)
  | [] => [(kind, builder)]
  | (k, b) :: rest =>
    if k = kind then (kind, builder) :: rest
    else if kind.before k then (kind, builder) :: (k, b) :: rest
    else (k, b) :: insertAt kind builder rest

def register (r : Registry β) (kind : Kind) (builder : β) : Registry β :=
  { r with own := insertAt kind builder r.own }

/-- Registers the builder for all kinds without one of their own. -/
def withFallback (r : Registry β) (builder : β) : Registry β := { r with fallback := some builder }

def get? (r : Registry β) (kind : Kind) : Option β :=
  match r.own.find? fun e => e.1 == kind with
  | some e => some e.2
  | none => r.fallback

/-- The builder of a unit, or an error. -/
def require (r : Registry β) (u : Resource) : Except BuildError β :=
  match r.get? u.kind with
  | some b => .ok b
  | none => .error (.builderNotFound u.id u.kind.text)

/-- Refuses units of which one has no builder. -/
def requireAll (r : Registry β) : List Resource → Except BuildError Unit
  | [] => .ok ()
  | u :: rest => do
    let _ ← r.require u
    r.requireAll rest

def contains (r : Registry β) (kind : Kind) : Bool :=
  (r.own.any fun e => e.1 == kind) || r.fallback.isSome

/-- The kinds with a builder of their own, in order. -/
def kinds (r : Registry β) : List Kind := r.own.map (·.1)

/-- The number of kinds with a builder of their own. -/
def size (r : Registry β) : Nat := r.own.length

def isEmpty (r : Registry β) : Bool := r.own.isEmpty && r.fallback.isNone

end Registry
end Provision
