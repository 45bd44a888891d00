import ShapeCheck.Value.Key

/-
  Registries of named items. Items are kept in order of registration under distinct keys, and once
  a registry is frozen it can no longer be changed. A change of a frozen registry is refused before
  its key is looked at.
-/

namespace ShapeCheck

structure Registry (α : Type) where
  name : String
  items : Assoc Value α := []
  frozen : Bool := false

/-- Why a registry refuses a request. -/
inductive RegistryError where
  | frozen (key : Value)
  /-- the key is taken and may not be overwritten -/
  | taken (key : Value)
  /-- nothing to remove under the key -/
  | absent (key : Value)
  /-- nothing to be had under the key; these keys are there -/
  | notFound (key : Value) (available : List Value)
  /-- a container was given as a key -/
  | notKey

namespace Registry

variable {α : Type}

def find? (r : Registry α) (key : Value) : Option α := r.items.get? key

def keys (r : Registry α) : List Value := r.items.keys

def size (r : Registry α) : Nat := r.items.length

def freeze (r : Registry α) : Registry α := { r with frozen := true }

def register (r : Registry α) (key : Value) (item : α) (overwrite : Bool) :
    Except RegistryError (Registry α) :=
  if r.frozen then .error (.frozen key)
  else if !key.isKey then .error .notKey
  else if !overwrite && r.items.contains key then .error (.taken key)
  else .ok { r with items := r.items.insert key item }

def unregister (r : Registry α) (key : Value) : Except RegistryError (Registry α × α) :=
  if r.frozen then .error (.frozen key)
  else if !key.isKey then .error .notKey
  else match r.find? key with
    | none => .error (.absent key)
    | some item => .ok ({ r with items := r.items.erase key }, item)

def get (r : Registry α) (key : Value) : Except RegistryError α :=
  if !key.isKey then .error .notKey
  else match r.find? key with
    | none => .error (.notFound key r.keys)
    | some item => .ok item

def getOptional (r : Registry α) (key : Value) : Except RegistryError (Option α) :=
  if !key.isKey then .error .notKey else .ok (r.find? key)

def has (r : Registry α) (key : Value) : Except RegistryError Bool :=
  if !key.isKey then .error .notKey else .ok (r.items.contains key)

/-- The registry with its items replaced by their images. -/
def map {β : Type} (f : α → β) (r : Registry α) : Registry β :=
  { r with items := r.items.map fun (k, a) => (k, f a) }

end Registry

end ShapeCheck
