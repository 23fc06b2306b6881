import KindScript.Value

/-!
# Scopes

Nested scopes in an arena, the newest first. A scope is reached by a handle that
names its slot, counted from the oldest one, and its serial number. Serial
numbers are drawn from a counter that all arenas share and that never goes back,
so a handle that was released, or that belongs to another arena, fits no slot
even after the slot is used again. A scope's parent is older than the scope.
-/

namespace KindScript

/-- What a name stands for. -/
structure Variable where
  value : Value
  constant : Bool
deriving DecidableEq

/-! ## Bindings -/

/-- The names of one scope, the oldest first. -/
abbrev Bindings := List (String × Variable)

namespace Bindings

def get? (bindings : Bindings) (name : String) : Option Variable :=
  bindings.lookup name

def contains (bindings : Bindings) (name : String) : Bool :=
  (bindings.get? name).isSome

/-- A new name after the others. -/
def add (bindings : Bindings) (name : String) (v : Variable) : Bindings :=
  bindings ++ [(name, v)]

/-- Another value for a name. -/
def set (bindings : Bindings) (name : String) (value : Value) : Bindings :=
  bindings.map fun (key, old) => if key = name then (key, { old with value }) else (key, old)

def erase (bindings : Bindings) (name : String) : Bindings :=
  bindings.filter fun (key, _) => key ≠ name

end Bindings

/-! ## Arenas -/

namespace Scope

structure Handle where
  index : Nat
  serial : Nat
deriving DecidableEq, Repr

inductive Error where
  | undefined (name : String)
  | alreadyDefined (name : String)
  | constant (name : String)
  | invalidScope
deriving DecidableEq, Repr

def Error.message : Error → String
  | undefined name => "Couldn't find '" ++ name ++ "' in this context"
  | alreadyDefined name => "'" ++ name ++ "' is already defined in this scope"
  | constant name => "Cannot assign to constant '" ++ name ++ "'"
  | invalidScope => "Scope handle was released or belongs to another interpreter"

/-- One scope of an arena. -/
structure Record where
  serial : Nat
  parent : Option Handle
  bindings : Bindings
deriving DecidableEq

end Scope

open Scope

/-- The scopes of one arena, the newest first. -/
abbrev Arena := List Record

namespace Arena

/-- The scope of a handle. The slot of the newest scope is the count of the older ones. -/
def get? : Arena → Handle → Option Record
  | [], _ => none
  | record :: older, h =>
    if h.index = older.length then if record.serial = h.serial then some record else none
    else get? older h

/-- The handle names a scope of this arena. -/
def Valid (arena : Arena) (h : Handle) : Prop :=
  (arena.get? h).isSome

instance (arena : Arena) (h : Handle) : Decidable (arena.Valid h) :=
  inferInstanceAs (Decidable (_ = true))

def record (arena : Arena) (h : Handle) : Except Error Record :=
  match arena.get? h with
  | some record => .ok record
  | none => .error .invalidScope

/-- A new scope in the next free slot. -/
def insert (arena : Arena) (serial : Nat) (parent : Option Handle) : Handle × Arena :=
  (⟨arena.length, serial⟩, ⟨serial, parent, []⟩ :: arena)

/-- A new scope without a parent. -/
def pushRoot (arena : Arena) (serial : Nat) : Handle × Arena :=
  arena.insert serial none

/-- A new scope inside another one. -/
def push (arena : Arena) (serial : Nat) (parent : Handle) : Except Error (Handle × Arena) :=
  (arena.record parent).map fun _ => arena.insert serial (some parent)

/-- Drops a scope and every newer one. -/
def release (arena : Arena) (h : Handle) : Except Error Arena :=
  (arena.record h).map fun _ => arena.drop (arena.length - h.index)

def parent (arena : Arena) (h : Handle) : Except Error (Option Handle) :=
  (arena.record h).map (·.parent)

/-- Whether the scope itself has the name. -/
def contains (arena : Arena) (h : Handle) (name : String) : Except Error Bool :=
  (arena.record h).map (·.bindings.contains name)

/-- Other bindings for the scope in a slot. -/
def setBindings : Arena → Nat → Bindings → Arena
  | [], _, _ => []
  | record :: older, index, bindings =>
    if index = older.length then { record with bindings } :: older
    else record :: setBindings older index bindings

/-- A new name in the scope itself. -/
def define (arena : Arena) (h : Handle) (name : String) (v : Variable) : Except Error Arena :=
  match arena.get? h with
  | none => .error .invalidScope
  | some record =>
    if record.bindings.contains name then .error (.alreadyDefined name)
    else .ok (arena.setBindings h.index (record.bindings.add name v))

/-- The nearest scope that has the name, from the given one outwards, with its handle. -/
def resolve : Arena → Handle → String → Except Error (Handle × Record)
  | [], _, _ => .error .invalidScope
  | record :: older, h, name =>
    if h.index = older.length then
      if record.serial = h.serial then
        if record.bindings.contains name then .ok (h, record)
        else
          match record.parent with
          | none => .error (.undefined name)
          | some outer => resolve older outer name
      else .error .invalidScope
    else resolve older h name

/-- What the name stands for in a scope. -/
def lookup (arena : Arena) (h : Handle) (name : String) : Except Error Variable :=
  match arena.resolve h name with
  | .error e => .error e
  | .ok (_, record) =>
    match record.bindings.get? name with
    | some v => .ok v
    | none => .error (.undefined name)

/-- Gives the name another value in the nearest scope that has it, unless it is a constant. -/
def update (arena : Arena) (h : Handle) (name : String) (value : Value) : Except Error Arena :=
  match arena.resolve h name with
  | .error e => .error e
  | .ok (owner, record) =>
    match record.bindings.get? name with
    | none => .error (.undefined name)
    | some v =>
      if v.constant then .error (.constant name)
      else .ok (arena.setBindings owner.index (record.bindings.set name value))

/-- Removes the name from the nearest scope that has it, and says whether one had. -/
def delete (arena : Arena) (h : Handle) (name : String) : Except Error (Bool × Arena) :=
  match arena.resolve h name with
  | .error (.undefined _) => .ok (false, arena)
  | .error e => .error e
  | .ok (owner, record) =>
    .ok (true, arena.setBindings owner.index (record.bindings.erase name))

end Arena

end KindScript
