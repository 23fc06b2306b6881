import KindScript.Scope

/-!
# Many arenas

Several arenas that draw their serial numbers from one counter, and the
operations on one of them. An operation that fails changes nothing.
-/

namespace KindScript

namespace Scope

/-- What can be asked of an arena. -/
inductive Operation where
  | pushRoot
  | push (parent : Handle)
  | release (scope : Handle)
  | parent (scope : Handle)
  | contains (scope : Handle) (name : String)
  | define (scope : Handle) (name : String) (v : Variable)
  | lookup (scope : Handle) (name : String)
  | update (scope : Handle) (name : String) (value : Value)
  | delete (scope : Handle) (name : String)
  | isEmpty
deriving DecidableEq

/-- What an arena answers. -/
inductive Answer where
  | done
  | handle (h : Handle)
  | parent (h : Option Handle)
  | truth (b : Bool)
  | found (v : Variable)
deriving DecidableEq

/-- The operation makes a scope and so takes a serial number. -/
def Operation.makesScope : Operation → Bool
  | pushRoot | push _ => true
  | _ => false

/-- One operation on an arena, with the serial number that a new scope would get. -/
def Operation.run (op : Operation) (serial : Nat) (arena : Arena) :
    Except Error (Answer × Arena) :=
  match op with
  | pushRoot =>
    let (h, arena) := arena.pushRoot serial
    .ok (.handle h, arena)
  | push outer => (arena.push serial outer).map fun (h, arena) => (.handle h, arena)
  | release h => (arena.release h).map fun arena => (.done, arena)
  | parent h => (arena.parent h).map fun outer => (.parent outer, arena)
  | contains h name => (arena.contains h name).map fun b => (.truth b, arena)
  | define h name v => (arena.define h name v).map fun arena => (.done, arena)
  | lookup h name => (arena.lookup h name).map fun v => (.found v, arena)
  | update h name value => (arena.update h name value).map fun arena => (.done, arena)
  | delete h name => (arena.delete h name).map fun (b, arena) => (.truth b, arena)
  | isEmpty => .ok (.truth arena.isEmpty, arena)

/-- Arenas by number, and the next serial number. -/
structure Store where
  arenas : List Arena
  next : Nat

namespace Store

/-- Some empty arenas. -/
def empty (count : Nat) : Store :=
  ⟨List.replicate count [], 0⟩

/-- The arena of a number; one that was never made is empty. -/
def arena (store : Store) (number : Nat) : Arena :=
  store.arenas[number]?.getD []

/-- One operation on one arena. A serial number is taken only by a scope that is made. -/
def run (store : Store) (number : Nat) (op : Operation) : Except Error Answer × Store :=
  match op.run store.next (store.arena number) with
  | .error e => (.error e, store)
  | .ok (answer, arena) =>
    (.ok answer,
      ⟨store.arenas.set number arena, if op.makesScope then store.next + 1 else store.next⟩)

end Store

end Scope

end KindScript
