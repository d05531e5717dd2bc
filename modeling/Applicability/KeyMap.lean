namespace Applicability

structure KeyMap (α : Type) where
  entries : List (String × α)
  deriving DecidableEq, Repr

namespace KeyMap

variable {α : Type}

def empty : KeyMap α := ⟨[]⟩

instance : Inhabited (KeyMap α) := ⟨empty⟩

def size (m : KeyMap α) : Nat :=
  m.entries.length

def lookup (key : String) : List (String × α) → Option α
  | [] => none
  | (k, v) :: rest => if k = key then some v else lookup key rest

def get? (m : KeyMap α) (key : String) : Option α :=
  lookup key m.entries

def contains (m : KeyMap α) (key : String) : Bool :=
  (m.get? key).isSome

def put (key : String) (value : α) : List (String × α) → List (String × α)
  | [] => [(key, value)]
  | (k, v) :: rest =>
    if k = key then (key, value) :: rest
    else if key < k then (key, value) :: (k, v) :: rest
    else (k, v) :: put key value rest

def insert (m : KeyMap α) (key : String) (value : α) : KeyMap α :=
  ⟨put key value m.entries⟩

def erase (m : KeyMap α) (key : String) : KeyMap α :=
  ⟨m.entries.filter fun e => e.1 != key⟩

def modify (m : KeyMap α) (key : String) (f : α → α) : KeyMap α :=
  ⟨m.entries.map fun e => if e.1 = key then (e.1, f e.2) else e⟩

def insertAll (m : KeyMap α) (pairs : List (String × α)) : KeyMap α :=
  pairs.foldl (fun m e => m.insert e.1 e.2) m

def ofList (pairs : List (String × α)) : KeyMap α :=
  empty.insertAll pairs

def toList (m : KeyMap α) : List (String × α) :=
  m.entries

def isEmpty (m : KeyMap α) : Bool :=
  m.entries.isEmpty

end KeyMap

end Applicability
