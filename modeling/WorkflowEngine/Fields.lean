/-!
# Fields in key order

Entries under distinct keys, kept in ascending order of the keys. Keys are compared code point by
code point, which is also the order of their UTF-8 bytes.
-/

namespace WorkflowEngine

/-- Entries in ascending order of their keys. -/
abbrev Fields (α : Type) := List (String × α)

namespace Fields

variable {α β : Type}

/-- Stores a value under a key, in place of one that is there already. -/
def insert (key : String) (value : α) : Fields α → Fields α
  | [] => [(key, value)]
  | (k, v) :: rest =>
    if key < k then (key, value) :: (k, v) :: rest
    else if key = k then (key, value) :: rest
    else (k, v) :: insert key value rest

def erase (key : String) (fields : Fields α) : Fields α :=
  fields.filter fun entry => entry.1 != key

def find? (key : String) : Fields α → Option α
  | [] => none
  | (k, v) :: rest => if k = key then some v else find? key rest

def has (key : String) (fields : Fields α) : Bool := (fields.find? key).isSome

def keys (fields : Fields α) : List String := fields.map Prod.fst

/-- Entries put in one after the other, so that of equal keys the last one stays. -/
def ofList (entries : List (String × α)) : Fields α :=
  entries.foldl (fun fields entry => fields.insert entry.1 entry.2) []

/-- Keys in strictly ascending order. -/
def Sorted (fields : Fields α) : Prop := fields.Pairwise fun a b => a.1 < b.1

end Fields

end WorkflowEngine
