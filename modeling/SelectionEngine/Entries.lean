namespace SelectionEngine

/-- Keyed entries in the order in which their keys were first set. -/
abbrev Entries (κ α : Type) := List (κ × α)

namespace Entries

variable {κ α : Type}

def keys (entries : Entries κ α) : List κ := entries.map Prod.fst

def values (entries : Entries κ α) : List α := entries.map Prod.snd

variable [DecidableEq κ]

def get? (key : κ) : Entries κ α → Option α
  | [] => none
  | (k, a) :: rest => if k = key then some a else get? key rest

/-- Sets one entry. A present key keeps its place and a new one
goes to the end. -/
def set (key : κ) (value : α) : Entries κ α → Entries κ α
  | [] => [(key, value)]
  | (k, a) :: rest => if k = key then (key, value) :: rest else (k, a) :: set key value rest

/-- Removes the first entry under `key`, keeping the order of the others. -/
def erase (key : κ) : Entries κ α → Entries κ α
  | [] => []
  | (k, a) :: rest => if k = key then rest else (k, a) :: erase key rest

def contains (entries : Entries κ α) (key : κ) : Bool := (entries.get? key).isSome

/-- Sets every entry of `patch`, in its order. -/
def overwrite (entries patch : Entries κ α) : Entries κ α :=
  patch.foldl (fun result entry => set entry.1 entry.2 result) entries

/-- The entries of a list of pairs in which a later pair replaces an
earlier one of its key. -/
def ofList (pairs : List (κ × α)) : Entries κ α := overwrite [] pairs

/-- Entries whose keys are pairwise distinct. -/
def Distinct (entries : Entries κ α) : Prop := entries.keys.Nodup

instance (entries : Entries κ α) : Decidable entries.Distinct :=
  inferInstanceAs (Decidable entries.keys.Nodup)

end Entries

end SelectionEngine
