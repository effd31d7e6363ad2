/-!
# Entries ordered by key

A keyed list holds its entries in strictly ascending order of their keys, so each key occurs once and
two keyed lists with the same entries are equal. Strings are ordered by code point, which is the order
of their UTF-8 bytes.
-/

namespace CourierDispatch.Keyed

variable {κ α : Type} [LT κ] [DecidableLT κ]

def Sorted (xs : List (κ × α)) : Prop := xs.Pairwise fun a b => a.1 < b.1

instance (xs : List (κ × α)) : Decidable (Sorted xs) :=
  inferInstanceAs (Decidable (xs.Pairwise _))

/-- Puts an entry in its place; an entry with the same key gives way to it. -/
def insert (key : κ) (x : α) : List (κ × α) → List (κ × α)
  | [] => [(key, x)]
  | (k, y) :: rest =>
    if key < k then (key, x) :: (k, y) :: rest
    else if k < key then (k, y) :: insert key x rest
    else (key, x) :: rest

/-- The keyed list of all entries, the later of two with the same key. -/
def ofList (xs : List (κ × α)) : List (κ × α) := xs.foldl (fun m e => insert e.1 e.2 m) []

variable [DecidableEq κ]

def get? (key : κ) (xs : List (κ × α)) : Option α := xs.lookup key

def erase (key : κ) (xs : List (κ × α)) : List (κ × α) := xs.filter (·.1 ≠ key)

end CourierDispatch.Keyed
