/-!
A registry keeps values under keys and lists them in the order in which they were registered. The
first value of a key stays.
-/

namespace TradeFlow

/-- Values under distinct keys, oldest first. -/
structure Registry (κ : Type) (α : Type) where
  entries : List (κ × α)

namespace Registry

variable {κ α : Type} [BEq κ]

def empty : Registry κ α := ⟨[]⟩

/-- The value of a key. -/
def get? (r : Registry κ α) (key : κ) : Option α := r.entries.lookup key

def contains (r : Registry κ α) (key : κ) : Bool := (r.get? key).isSome

/-- Adds a value at the end; nothing is added under a key that is taken. -/
def insertIfNew? (r : Registry κ α) (key : κ) (value : α) : Option (Registry κ α) :=
  if r.contains key then none else some ⟨r.entries ++ [(key, value)]⟩

def keys (r : Registry κ α) : List κ := r.entries.map (·.1)

def values (r : Registry κ α) : List α := r.entries.map (·.2)

end Registry

namespace Registry

/-- Why a value was not registered. -/
def duplicateMessage (key : String) : String := "duplicate registry key: " ++ key

/-- Why a key has no value. -/
def missingMessage (key : String) : String := "key not found: " ++ key

end Registry

end TradeFlow
