/-!
# Entries

Named values in the order in which their names were first written. A name is written once: a new
value for it takes the place of the old one.
-/

namespace Collector

/-- Named values in order. -/
abbrev Entries (α : Type) := List (String × α)

namespace Entries

variable {α β : Type}

/-- The value under a name. -/
def get? : Entries α → String → Option α
  | [], _ => none
  | (name, value) :: rest, key => if name = key then some value else get? rest key

/-- The names in order. -/
def names (entries : Entries α) : List String := entries.map Prod.fst

/-- Whether a name is present. -/
def has (entries : Entries α) (key : String) : Bool := (get? entries key).isSome

/-- Writes a value: in the place of the old one under its name, else at the end. -/
def put : Entries α → String → α → Entries α
  | [], key, value => [(key, value)]
  | (name, old) :: rest, key, value =>
    if name = key then (name, value) :: rest else (name, old) :: put rest key value

/-- Removes a name; the others keep their order. -/
def remove (entries : Entries α) (key : String) : Entries α :=
  entries.filter fun entry => entry.1 != key

/-- Writes all of `additions` in order. -/
def putAll (entries additions : Entries α) : Entries α :=
  additions.foldl (fun acc entry => put acc entry.1 entry.2) entries

/-- Collects a list in which names may repeat: the first place and the last value of each. -/
def ofList (list : List (String × α)) : Entries α := putAll [] list

/-- Changes every value and keeps the names. -/
def mapValues (f : α → β) (entries : Entries α) : Entries β :=
  entries.map fun entry => (entry.1, f entry.2)

end Entries

end Collector
