/-!
# Bindings

Names bound to values, in the order in which they were first bound. Binding a name again
replaces its value and keeps its place, so no name is bound twice.

## Main definitions

* `Bindings`: names with their values
* `Bindings.insert`, `Bindings.get?`: binding a name and looking it up
* `Bindings.ofList`: a list of pairs bound one after the other

## Main results

* `Bindings.names_insertPair`: the names after a name is bound
-/

namespace NibbleAsm

/-- Names with their values, in the order of their first binding. -/
@[ext]
structure Bindings (α : Type) where
  toList : List (String × α)
  distinct : (toList.map Prod.fst).Nodup
  deriving Repr

namespace Bindings

variable {α β : Type}

/-- No bindings. -/
def empty : Bindings α := ⟨[], List.nodup_nil⟩

/-- Binds a name in a list of pairs. -/
def insertPair (name : String) (value : α) : List (String × α) → List (String × α)
  | [] => [(name, value)]
  | (n, v) :: rest =>
    if n = name then (name, value) :: rest else (n, v) :: insertPair name value rest

/-- New names come behind the others. -/
theorem names_insertPair (name : String) (value : α) (pairs : List (String × α)) :
    (insertPair name value pairs).map Prod.fst =
      if name ∈ pairs.map Prod.fst then pairs.map Prod.fst else pairs.map Prod.fst ++ [name] := by
  induction pairs with
  | nil => simp [insertPair]
  | cons pair rest ih =>
    obtain ⟨n, v⟩ := pair
    rw [insertPair]
    by_cases h : n = name
    · simp [h]
    · rw [if_neg h, List.map_cons, ih]
      by_cases hmem : name ∈ rest.map Prod.fst <;> simp [hmem, Ne.symm h]

theorem nodup_insertPair (name : String) (value : α) {pairs : List (String × α)}
    (h : (pairs.map Prod.fst).Nodup) : ((insertPair name value pairs).map Prod.fst).Nodup := by
  rw [names_insertPair]
  split
  · exact h
  · next hnew =>
    rw [List.nodup_append]
    refine ⟨h, List.pairwise_singleton _ _, ?_⟩
    rintro n hn _ hmem rfl
    exact hnew (List.mem_singleton.mp hmem ▸ hn)

/-- Binds a name to a value. -/
def insert (b : Bindings α) (name : String) (value : α) : Bindings α :=
  ⟨insertPair name value b.toList, nodup_insertPair name value b.distinct⟩

/-- The value of a name. -/
def get? (b : Bindings α) (name : String) : Option α :=
  b.toList.lookup name

/-- The bound names, in order. -/
def names (b : Bindings α) : List String :=
  b.toList.map Prod.fst

/-- The number of bound names. -/
def size (b : Bindings α) : Nat :=
  b.toList.length

/-- The bindings with every value mapped. -/
def map (f : α → β) (b : Bindings α) : Bindings β where
  toList := b.toList.map fun pair => (pair.1, f pair.2)
  distinct := by
    rw [List.map_map]
    exact b.distinct

/-- The pairs of a list, bound one after the other. -/
def ofList (pairs : List (String × α)) : Bindings α :=
  pairs.foldl (fun b pair => b.insert pair.1 pair.2) empty

end Bindings

end NibbleAsm
