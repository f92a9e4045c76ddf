import NibbleAsm.Proofs.Effect

/-!
# Symbol tables as bindings of words

What a table says about a name is the value of its last definition. Operands see no more of a table
than its names and values, in order: neither where a symbol was defined nor whether it was there
from the start.

A definition checks its value before it notes or binds anything, so one that fails leaves the table
as it was.

## Main definitions

* `Bindings.insertAll`: pairs bound one after the other

## Main results

* `Bindings.get?_insert`, `Bindings.get?_insertAll`: the value of a name after names are bound
* `SymbolTable.values_insert`: binding a symbol binds its value
* `SymbolTable.define_of_ok`, `SymbolTable.define_of_error`: what a definition leaves behind
* `SymbolTable.lookup_eq_ok_iff`: looking up a symbol gives its value
* `SymbolTable.lookup_congr`: tables with the same values are the same scope
-/

namespace NibbleAsm

variable {α β : Type}

/-! ## Limits -/

@[simp] theorem Width.limit_word : Width.word.limit = 0x10000 := rfl

/-! ## Bindings -/

namespace Bindings

theorem lookup_cons_eq (n m : String) (v : α) (rest : List (String × α)) :
    ((m, v) :: rest).lookup n = if n = m then some v else rest.lookup n := by
  rw [List.lookup_cons]
  by_cases h : n = m
  · simp [h]
  · simp [beq_eq_false_iff_ne.mpr h, h]

theorem lookup_insertPair (name n : String) (value : α) (pairs : List (String × α)) :
    (insertPair name value pairs).lookup n = if n = name then some value else pairs.lookup n := by
  induction pairs with
  | nil => rw [insertPair, lookup_cons_eq]
  | cons pair rest ih =>
    obtain ⟨m, v⟩ := pair
    unfold insertPair
    by_cases hm : m = name
    · -- the name is bound here, and its pair is replaced
      subst hm
      rw [if_pos rfl, lookup_cons_eq, lookup_cons_eq]
      split <;> rfl
    · -- the name is bound further behind or nowhere, which this pair does not hide
      rw [if_neg hm, lookup_cons_eq, lookup_cons_eq, ih]
      by_cases hn : n = m
      · subst hn
        simp [hm]
      · simp [hn]

/-- The last value that a name is bound to is its value. -/
theorem get?_insert (b : Bindings α) (name n : String) (value : α) :
    (b.insert name value).get? n = if n = name then some value else b.get? n :=
  lookup_insertPair name n value b.toList

theorem map_insertPair (f : α → β) (name : String) (value : α) (pairs : List (String × α)) :
    (insertPair name value pairs).map (fun pair => (pair.1, f pair.2)) =
      insertPair name (f value) (pairs.map fun pair => (pair.1, f pair.2)) := by
  induction pairs with
  | nil => rfl
  | cons pair rest ih =>
    obtain ⟨m, v⟩ := pair
    simp only [insertPair, List.map_cons]
    split
    · rfl
    · rw [List.map_cons, ih]

theorem map_insert (f : α → β) (b : Bindings α) (name : String) (value : α) :
    (b.insert name value).map f = (b.map f).insert name (f value) :=
  Bindings.ext (map_insertPair f name value b.toList)

theorem get?_map (f : α → β) (b : Bindings α) (name : String) :
    (b.map f).get? name = (b.get? name).map f := by
  change (b.toList.map fun pair => (pair.1, f pair.2)).lookup name = (b.toList.lookup name).map f
  induction b.toList with
  | nil => rfl
  | cons pair rest ih =>
    rw [List.map_cons, List.lookup_cons, List.lookup_cons, ih]
    cases name == pair.1 <;> rfl

theorem names_map (f : α → β) (b : Bindings α) : (b.map f).names = b.names := by
  simp [names, map]

/-- Binding a name adds no value but the one it is bound to. -/
theorem mem_insertPair {name : String} {value : α} {pairs : List (String × α)} {p : String × α}
    (h : p ∈ insertPair name value pairs) : p = (name, value) ∨ p ∈ pairs := by
  induction pairs with
  | nil => exact .inl (List.mem_singleton.mp h)
  | cons pair rest ih =>
    obtain ⟨m, v⟩ := pair
    unfold insertPair at h
    split at h
    · rcases List.mem_cons.mp h with h | h
      · exact .inl h
      · exact .inr (List.mem_cons_of_mem _ h)
    · rcases List.mem_cons.mp h with h | h
      · exact .inr (h ▸ List.mem_cons_self)
      · exact (ih h).imp_right (List.mem_cons_of_mem _)

theorem insertPair_of_not_mem {name : String} {pairs : List (String × α)}
    (fresh : name ∉ pairs.map Prod.fst) (value : α) :
    insertPair name value pairs = pairs ++ [(name, value)] := by
  induction pairs with
  | nil => rfl
  | cons pair rest ih =>
    rw [List.map_cons] at fresh
    obtain ⟨hne, hrest⟩ := List.ne_and_not_mem_of_not_mem_cons fresh
    rw [insertPair, if_neg hne.symm, ih hrest]
    rfl

/-- A name that is bound for the first time comes last. -/
theorem toList_insert {b : Bindings α} {name : String} (fresh : name ∉ b.names) (value : α) :
    (b.insert name value).toList = b.toList ++ [(name, value)] :=
  insertPair_of_not_mem fresh value

/-- A name that is not bound has no value. -/
theorem lookup_eq_none {name : String} {pairs : List (String × α)}
    (h : name ∉ pairs.map Prod.fst) : pairs.lookup name = none := by
  rw [List.lookup_eq_none_iff]
  intro pair hpair
  rw [bne_iff_ne]
  rintro rfl
  exact h (List.mem_map_of_mem hpair)

/-- Binds the names of a list of pairs, one after the other. -/
def insertAll (b : Bindings α) (pairs : List (String × α)) : Bindings α :=
  pairs.foldl (fun b pair => b.insert pair.1 pair.2) b

@[simp] theorem insertAll_cons (b : Bindings α) (pair : String × α) (pairs : List (String × α)) :
    b.insertAll (pair :: pairs) = (b.insert pair.1 pair.2).insertAll pairs := rfl

/-- The last pair with a name gives its value; a name without one keeps its own. -/
theorem get?_insertAll (b : Bindings α) (pairs : List (String × α)) (name : String) :
    (b.insertAll pairs).get? name = (pairs.reverse.lookup name).or (b.get? name) := by
  induction pairs generalizing b with
  | nil => rfl
  | cons pair pairs ih =>
    obtain ⟨n, v⟩ := pair
    -- the first pair comes last when the list is searched from its end
    rw [insertAll_cons, ih, get?_insert, List.reverse_cons, List.lookup_append, lookup_cons_eq]
    cases pairs.reverse.lookup name with
    | some w => rfl
    | none => split <;> rfl

theorem forall_insertAll {P : α → Prop} {b : Bindings α} {pairs : List (String × α)}
    (hb : ∀ p ∈ b.toList, P p.2) (hp : ∀ p ∈ pairs, P p.2) :
    ∀ p ∈ (b.insertAll pairs).toList, P p.2 := by
  induction pairs generalizing b with
  | nil => exact hb
  | cons pair pairs ih =>
    obtain ⟨hpair, hp⟩ := List.forall_mem_cons.mp hp
    refine ih (fun p hmem => ?_) hp
    rcases mem_insertPair hmem with rfl | hmem
    · exact hpair
    · exact hb p hmem

end Bindings

/-! ## Tables -/

namespace SymbolTable

theorem values_insert (t : SymbolTable) (name : String) (symbol : Symbol) :
    SymbolTable.values ⟨t.symbols.insert name symbol⟩ = t.values.insert name symbol.value :=
  Bindings.map_insert Symbol.value t.symbols name symbol

theorem get?_values (t : SymbolTable) (name : String) :
    t.values.get? name = (t.get? name).map Symbol.value :=
  Bindings.get?_map Symbol.value t.symbols name

section Define

variable {t : SymbolTable} {name : String} {value v : Int} {location : Location} {f : Failure}

/-- **A value that passes its check is bound**, and a change of value is noted. -/
theorem define_of_ok (h : checkValue name value = .ok v) :
    define name value location t = (⟨t.symbols.insert name ⟨v, location, false⟩⟩,
      ⟨(t.get? name).elim [] (redefinition · name v location), .ok ()⟩) := by
  unfold define
  rw [h]
  exact congrArg (fun log => (_, (⟨log, .ok ()⟩ : Traced Unit))) (List.append_nil _)

/-- **A definition that fails leaves the table as it was**, and nothing is noted. -/
theorem define_of_error (h : checkValue name value = .error f) :
    define name value location t = (t, ⟨[], .error f⟩) := by
  unfold define
  rw [h]
  exact Effect.bind_of_error rfl

end Define

/-- Looking up a symbol gives its value. -/
theorem lookup_eq_ok_iff {t : SymbolTable} {name : String} {value : Int} :
    t.lookup name = .ok value ↔ t.values.get? name = some value := by
  rw [get?_values]
  unfold lookup
  cases t.get? name with
  | none => simp [fail]
  | some symbol => simp

theorem similar_eq (t : SymbolTable) (name : String) :
    t.similar name = (t.values.names.filter (resembles name)).take 3 := by
  rw [similar, values, Bindings.names_map]

/-- A table is seen through its names and values only. -/
theorem lookup_congr {t u : SymbolTable} (h : t.values = u.values) : t.lookup = u.lookup := by
  funext name
  -- the names that a failure suggests are found among the names of the values
  have hsim : t.similar name = u.similar name := by rw [similar_eq, similar_eq, h]
  have hget : (t.get? name).map Symbol.value = (u.get? name).map Symbol.value := by
    rw [← get?_values, ← get?_values, h]
  unfold lookup
  cases ht : t.get? name with
  | none =>
    rw [ht] at hget
    rw [Option.map_eq_none_iff.mp hget.symm, hsim]
  | some symbol =>
    rw [ht] at hget
    obtain ⟨symbol', hu, hv⟩ := Option.map_eq_some_iff.mp hget.symm
    rw [hu]
    exact congrArg Except.ok hv.symm

end SymbolTable

end NibbleAsm
