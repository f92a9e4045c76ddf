import NibbleAsm.Proofs.LongString
import NibbleAsm.Proofs.Session

/-!
# Definitions one after the other

A table is asked to define one symbol after another, with values that need not be words. A
definition that fails leaves no trace. All that is left of the others can be told from the list of
definitions: the entry of a name comes from the last definition of it that succeeded, its place from
the first, and a warning is given for every definition that changes a value. The warning says that a
predefined symbol was reassigned only as long as no definition of the name has succeeded: one that
gives a name the value it has anyway is not mentioned, but from then on the name is an ordinary one.

## Main definitions

* `SymbolTable.Assignment`, `SymbolTable.Logged`: a definition, and a table with its log
* `SymbolTable.Logged.record`, `SymbolTable.Logged.recordAll`: definitions that are tried
* `SymbolTable.latest?`: the last definition of a name that succeeds
* `SymbolTable.valueAfter?`, `SymbolTable.warnings`: values and warnings, told from the definitions

## Main results

* `SymbolTable.exists_define_eq_error_iff`: which definitions fail
* `SymbolTable.Logged.symbols_recordAll`: the symbols that definitions leave
* `SymbolTable.Logged.get?_recordAll`: the entry of a name
* `SymbolTable.Logged.log_record`: what one more definition adds to the log
* `SymbolTable.Logged.recordAll_traced`: a table and its log are told from the definitions
-/

namespace NibbleAsm

/-! ## Bindings -/

namespace Bindings

variable {α : Type}

/-- Pairs with different names are bound as they stand. -/
theorem ofList_of_nodup {pairs : List (String × α)} (distinct : (pairs.map Prod.fst).Nodup) :
    ofList pairs = ⟨pairs, distinct⟩ := by
  induction pairs using List.reverseRecOn with
  | nil => rfl
  | append_singleton pairs pair ih =>
    have happend := distinct
    rw [List.map_append, List.nodup_append] at happend
    obtain ⟨hpairs, -, hne⟩ := happend
    -- a name that is not there yet is bound behind the others
    have fresh : pair.1 ∉ (Bindings.mk pairs hpairs).names := by
      intro hmem
      exact hne _ hmem _ (List.mem_singleton_self pair.1) rfl
    rw [ofList_concat, ih hpairs]
    exact Bindings.ext (toList_insert fresh pair.2)

theorem insertAll_ofList (pairs more : List (String × α)) :
    (ofList pairs).insertAll more = ofList (pairs ++ more) := by
  rw [ofList, ofList, insertAll, List.foldl_append]

end Bindings

namespace SymbolTable

/-! ## Definitions -/

/-- A definition of a symbol that is asked for. -/
structure Assignment where
  name : String
  value : Int
  location : Location
  deriving DecidableEq, Repr

/-- The entry that a definition makes. -/
def Assignment.symbol (d : Assignment) : Symbol :=
  ⟨d.value, d.location, false⟩

/-- The entry of a name that is there from the start. -/
def startSymbol (value : Int) : Symbol :=
  ⟨value, .predefined, true⟩

/-- The names of a new table: those that every program has, or none. -/
def startNames (full : Bool) : List (String × Int) :=
  if full then predefinedNames else []

/-- A table, and what has been logged on the way to it. -/
structure Logged where
  table : SymbolTable
  log : List Note

namespace Logged

/-- A new table. -/
def start (full : Bool) : Logged :=
  ⟨if full then predefined else empty, []⟩

/-- A definition is tried: the table and the log are what it leaves behind, also if it fails. -/
def record (s : Logged) (d : Assignment) : Logged :=
  let tried := define d.name d.value d.location s.table
  ⟨tried.1, s.log ++ tried.2.log⟩

/-- Definitions are made one after the other. -/
def recordAll (s : Logged) (ds : List Assignment) : Logged :=
  ds.foldl record s

theorem recordAll_concat (s : Logged) (ds : List Assignment) (d : Assignment) :
    s.recordAll (ds ++ [d]) = (s.recordAll ds).record d := by
  rw [recordAll, List.foldl_append]
  rfl

end Logged

/-! ## What can be told from the definitions -/

/-- The last definition of a name that succeeds. -/
def latest? (ds : List Assignment) (name : String) : Option Assignment :=
  (ds.filter fun d => d.name = name ∧ IsWord d.value).getLast?

/-- The value of a name after definitions: that of the last one that succeeds, or else the value it
has from the start. -/
def valueAfter? (names : List (String × Int)) (ds : List Assignment) (name : String) :
    Option Int :=
  ((latest? ds name).map Assignment.value).or (names.lookup name)

/-- The warning that a definition has changed the value of an earlier one. -/
def redefinedText (d previous : Assignment) : String :=
  "WARNING: " ++ d.location.text ++ ": symbol '" ++ d.name ++ "' redefined (was $" ++
    Text.hex4 previous.value ++ " at " ++ previous.location.text ++ ")"

/-- The warning that a definition has changed a value that was there from the start. -/
def reassignedText (d : Assignment) (old : Int) : String :=
  "WARNING: " ++ d.location.text ++ ": predefined symbol '" ++ d.name ++ "' reassigned from $" ++
    Text.hex4 old ++ " to $" ++ Text.hex4 d.value

theorem text_redefined (d previous : Assignment) :
    (Note.redefined d.location d.name previous.value previous.location).text =
      redefinedText d previous := by
  have hlevel : ("WARNING: " : String) = "WARNING" ++ ": " := rfl
  change "WARNING" ++ ": " ++ (d.location.text ++ ": symbol '" ++ d.name ++ "' redefined (was $" ++
    Text.hex4 previous.value ++ " at " ++ previous.location.text ++ ")") = "WARNING: " ++ _ ++ _ ++
      _ ++ _ ++ _ ++ _ ++ _ ++ _
  rw [hlevel]
  simp only [String.append_assoc]

theorem text_reassigned (d : Assignment) (old : Int) :
    (Note.reassigned d.location d.name old d.value).text = reassignedText d old := by
  have hlevel : ("WARNING: " : String) = "WARNING" ++ ": " := rfl
  change "WARNING" ++ ": " ++ (d.location.text ++ ": predefined symbol '" ++ d.name ++
    "' reassigned from $" ++ Text.hex4 old ++ " to $" ++ Text.hex4 d.value) = "WARNING: " ++ _ ++
      _ ++ _ ++ _ ++ _ ++ _ ++ _
  rw [hlevel]
  simp only [String.append_assoc]

/-- The warning for a definition that is made behind others, if there is one. -/
def warning? (names : List (String × Int)) (ds : List Assignment) (d : Assignment) :
    Option String :=
  if ¬IsWord d.value ∨ (valueAfter? names ds d.name).all (· = d.value) then none
  else
    match latest? ds d.name with
    | some previous => some (redefinedText d previous)
    | none => (names.lookup d.name).map (reassignedText d)

/-- The warnings for definitions that are made one after the other, behind others. -/
def warnings (names : List (String × Int)) (before : List Assignment) :
    List Assignment → List String
  | [] => []
  | d :: ds => (warning? names before d).toList ++ warnings names (before ++ [d]) ds

theorem warnings_concat (names : List (String × Int)) (before ds : List Assignment)
    (d : Assignment) :
    warnings names before (ds ++ [d]) =
      warnings names before ds ++ (warning? names (before ++ ds) d).toList := by
  induction ds generalizing before with
  | nil => simp [warnings]
  | cons first ds ih =>
    rw [List.cons_append, warnings, warnings, ih, List.append_assoc, List.append_assoc,
      List.singleton_append]

/-- A definition is warned about exactly if it succeeds and the name has another value. -/
theorem isSome_warning?_iff {names : List (String × Int)} {ds : List Assignment} {d : Assignment} :
    (warning? names ds d).isSome ↔
      IsWord d.value ∧ ∃ value, valueAfter? names ds d.name = some value ∧ value ≠ d.value := by
  unfold warning? valueAfter?
  by_cases hword : IsWord d.value
  · cases latest? ds d.name with
    | some previous => by_cases h : previous.value = d.value <;> simp [hword, h]
    | none =>
      cases names.lookup d.name with
      | some value => by_cases h : value = d.value <;> simp [hword, h]
      | none => simp
  · simp [hword]

/-! ## One definition -/

section Step

variable {t : SymbolTable} {name : String} {value : Int} {location : Location}

theorem exists_checkValue_eq_error (h : ¬IsWord value) : ∃ f, checkValue name value = .error f := by
  cases hcheck : checkValue name value with
  | error f => exact ⟨f, rfl⟩
  | ok v => exact absurd ((proper_checkValue name value).of_ok hcheck).2 h

/-- **A definition fails exactly if its value is not a word.** -/
theorem exists_define_eq_error_iff :
    (∃ f, (define name value location t).2.result = .error f) ↔ ¬IsWord value := by
  constructor
  · rintro ⟨f, hf⟩ hword
    rw [define_of_ok (checkValue_of_isWord name hword)] at hf
    cases hf
  · intro h
    obtain ⟨f, hf⟩ := exists_checkValue_eq_error h
    exact ⟨f, by rw [define_of_error hf]⟩

end Step

namespace Logged

variable {s : Logged} {d : Assignment}

theorem record_of_isWord (h : IsWord d.value) :
    s.record d = ⟨⟨s.table.symbols.insert d.name d.symbol⟩, s.log ++
      (s.table.get? d.name).elim [] (redefinition · d.name d.value d.location)⟩ := by
  rw [record, define_of_ok (checkValue_of_isWord d.name h)]
  rfl

/-- A definition that fails leaves no trace. -/
theorem record_of_not_isWord (h : ¬IsWord d.value) : s.record d = s := by
  obtain ⟨f, hf⟩ := exists_checkValue_eq_error h
  rw [record, define_of_error hf, List.append_nil]

/-! ## Many definitions -/

/-- **The definitions that succeed are bound one after the other.** -/
theorem symbols_recordAll (s : Logged) (ds : List Assignment) :
    (s.recordAll ds).table.symbols = s.table.symbols.insertAll
      ((ds.filter fun d => IsWord d.value).map fun d => (d.name, d.symbol)) := by
  induction ds generalizing s with
  | nil => rfl
  | cons d ds ih =>
    refine (ih (s.record d)).trans ?_
    by_cases h : IsWord d.value
    · rw [record_of_isWord h, List.filter_cons_of_pos (by simpa using h), List.map_cons,
        Bindings.insertAll_cons]
    · rw [record_of_not_isWord h, List.filter_cons_of_neg (by simpa using h)]

theorem symbols_start (full : Bool) :
    (start full).table.symbols =
      .ofList ((startNames full).map fun pair => (pair.1, startSymbol pair.2)) := by
  cases full with
  | false => rfl
  | true => exact (Bindings.ofList_of_nodup _).symm

end Logged

/-- Looking for a name from the end finds the last definition of it that succeeds. -/
theorem lookup_reverse_definitions (ds : List Assignment) (name : String) :
    ((ds.filter fun d => IsWord d.value).map fun d => (d.name, d.symbol)).reverse.lookup name =
      (latest? ds name).map Assignment.symbol := by
  unfold latest?
  -- the last definition is the one that is looked at first
  induction ds using List.reverseRecOn with
  | nil => rfl
  | append_singleton ds d ih =>
    rw [List.filter_append, List.filter_append, List.map_append, List.reverse_append]
    by_cases hword : IsWord d.value
    · by_cases hname : d.name = name
      · simp [hword, hname]
      · simp only [List.filter_singleton, hword, hname, decide_true, decide_false, false_and,
          cond_true, cond_false, List.map_cons, List.map_nil, List.reverse_singleton,
          List.singleton_append, List.append_nil]
        rw [Bindings.lookup_cons_eq, if_neg (Ne.symm hname), ih]
    · simpa [hword] using ih

namespace Logged

/-- **The entry of a name** is that of the last definition that succeeded, with its location, or
else the one that was there from the start. -/
theorem get?_recordAll (full : Bool) (ds : List Assignment) (name : String) :
    ((start full).recordAll ds).table.get? name = ((latest? ds name).map Assignment.symbol).or
      (((startNames full).lookup name).map startSymbol) := by
  have hstart : (start full).table.symbols.get? name =
      ((startNames full).lookup name).map startSymbol := by
    cases full with
    | false => rfl
    | true => exact Bindings.get?_map startSymbol ⟨predefinedNames, nodup_predefinedNames⟩ name
  rw [SymbolTable.get?, symbols_recordAll, Bindings.get?_insertAll, lookup_reverse_definitions,
    hstart]

theorem get?_recordAll_value (full : Bool) (ds : List Assignment) (name : String) :
    (((start full).recordAll ds).table.get? name).map Symbol.value =
      valueAfter? (startNames full) ds name := by
  rw [get?_recordAll, valueAfter?]
  cases latest? ds name with
  | some d => rfl
  | none => cases (startNames full).lookup name <;> rfl

/-- **Names stand in the order in which they first appear**, those of the start in front. -/
theorem names_recordAll (full : Bool) (ds : List Assignment) :
    ((start full).recordAll ds).table.symbols.names =
      ((startNames full).map Prod.fst ++
        (ds.filter fun d => IsWord d.value).map Assignment.name).eraseDups := by
  rw [symbols_recordAll, symbols_start, Bindings.insertAll_ofList, Bindings.names_ofList,
    List.map_append, List.map_map, List.map_map]
  rfl

/-- **One more definition adds its warning to the log**, if there is one. -/
theorem log_record (full : Bool) (ds : List Assignment) (d : Assignment) :
    (((start full).recordAll ds).record d).log.map Note.text =
      ((start full).recordAll ds).log.map Note.text ++
        (warning? (startNames full) ds d).toList := by
  by_cases hword : IsWord d.value
  · rw [record_of_isWord hword, List.map_append, get?_recordAll, warning?, valueAfter?]
    apply congrArg (((start full).recordAll ds).log.map Note.text ++ ·)
    -- an entry is marked as predefined exactly as long as no definition of the name has succeeded
    cases latest? ds d.name with
    | some previous =>
      by_cases h : previous.value = d.value
      · simp [redefinition, Assignment.symbol, h]
      · simp [redefinition, Assignment.symbol, hword, h, text_redefined]
    | none =>
      cases (startNames full).lookup d.name with
      | none => simp
      | some value =>
        by_cases h : value = d.value
        · simp [redefinition, startSymbol, h]
        · simp [redefinition, startSymbol, hword, h, text_reassigned]
  · simp [record_of_not_isWord hword, warning?, hword]

/-- The log of definitions consists of their warnings. -/
theorem log_recordAll (full : Bool) (ds : List Assignment) :
    ((start full).recordAll ds).log.map Note.text = warnings (startNames full) [] ds := by
  induction ds using List.reverseRecOn with
  | nil => rfl
  | append_singleton ds d ih =>
    rw [recordAll_concat, log_record, ih, warnings_concat, List.nil_append]

theorem lookup_recordAll (full : Bool) (ds : List Assignment) (name : String) :
    ((start full).recordAll ds).table.lookup name =
      (valueAfter? (startNames full) ds name).elim
        (fail (.undefinedSymbol name (((start full).recordAll ds).table.similar name))) .ok := by
  rw [← get?_recordAll_value]
  unfold SymbolTable.lookup
  cases ((start full).recordAll ds).table.get? name <;> rfl

/-- **A table and its log are told from the definitions.** Let a new table, with or without the
names that every program has, be asked for definitions one after the other.

A further definition fails exactly if its value is not a word, and then the table and the log stay
as they are. Looking up a name gives the value of the last definition of it that succeeded, or else
the value it has from the start, or else it is undefined. Every name occurs once, in the order of
first appearance, those of the start in front. The log consists of the warnings for the definitions.
One more definition is warned about exactly if it succeeds and the name has another value; the
warning is about a reassignment if the name is there from the start and no definition of it has
succeeded, and otherwise it gives the last value and its location. -/
theorem recordAll_traced (full : Bool) (ds : List Assignment) (d : Assignment) (name : String) :
    let names := startNames full
    let s := (start full).recordAll ds
    ((∃ f, (define d.name d.value d.location s.table).2.result = .error f) ↔ ¬IsWord d.value) ∧
    (¬IsWord d.value → s.record d = s) ∧
    s.table.lookup name = (valueAfter? names ds name).elim
      (fail (.undefinedSymbol name (s.table.similar name))) .ok ∧
    s.table.symbols.names = (names.map Prod.fst ++
      (ds.filter fun d => IsWord d.value).map Assignment.name).eraseDups ∧
    s.table.symbols.names.Nodup ∧
    s.log.map Note.text = warnings names [] ds ∧
    (s.record d).log.map Note.text = s.log.map Note.text ++ (warning? names ds d).toList ∧
    ((warning? names ds d).isSome ↔ IsWord d.value ∧
      ∃ value, valueAfter? names ds d.name = some value ∧ value ≠ d.value) := by
  intro names s
  exact ⟨exists_define_eq_error_iff, record_of_not_isWord, lookup_recordAll full ds name,
    names_recordAll full ds, ((start full).recordAll ds).table.symbols.distinct,
    log_recordAll full ds, log_record full ds d, isSome_warning?_iff⟩

/-- A predefined symbol that is defined again with its own value becomes an ordinary one without a
warning, as the next one shows. Definitions that fail in between do not matter. -/
theorem recordAll_traced_sound :
    let ds : List Assignment := [⟨"sound", 0xD800, .ofLine "a" 1⟩,
      ⟨"sound", 0x10000, .ofLine "a" 2⟩, ⟨"x", 1, .ofLine "a" 3⟩]
    let s := (start true).recordAll ds
    s.table.lookup "sound" = .ok 0xD800 ∧
    s.record ⟨"sound", -1, .ofLine "a" 4⟩ = s ∧
    (s.record ⟨"sound", 5, .ofLine "a" 5⟩).log.map Note.text =
      ["WARNING: a:5: symbol 'sound' redefined (was $D800 at a:1)"] := by
  intro ds s
  obtain ⟨-, hfailed, hlookup, -⟩ := recordAll_traced true ds ⟨"sound", -1, .ofLine "a" 4⟩ "sound"
  obtain ⟨-, -, -, -, -, hlog, hnext, -⟩ :=
    recordAll_traced true ds ⟨"sound", 5, .ofLine "a" 5⟩ "sound"
  refine ⟨?_, hfailed (by decide), ?_⟩
  · have hvalue : valueAfter? (startNames true) ds "sound" = some 0xD800 := by decide +kernel
    rw [hlookup, hvalue]
    rfl
  · rw [hnext, hlog]
    decide +kernel

end Logged

end SymbolTable

end NibbleAsm
