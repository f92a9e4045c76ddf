import NibbleAsm.Proofs.Bracketed
import NibbleAsm.Proofs.LongString

/-!
# Data directives are interchangeable

An array, a filled array and single words are read, sized and resolved in different ways, and they
leave different commands. What counts is the list of operands that they put down: if all of these
can be read and there is space for them, the lines leave commands that store the operands and
change nothing else; otherwise the run fails, be it at another line and for another reason. So lines
that put down the same operands can take each other's place in every source. There are limits: the
number of copies is itself an operand, so it is a word and has a limited number of digits, while an
array at address zero may have one element more.

## Main definitions

* `IsElement`: the texts that can stand among the elements of an array
* `arrayText`, `wordText`, `fillText`: the lines that put data down
* `Stores`: commands that store operands
* `PutsDown`: lines that put operands down
* `Program.Same`: programs with the same words and symbols

## Main results

* `putsDown_of_directed`: what a directive has to do in order to put operands down
* `putsDown_array`, `putsDown_words`, `putsDown_fill`: arrays, words and filled arrays
* `assemble_exchange`: lines that put down the same operands take each other's place
* `assemble_data`: an array is made of single words, and a filled array is an array
-/

namespace NibbleAsm

open Layout

/-! ## Texts -/

/-- A text that can stand among the elements of an array. -/
structure IsElement (e : String) : Prop where
  plain : IsPlain e
  inside : ']' ∉ e.toList

instance : DecidablePred IsElement := fun e =>
  decidable_of_iff (IsPlain e ∧ ']' ∉ e.toList)
    ⟨fun ⟨plain, inside⟩ => ⟨plain, inside⟩, fun h => ⟨h.plain, h.inside⟩⟩

/-- The line of an array. -/
def arrayText (es : List String) : String :=
  ".array [" ++ Text.join " " es ++ "]"

/-- The line of a single word. -/
def wordText (e : String) : String :=
  ".word " ++ e

/-- The line of an array that is filled with copies of a value. -/
def fillText (count value : String) : String :=
  ".fill-array " ++ count ++ " " ++ value

theorem arrayText_eq (es : List String) :
    arrayText es = ".array" ++ " " ++ ("[" ++ (Text.join " " es ++ "]")) := by
  have hfront : (".array [" : String) = ".array" ++ " " ++ "[" := rfl
  rw [arrayText, hfront]
  simp only [String.append_assoc]

theorem fillText_eq (count value : String) :
    fillText count value = ".fill-array" ++ " " ++ (count ++ " " ++ value) := by
  have hfront : (".fill-array " : String) = ".fill-array" ++ " " := rfl
  rw [fillText, hfront]
  simp only [String.append_assoc]

theorem isPlain_directives : IsPlain ".array" ∧ IsPlain ".word" ∧ IsPlain ".fill-array" := by
  decide +kernel

/-- The elements of an array in brackets neither start nor end with a blank. -/
theorem isTidy_elements {es : List String} (h : ∀ e ∈ es, IsElement e) :
    IsTidy ("[" ++ (Text.join " " es ++ "]")) where
  nonempty := by simp
  first c hc := by
    rw [String.toList_append] at hc
    cases hc
    decide +kernel
  last c hc := by
    rw [← String.append_assoc, String.toList_append,
      List.getLast?_append_of_ne_nil _ (by decide)] at hc
    cases hc
    decide +kernel
  visible := by
    have hjoin : '#' ∉ (Text.join " " es).toList :=
      Text.not_mem_join (by decide) fun e he => (h e he).plain.visible
    simp [hjoin]

theorem isTidy_arrayText {es : List String} (h : ∀ e ∈ es, IsElement e) : IsTidy (arrayText es) :=
  arrayText_eq es ▸ isPlain_directives.1.isTidy_append (isTidy_elements h)

theorem isTidy_wordText {e : String} (h : IsPlain e) : IsTidy (wordText e) :=
  isPlain_directives.2.1.isTidy_append h.isTidy

theorem isTidy_fillText {count value : String} (hcount : IsPlain count) (hvalue : IsPlain value) :
    IsTidy (fillText count value) :=
  fillText_eq count value ▸
    isPlain_directives.2.2.isTidy_append (hcount.isTidy_append hvalue.isTidy)

/-- The characters of literals. -/
def literalChars : List Char :=
  capitalDigits ++ smallDigits ++ ['_', '+', '-', '%', '$']

theorem Numeral.Spells.mem_literalChars {base : Nat} {cs : List Char} {digits : List Nat}
    (h : Spells base cs digits) : ∀ c ∈ cs, c ∈ literalChars := by
  induction h with
  | nil => exact List.forall_mem_nil _
  | underscore _ ih => exact List.forall_mem_cons.mpr ⟨by decide, ih⟩
  | digit first _ ih =>
    refine List.forall_mem_cons.mpr ⟨?_, ih⟩
    refine List.mem_append_left _ (List.mem_append.mpr ?_)
    exact first.2.imp List.mem_of_getElem? List.mem_of_getElem?

theorem Numeral.Spells.ne_nil {base : Nat} {cs : List Char} {digits : List Nat}
    (h : Spells base cs digits) (nonempty : digits ≠ []) : cs ≠ [] := by
  rintro rfl
  cases h
  exact nonempty rfl

theorem Numeral.IsBody.mem_literalChars {base : Nat} {cs : List Char} {n : Numeral}
    (h : IsBody base cs n) : cs ≠ [] ∧ ∀ c ∈ cs, c ∈ literalChars := by
  cases h with
  | bare spells nonempty => exact ⟨spells.ne_nil nonempty, spells.mem_literalChars⟩
  | plus spells _ =>
    exact ⟨List.cons_ne_nil _ _, List.forall_mem_cons.mpr ⟨by decide, spells.mem_literalChars⟩⟩
  | minus spells _ =>
    exact ⟨List.cons_ne_nil _ _, List.forall_mem_cons.mpr ⟨by decide, spells.mem_literalChars⟩⟩

/-- A numeral is written as one word. -/
theorem Numeral.Writes.isPlain {n : Numeral} {s : String} (h : n.Writes s) : IsPlain s := by
  have hall : (literalChars.all fun c => !Text.isBlank c && c != '#') = true := by decide +kernel
  have hplain {c : Char} (hc : c ∈ literalChars) : Text.isBlank c = false ∧ c ≠ '#' := by
    simpa using List.all_eq_true.mp hall c hc
  have hchars : s.toList ≠ [] ∧ ∀ c ∈ s.toList, c ∈ literalChars := by
    cases h with
    | binary text isBody | hexadecimal text isBody =>
      rw [text]
      exact ⟨List.cons_ne_nil _ _,
        List.forall_mem_cons.mpr ⟨by decide, isBody.mem_literalChars.2⟩⟩
    | decimal isBody => exact isBody.mem_literalChars
  exact ⟨hchars.1, fun c hc => (hplain (hchars.2 c hc)).1,
    fun hc => (hplain (hchars.2 '#' hc)).2 rfl⟩

/-! ## Commands that store operands -/

/-- Commands store operands: in every scope they have rows exactly if all operands have values, and
the words of the rows are these values in order. -/
def Stores (qs : List Placed) (os : List Operand) : Prop :=
  ∀ (scope : Scope) (words : List Int),
    (∃ rows, qs.mapM (Placed.row scope) = .ok rows ∧ rows.flatMap Row.words = words) ↔
      os.mapM (Operand.resolve scope) = .ok words

namespace Stores

variable {qs rs : List Placed} {os os' : List Operand} {line : SourceLine} {n : Nat}

theorem nil : Stores [] [] := by
  intro scope words
  simp only [List.mapM_nil]
  constructor
  · rintro ⟨rows, hrows, rfl⟩
    cases hrows
    rfl
  · intro h
    cases h
    exact ⟨[], rfl, rfl⟩

theorem append (h : Stores qs os) (h' : Stores rs os') : Stores (qs ++ rs) (os ++ os') := by
  intro scope words
  simp only [List.mapM_append, bind_eq_ok]
  constructor
  · rintro ⟨rows, ⟨first, hfirst, second, hsecond, hrows⟩, rfl⟩
    cases hrows
    refine ⟨_, (h scope _).mp ⟨first, hfirst, rfl⟩, _, (h' scope _).mp ⟨second, hsecond, rfl⟩, ?_⟩
    rw [List.flatMap_append]
    rfl
  · rintro ⟨front, hfront, back, hback, hwords⟩
    cases hwords
    obtain ⟨first, hfirst, rfl⟩ := (h scope front).mpr hfront
    obtain ⟨second, hsecond, rfl⟩ := (h' scope back).mpr hback
    exact ⟨first ++ second, ⟨first, hfirst, second, hsecond, rfl⟩, List.flatMap_append⟩

/-- One command whose words are the values of operands. -/
theorem singleton {command : Command}
    (h : ∀ scope, command.words scope = os.mapM (Operand.resolve scope)) :
    Stores [.ofLine line command n] os := by
  intro scope words
  simp only [mapM_eq_ok_iff (f := Placed.row scope)]
  rw [← h scope]
  constructor
  · -- the words of a row are those of the command
    rintro ⟨rows, hrows, rfl⟩
    obtain ⟨row, rest, hrow, hrest, rfl⟩ := List.forall₂_cons_left_iff.mp hrows
    cases hrest
    obtain ⟨words, hwords, -, rfl⟩ := Placed.row_eq_ok_iff.mp hrow
    simpa [Placed.ofLine] using hwords
  · intro hwords
    refine ⟨[_], .cons (Placed.row_eq_ok_iff.mpr ⟨words, hwords, ?_, rfl⟩) .nil, by simp⟩
    exact congrArg Nat.cast (Command.length_words hwords)

theorem values (line : SourceLine) (os : List Operand) (n : Nat) :
    Stores [.ofLine line (.values os) n] os :=
  singleton fun _ => rfl

theorem fill (line : SourceLine) (o : Operand) {k : Nat} (hk : k ≠ 0) (n : Nat) :
    Stores [.ofLine line (.fill k o) n] (List.replicate k o) := by
  refine singleton fun scope => ?_
  rw [mapM_replicate hk]
  change (o.resolve scope >>= fun v => .ok (List.replicate k v)) = _
  cases o.resolve scope <;> rfl

/-- Commands that store the same operands have the same words, or none. -/
theorem follows (h : Stores qs os) (h' : Stores rs os) (scope : Scope) :
    Follows False (fun _ _ => True)
      (fun rows rows' => rows.flatMap Row.words = rows'.flatMap Row.words)
      (qs.mapM (Placed.row scope)) (rs.mapM (Placed.row scope)) := by
  cases hq : qs.mapM (Placed.row scope) with
  | ok rows =>
    obtain ⟨rows', hr, hwords⟩ := (h' scope _).mpr ((h scope _).mp ⟨rows, hq, rfl⟩)
    rw [hr]
    exact .ok hwords.symm
  | error f =>
    cases hr : rs.mapM (Placed.row scope) with
    | error g => exact .error trivial
    | ok rows' =>
      obtain ⟨rows, hq', -⟩ := (h scope _).mpr ((h' scope _).mp ⟨rows', hr, rfl⟩)
      rw [hq] at hq'
      cases hq'

end Stores

/-! ## Lines that put operands down -/

namespace Layout

variable {search : Search} {t u : State} {line : SourceLine} {rest mid : List SourceLine}
  {operands? xs? ys? : Option (List Operand)}

/-- A run from a state puts operands down in front of the lines `rest`. If the operands are there
and there is space for them, the run comes to these lines with commands behind the others that store
the operands, and with the same symbols; otherwise it fails. -/
structure PutsDown (search : Search) (t : State) (rest : List SourceLine)
    (operands? : Option (List Operand)) : Prop where
  stores : ∀ os, operands? = some os → t.index + os.length ≤ addressSpace →
    ∃ vs u qs, Trace search t vs u ∧ u.cursor.pending = rest ∧
      u.symbols.values = t.symbols.values ∧ u.index = t.index + os.length ∧
      u.placed.toList = t.placed.toList ++ qs ∧ Stores qs os
  fails : (∀ os, operands? = some os → addressSpace < t.index + os.length) →
    ∃ e, t.run search = some (.error e)

theorem Trace.append {vs ws : List Visit} {s s' s'' : State} (h : Trace search s vs s')
    (h' : Trace search s' ws s'') : Trace search s (vs ++ ws) s'' := by
  induction h with
  | nil => exact h'
  | cons next done _ ih => exact .cons next done (ih h')

/-- No line puts nothing down. -/
theorem PutsDown.nil (pending : t.cursor.pending = rest) (within : t.index ≤ addressSpace) :
    PutsDown search t rest (some []) where
  stores os hos _ := by
    cases hos
    exact ⟨[], t, [], .nil t, pending, rfl, rfl, (List.append_nil _).symm, .nil⟩
  fails h := absurd (h [] rfl) (Nat.not_lt.mpr within)

/-- Lines behind others put their operands down behind those of the others. -/
theorem PutsDown.trans (h : PutsDown search t mid xs?)
    (h' : ∀ u : State, u.cursor.pending = mid → u.index ≤ addressSpace →
      PutsDown search u rest ys?) :
    PutsDown search t rest (xs?.bind fun xs => ys?.map (xs ++ ·)) where
  stores os hos fits := by
    obtain ⟨xs, hxs, hos⟩ := Option.bind_eq_some_iff.mp hos
    obtain ⟨ys, hys, rfl⟩ := Option.map_eq_some_iff.mp hos
    rw [List.length_append, ← Nat.add_assoc] at fits
    obtain ⟨vs, u, qs, trace, pending, values, index, placed, stores⟩ :=
      h.stores xs hxs (Nat.le_of_add_right_le fits)
    -- what fits behind the first operands is what the others need
    rw [← index] at fits
    obtain ⟨ws, u', rs, trace', pending', values', index', placed', stores'⟩ :=
      (h' u pending (Nat.le_of_add_right_le fits)).stores ys hys fits
    refine ⟨vs ++ ws, u', qs ++ rs, trace.append trace', pending', values'.trans values, ?_, ?_,
      stores.append stores'⟩
    · rw [index', index, List.length_append, Nat.add_assoc]
    · rw [placed', placed, List.append_assoc]
  fails excess := by
    by_cases hfits : ∃ xs, xs? = some xs ∧ t.index + xs.length ≤ addressSpace
    · -- the first lines go through, so it is the others that fail
      obtain ⟨xs, hxs, fits⟩ := hfits
      obtain ⟨vs, u, qs, trace, pending, -, index, -, -⟩ := h.stores xs hxs fits
      rw [trace.run_eq]
      refine (h' u pending (index ▸ fits)).fails fun ys hys => ?_
      have hexcess := excess (xs ++ ys) (by rw [hxs, hys]; rfl)
      rw [List.length_append, ← Nat.add_assoc] at hexcess
      rwa [index]
    · refine h.fails fun xs hxs => ?_
      exact Nat.lt_of_not_le fun fits => hfits ⟨xs, hxs, fits⟩

/-- **What a directive has to do in order to put operands down**: where there is space, it asks for
a command that stores the operands and leaves the state alone, and it asks for no other command. -/
theorem putsDown_of_directed {d : Directive} (pending : t.cursor.pending = line :: rest)
    (named : Directive.ofName? line.keyword = some d)
    (asked : ∀ os, operands? = some os → t.index + os.length ≤ addressSpace → ∀ s : State,
      ∃ command, Directed search line line.operandText s d command s ∧
        command.size = os.length ∧ ∀ n, Stores [.ofLine line command n] os)
    (only : ∀ (s : State) command u, Directed search line line.operandText s d command u →
      ∃ os, operands? = some os ∧ command.size = os.length) :
    PutsDown search t rest operands? where
  stores os hos fits := by
    obtain ⟨command, directed, hsize, stores⟩ :=
      asked os hos fits { t with cursor := ⟨rest, t.cursor.taken + 1⟩ }
    rw [← hsize] at fits ⊢
    obtain ⟨log, hstep⟩ := directed.exists_step named fits
    exact ⟨_, _, _, .cons (State.next?_of_pending pending) hstep (.nil _), rfl, rfl, rfl,
      Array.toList_push .., stores t.index⟩
  fails excess := by
    have hnext := State.next?_of_pending pending
    cases hstep : step search line { t with cursor := ⟨rest, t.cursor.taken + 1⟩ } with
    | error e => exact ⟨e, run_of_step_error hnext hstep⟩
    | ok s' =>
      -- a line that goes through has placed the command inside the address space
      rw [step_of_named named, mapError_eq_ok, bind_eq_ok] at hstep
      obtain ⟨⟨command, u⟩, hdirective, hplace⟩ := hstep
      have directed := (yields_directive search named _).of_ok hdirective
      obtain ⟨os, hos, hsize⟩ := only _ command u directed
      have hle := (State.place_eq_ok hplace).1
      rw [directed.index_eq, hsize] at hle
      exact absurd (excess os hos) (Nat.not_lt.mpr hle)

/-- The operands of texts, if all can be read. -/
def operandsOf? (es : List String) : Option (List Operand) :=
  (es.mapM (Operand.parse .word)).toOption

/-- An array on one line is read at once. -/
theorem readArray_of_elements {es : List String} (h : ∀ e ∈ es, IsElement e) (line : SourceLine)
    (rest : List SourceLine) :
    readArray line (Text.join " " es ++ "]") #[] 0 rest =
      ((es.mapM (Operand.parse .word)).mapError (·.locate line.location (some line.text))).map
        (⟨·, rest, 0⟩) := by
  have hopen : ']' ∉ (Text.join " " es).toList :=
    Text.not_mem_join (by decide) fun e he => (h e he).inside
  have hcloses : ClosesAt (arrayTexts line (Text.join " " es ++ "]") rest) 0 line
      (Text.join " " es) "" :=
    ⟨by simp, by simp [arrayTexts], hopen⟩
  have hwords : Text.words (Text.join " " es) = es :=
    Text.words_join fun e he => ⟨(h e he).plain.nonempty, (h e he).plain.solid⟩
  have htrim : Text.trim "" = "" := rfl
  have hrest : ((arrayTexts line (Text.join " " es ++ "]") rest).drop (0 + 1)).map Prod.fst =
      rest := map_fst_contents rest
  rw [readArray_eq_readTexts, readTexts_of_closesAt hcloses, hcloses.arrayWords_eq, hrest,
    List.take_zero, List.nil_append, wordsOn_cons, hwords, wordsOn, List.flatMap_nil,
    List.append_nil, mapM_operandOn]
  simp only [if_pos htrim]
  cases es.mapM (Operand.parse .word) with
  | error f => rfl
  | ok os => rfl

theorem putsDown_array {es : List String} (h : ∀ e ∈ es, IsElement e)
    (text : line.text = arrayText es) (pending : t.cursor.pending = line :: rest) :
    PutsDown search t rest (operandsOf? es) := by
  rw [arrayText_eq] at text
  obtain ⟨hkeyword, hoperands⟩ :=
    SourceLine.operands_of_text isPlain_directives.1 (isTidy_elements h) text
  have hopened : line.operandText.toList = '[' :: (Text.join " " es ++ "]").toList := by
    rw [hoperands, String.toList_append]
    rfl
  refine putsDown_of_directed (d := .array) pending (by rw [hkeyword]; decide +kernel) ?_ ?_
  · intro os hos _ s
    have hread : readArray line (String.ofList (Text.join " " es ++ "]").toList) #[] 0
        s.cursor.pending = .ok ⟨os, s.cursor.pending, 0⟩ := by
      rw [String.ofList_toList, readArray_of_elements h, toOption_eq_some.mp hos]
      rfl
    exact ⟨.values os, .array hopened hread, rfl, .values line os⟩
  · intro s command u directed
    cases directed with
    | @array text taken opened read =>
      -- the line alone decides what is read, whatever the state is
      rw [hopened] at opened
      cases opened
      rw [String.ofList_toList, readArray_of_elements h] at read
      cases hes : es.mapM (Operand.parse .word) with
      | error f =>
        rw [hes] at read
        cases read
      | ok os =>
        rw [hes] at read
        cases read
        exact ⟨os, by rw [operandsOf?, hes]; rfl, rfl⟩

theorem putsDown_word {e : String} (h : IsPlain e) (text : line.text = wordText e)
    (pending : t.cursor.pending = line :: rest) :
    PutsDown search t rest ((Operand.parse .word e).toOption.map ([·])) := by
  obtain ⟨hkeyword, hoperands⟩ :=
    SourceLine.operands_of_text isPlain_directives.2.1 h.isTidy text
  have hone : oneOperand ".word" line.operandText = .ok e := by
    rw [oneOperand, hoperands, Text.words_of_plain h]
  refine putsDown_of_directed (d := .word) pending (by rw [hkeyword]; decide +kernel) ?_ ?_
  · intro os hos _ s
    obtain ⟨o, ho, rfl⟩ := Option.map_eq_some_iff.mp hos
    exact ⟨.values [o], .word hone (toOption_eq_some.mp ho), rfl, .values line [o]⟩
  · intro s command u directed
    cases directed with
    | @word text o split parsed =>
      cases hone.symm.trans split
      exact ⟨[o], by rw [parsed]; rfl, rfl⟩

/-- **Single words put down one operand each.** -/
theorem putsDown_words {es : List String} (h : ∀ e ∈ es, IsPlain e) (file : String)
    (chain : List String) (n : Nat)
    (pending : t.cursor.pending = numberedFrom file chain n (es.map wordText) ++ rest)
    (within : t.index ≤ addressSpace) : PutsDown search t rest (operandsOf? es) := by
  induction es generalizing t n with
  | nil => exact .nil pending within
  | cons e es ih =>
    obtain ⟨he, hes⟩ := List.forall_mem_cons.mp h
    rw [List.map_cons, numberedFrom_cons, List.cons_append] at pending
    have htext : Text.chomp (wordText e) = wordText e := chomp_of_isTidy (isTidy_wordText he)
    have hword : PutsDown search t _ _ := putsDown_word he htext pending
    have hoperands : operandsOf? (e :: es) = ((Operand.parse .word e).toOption.map ([·])).bind
        fun xs => (operandsOf? es).map (xs ++ ·) := by
      rw [operandsOf?, operandsOf?, List.mapM_cons]
      rcases Operand.parse .word e with f | o
      · rfl
      · rcases es.mapM (Operand.parse .word) with f | os <;> rfl
    rw [hoperands]
    exact hword.trans fun u hu hle => ih hes (n + 1) hu hle

/-- The number of copies is read as a word, and nothing else. -/
theorem parse_count {count : String} {n : Numeral} {counter : Operand}
    (literal : isLiteral count = true) (writes : n.Writes count) (short : ¬n.IsOverlong) :
    Operand.parse .word count = .ok counter ↔
      IsWord n.value ∧ counter = .literal n.value .word := by
  have hparse : Operand.parse .word count =
      (Width.word.check n.value count).map (.literal · .word) := by
    rw [Operand.parse, if_pos literal, Literal.parse_of_writes rfl writes, if_neg short]
  rw [hparse]
  by_cases hword : IsWord n.value
  · rw [Width.check_of_isWord hword]
    simp only [hword, true_and]
    exact ⟨fun h => (Except.ok.inj h).symm, fun h => congrArg Except.ok h.symm⟩
  · cases hcheck : Width.word.check n.value count with
    | error f => simp [hword, Except.map]
    | ok v => exact absurd (Width.check_word_eq_ok_iff.mp hcheck).1 hword

/-- **A filled array puts down copies of one operand**, unless there is one copy more than the
greatest word. -/
theorem putsDown_fill {count value : String} {n : Numeral} (literal : isLiteral count = true)
    (writes : n.Writes count) (short : ¬n.IsOverlong) (pos : 1 ≤ n.value) (h : IsPlain value)
    (full : n.value ≠ 0x10000 ∨ 0 < t.index) (text : line.text = fillText count value)
    (pending : t.cursor.pending = line :: rest) :
    PutsDown search t rest
      ((Operand.parse .word value).toOption.map (List.replicate n.value.toNat)) := by
  have hcopies : n.value.toNat ≠ 0 := by omega
  rw [fillText_eq] at text
  obtain ⟨hkeyword, hoperands⟩ := SourceLine.operands_of_text isPlain_directives.2.2
    (writes.isPlain.isTidy_append h.isTidy) text
  have htwo : twoOperands ".fill-array" line.operandText = .ok (count, value) := by
    rw [twoOperands, hoperands, Text.words_append writes.isPlain, Text.words_of_plain h]
  refine putsDown_of_directed (d := .fillArray) pending (by rw [hkeyword]; decide +kernel) ?_ ?_
  · intro os hos fits s
    obtain ⟨o, ho, rfl⟩ := Option.map_eq_some_iff.mp hos
    -- where there is space, the number of copies is a word
    have hword : IsWord n.value := by
      rw [List.length_replicate, addressSpace] at fits
      unfold IsWord
      omega
    have directed : Directed search line line.operandText s .fillArray (.fill n.value.toNat o) s :=
      .fillArray htwo ((parse_count literal writes short).mpr ⟨hword, rfl⟩) rfl
        (toOption_eq_some.mp ho)
    exact ⟨_, directed, List.length_replicate.symm, .fill line o hcopies⟩
  · intro s command u directed
    cases directed with
    | @fillArray countText valueText counter o k split counted resolved parsed =>
      cases htwo.symm.trans split
      -- the number of copies is a literal, so its value does not depend on symbols
      obtain ⟨-, rfl⟩ := (parse_count literal writes short).mp counted
      cases resolved
      exact ⟨_, by rw [parsed]; rfl, List.length_replicate.symm⟩

end Layout

/-! ## Lines in place of others -/

/-- Programs with the same words and symbols. -/
structure Program.Same (p q : Program) : Prop where
  words : p.words = q.words
  symbols : p.symbols = q.symbols

/-- Commands that store the same operands, between commands that are alike, make programs with the
same words. -/
theorem follows_exchanged {before before' after after' qs rs : List Placed} {os : List Operand}
    {t u : SymbolTable} (htable : t.values = u.values)
    (hbefore : List.Forall₂ Placed.Alike before before') (hq : Stores qs os) (hr : Stores rs os)
    (hafter : List.Forall₂ Placed.Alike after after') :
    Follows False (fun _ _ => True) Program.Same
      (Program.ofLayout ⟨before ++ qs ++ after, t⟩).result
      (Program.ofLayout ⟨before' ++ rs ++ after', u⟩).result := by
  simp only [Program.ofLayout, Traced.bind_result, Traced.ofExcept_result, Traced.notes_result,
    Traced.pure_result, List.mapM_append, bind_assoc, pure_bind]
  rw [← SymbolTable.lookup_congr htable]
  -- both second passes look symbols up in the same way, part by part
  have hrows {qs rs : List Placed} (h : List.Forall₂ Placed.Alike qs rs) :
      Follows False (fun _ _ => True) (List.Forall₂ Row.Alike)
        (qs.mapM (Placed.row t.lookup)) (rs.mapM (Placed.row t.lookup)) :=
    .mapM h fun q r hqr => (follows_row hqr _).mono_error fun _ _ _ => trivial
  refine (hrows hbefore).bind fun rows rows' hfront => ?_
  refine (hq.follows hr _).bind fun more more' hmiddle => ?_
  refine (hrows hafter).bind fun rest rest' hback => ?_
  refine .ok ⟨?_, htable⟩
  simp only [List.flatMap_append, flatMap_words_congr hfront, hmiddle, flatMap_words_congr hback]

namespace Assembler

variable {a : Assembler} {fs : FileSystem} {src : Source} {file : String}
  {P S texts texts' : List String} {visits : List Visit} {s : State}

/-- An assembly of lines that have been read. -/
theorem assemble_of_read {texts : List String} {symbols : SymbolTable}
    (read : src.read fs = .ok (file, texts))
    (defined : ((defineAll a.defines.toList).exec .predefined).result = .ok symbols) :
    (a.assemble fs src).result =
      (build ⟨fs, a.directories⟩ ⟨numberedFrom file [file] 0 texts, 0⟩ symbols).result >>=
        fun layout => (Program.ofLayout layout).result := by
  rw [assemble_result, read]
  refine (assembleLines_result ..).trans ?_
  rw [defined, splice_empty]
  rfl

/-- **Lines that put down the same operands take each other's place.** -/
theorem assemble_exchange (operands? : Option (List Operand))
    (read : src.read fs = .ok (file, P ++ texts ++ S))
    (first : FirstPass a fs (.lines file P) visits s) (done : s.cursor.pending = [])
    (puts : ∀ (t : State) rest, t.cursor.pending = numberedFrom file [file] P.length texts ++ rest →
      t.index = s.index → PutsDown ⟨fs, a.directories⟩ t rest operands?)
    (puts' : ∀ (t : State) rest,
      t.cursor.pending = numberedFrom file [file] P.length texts' ++ rest →
      t.index = s.index → PutsDown ⟨fs, a.directories⟩ t rest operands?) :
    OutcomeRel (fun _ _ => True) Program.Same (a.assemble fs src).result
      (a.assemble fs (.lines file (P ++ texts' ++ S))).result := by
  obtain ⟨hread, defined, trace⟩ := first
  cases hread
  rw [splice_empty] at trace
  -- both runs handle the lines `P` alike, and then each comes to its own lines
  obtain ⟨vs, t, htrace, hpending, hvalues, hindex, hplaced⟩ := trace.exists_behind done
    (numberedFrom file [file] P.length texts ++
      numberedFrom file [file] (texts.length + P.length) S)
  obtain ⟨vs', u, htrace', hpending', hvalues', hindex', hplaced'⟩ := trace.exists_behind done
    (numberedFrom file [file] P.length texts' ++
      numberedFrom file [file] (texts'.length + P.length) S)
  have hputs := puts t _ hpending hindex.symm
  have hputs' := puts' u _ hpending' hindex'.symm
  rw [assemble_of_read read defined, assemble_of_read rfl defined, List.append_assoc,
    List.append_assoc, numberedFrom_append, numberedFrom_append, numberedFrom_append,
    numberedFrom_append, Nat.add_zero]
  by_cases hfits : ∃ os, operands? = some os ∧ s.index + os.length ≤ addressSpace
  · obtain ⟨os, hos, fits⟩ := hfits
    obtain ⟨ws, t', qs, trace₁, pending₁, values₁, index₁, placed₁, stores₁⟩ :=
      hputs.stores os hos (hindex ▸ fits)
    obtain ⟨ws', u', rs, trace₂, pending₂, values₂, index₂, placed₂, stores₂⟩ :=
      hputs'.stores os hos (hindex' ▸ fits)
    -- behind their own lines, the states are alike but for the commands that store the operands
    have hlines : LinesAlike [] (t'.cursor.pending ++ []) (u'.cursor.pending ++ []) := by
      rw [pending₁, pending₂]
      exact linesAlike_numberedFrom .nil (fun text _ i j => ⟨rfl, .inl ⟨rfl, rfl⟩⟩) _ _
    rw [List.append_nil, List.append_nil] at hlines
    have halike : State.Alike [] t'.placed.toList u'.placed.toList t' u' := by
      refine ⟨hlines, ?_, ?_, [], [], (List.append_nil _).symm, (List.append_nil _).symm, .nil⟩
      · rw [values₁, values₂, ← hvalues, hvalues']
      · rw [index₁, index₂, ← hindex, hindex']
    have hrun : Option.Rel (OutcomeRel Halt.Alike (State.Alike [] t'.placed.toList
        u'.placed.toList)) (t'.run ⟨fs, a.directories⟩) (u'.run ⟨fs, a.directories⟩) :=
      run_rel lockstep_alike halike
    rw [← (htrace.append trace₁).run_eq, ← (htrace'.append trace₂).run_eq] at hrun
    refine (((follows_build hrun).mono_error fun _ _ _ => trivial).bind
      fun k k' hk => ?_).outcomeRel not_false
    obtain ⟨v, v', h, rfl, rfl⟩ := hk
    obtain ⟨more, more', hmore, hmore', hafter⟩ := h.placed
    rw [hmore, hmore', placed₁, placed₂]
    exact follows_exchanged h.values (forall₂_common hplaced hplaced') stores₁ stores₂ hafter
  · -- the operands cannot be read or do not fit, and both runs fail
    have excess : ∀ os, operands? = some os → addressSpace < s.index + os.length := by
      intro os hos
      exact Nat.lt_of_not_le fun fits => hfits ⟨os, hos, fits⟩
    obtain ⟨e, he⟩ := hputs.fails (hindex ▸ excess)
    obtain ⟨e', he'⟩ := hputs'.fails (hindex' ▸ excess)
    rw [← htrace.run_eq] at he
    rw [← htrace'.run_eq] at he'
    simp only [build, he, he']
    exact .error trivial

/-! ## Limits -/

section Limits

variable {symbols : SymbolTable} {os : List Operand} {words : List Int}

/-- Lines that put down operands with known values make a program of them. -/
theorem exists_assemble_of_putsDown
    (defined : ((defineAll a.defines.toList).exec .predefined).result = .ok symbols)
    (puts : PutsDown ⟨fs, a.directories⟩ (.start ⟨numberedFrom file [file] 0 texts, 0⟩ symbols) []
      (some os)) (fits : os.length ≤ addressSpace)
    (hwords : ∀ scope, os.mapM (Operand.resolve scope) = .ok words) :
    ∃ p, (a.assemble fs (.lines file texts)).result = .ok p ∧ p.words = words := by
  obtain ⟨vs, u, qs, trace, done, -, -, placed, stores⟩ :=
    puts.stores os rfl ((Nat.zero_add _).trans_le fits)
  obtain ⟨rows, hrows, hflat⟩ := (stores u.symbols.lookup words).mpr (hwords _)
  have first : FirstPass a fs (.lines file texts) vs u :=
    ⟨rfl, defined, (splice_empty file texts).symm ▸ trace⟩
  have hplaced : u.placed.toList = qs := placed.trans (List.nil_append qs)
  refine ⟨⟨words, u.symbols.values, rows⟩, assemble_eq_ok first done ⟨?_, hflat.symm, rfl⟩, rfl⟩
  rw [hplaced]
  exact mapM_eq_ok_iff.mp hrows

theorem exists_assemble_zeros {k : Nat} (hk : k ≠ 0) (fits : k ≤ addressSpace) :
    ∃ p, ((new [] .empty).assemble fs (.lines file [arrayText (List.replicate k "0")])).result =
      .ok p ∧ p.words = List.replicate k 0 := by
  have hzero : IsElement "0" := by decide +kernel
  have hparse : Operand.parse .word "0" = .ok (.literal 0 .word) :=
    Operand.parse_decimal (by decide : IsWord 0)
  have hcopies : ∀ e ∈ List.replicate k "0", IsElement e := by
    intro e he
    rw [List.eq_of_mem_replicate he]
    exact hzero
  have hoperands : operandsOf? (List.replicate k "0") =
      some (List.replicate k (.literal 0 .word)) := by
    rw [operandsOf?, mapM_replicate hk, hparse]
    rfl
  have hvalues (scope : Scope) : (List.replicate k (Operand.literal 0 .word)).mapM
      (Operand.resolve scope) = .ok (List.replicate k 0) := by
    rw [mapM_replicate hk]
    rfl
  refine exists_assemble_of_putsDown rfl ?_ (List.length_replicate.trans_le fits) hvalues
  rw [← hoperands, numberedFrom_cons]
  refine putsDown_array hcopies ?_ rfl
  exact chomp_of_isTidy (isTidy_arrayText hcopies)

/-- A filled array fails if its number of copies has too many digits. -/
theorem exists_error_of_overlong {count value : String}
    (digits : ∀ c ∈ count.toList, c.isDigit = true) (long : maxDecimalDigits < count.toList.length)
    (h : IsPlain value) :
    ∃ f, ((new [] .empty).assemble fs (.lines file [fillText count value])).result = .error f := by
  have hcount : IsPlain count := by
    refine ⟨List.ne_nil_of_length_pos (Nat.zero_lt_of_lt long), ?_, ?_⟩
    · intro c hc
      exact (digit_facts (digits c hc)).1
    · intro hsign
      exact absurd (digits _ hsign) (by decide)
  let line : SourceLine := ⟨file, 1, Text.chomp (fillText count value), [file]⟩
  have htext : line.text = ".fill-array" ++ " " ++ (count ++ " " ++ value) :=
    (chomp_of_isTidy (isTidy_fillText hcount h)).trans (fillText_eq count value)
  obtain ⟨hkeyword, hoperands⟩ := SourceLine.operands_of_text isPlain_directives.2.2
    (hcount.isTidy_append h.isTidy) htext
  -- the line asks for no command, since the number is read before all else
  have hnone (s : State) (command : Command) (u : State) :
      ¬Directed ⟨fs, []⟩ line line.operandText s .fillArray command u := by
    intro directed
    cases directed with
    | fillArray split counted _ _ =>
      rw [twoOperands, hoperands, Text.words_append hcount, Text.words_of_plain h] at split
      cases split
      rw [Operand.parse_of_overlong digits long] at counted
      cases counted
  have puts : PutsDown ⟨fs, []⟩ (.start ⟨[line], 0⟩ .predefined) [] none := by
    refine putsDown_of_directed (d := .fillArray) rfl (by rw [hkeyword]; decide +kernel) ?_ ?_
    · intro os hos
      cases hos
    · intro s command u directed
      exact absurd directed (hnone s command u)
  obtain ⟨e, he⟩ := puts.fails (by intro os hos; cases hos)
  refine ⟨e.failure, ?_⟩
  rw [assemble_of_read (a := new [] .empty) rfl rfl, numberedFrom_cons]
  change (build ⟨fs, []⟩ ⟨[line], 0⟩ .predefined).result >>= _ = _
  simp only [build, he]
  rfl

end Limits

/-! ## Data -/

/-- **Data directives are interchangeable.** Let a source have a line behind lines `P` that a first
pass handles alone. If the line is an array, the source is assembled like the one with a single word
for each element in its place. If the line is an array that is filled with at least one copy of a
value, the source is assembled like the one with an array of these copies in its place; but the
number of copies is a literal that does not have too many digits, and it is not 65536 at address
zero. In both cases both sources succeed, with the same words and symbols, or both fail. -/
theorem assemble_data (first : FirstPass a fs (.lines file P) visits s)
    (done : s.cursor.pending = []) :
    (∀ es, (∀ e ∈ es, IsElement e) → src.read fs = .ok (file, P ++ [arrayText es] ++ S) →
      OutcomeRel (fun _ _ => True) Program.Same (a.assemble fs src).result
        (a.assemble fs (.lines file (P ++ es.map wordText ++ S))).result) ∧
    ∀ (count value : String) (n : Numeral), isLiteral count = true → n.Writes count →
      ¬n.IsOverlong → 1 ≤ n.value → (n.value ≠ 0x10000 ∨ 0 < s.index) → IsElement value →
      src.read fs = .ok (file, P ++ [fillText count value] ++ S) →
      OutcomeRel (fun _ _ => True) Program.Same (a.assemble fs src).result
        (a.assemble fs (.lines file
          (P ++ [arrayText (List.replicate n.value.toNat value)] ++ S))).result := by
  have within := first.sound.within
  have hline {text : String} {t : State} {rest : List SourceLine}
      (pending : t.cursor.pending = numberedFrom file [file] P.length [text] ++ rest) :
      t.cursor.pending = ⟨file, P.length + 1, Text.chomp text, [file]⟩ :: rest := by
    rw [pending, numberedFrom_cons]
    rfl
  constructor
  · intro es hes read
    refine assemble_exchange (operandsOf? es) read first done (fun t rest pending _ => ?_)
      fun t rest pending hindex => ?_
    · refine putsDown_array hes ?_ (hline pending)
      exact chomp_of_isTidy (isTidy_arrayText hes)
    · exact putsDown_words (fun e he => (hes e he).plain) file [file] P.length pending
        (hindex ▸ within)
  · intro count value n literal writes short pos full hvalue read
    have hcopies : ∀ e ∈ List.replicate n.value.toNat value, IsElement e := by
      intro e he
      rw [List.eq_of_mem_replicate he]
      exact hvalue
    -- as many copies of the value are read as the same number of copies of its operand
    have hoperands : operandsOf? (List.replicate n.value.toNat value) =
        (Operand.parse .word value).toOption.map (List.replicate n.value.toNat) := by
      rw [operandsOf?, mapM_replicate (by omega)]
      cases Operand.parse .word value <;> rfl
    refine assemble_exchange (operandsOf? (List.replicate n.value.toNat value)) read first done
      (fun t rest pending hindex => ?_) fun t rest pending _ => ?_
    · have hfull : n.value ≠ 0x10000 ∨ 0 < t.index := by
        rw [hindex]
        exact full
      rw [hoperands]
      refine putsDown_fill literal writes short pos hvalue.plain hfull ?_ (hline pending)
      exact chomp_of_isTidy (isTidy_fillText writes.isPlain hvalue.plain)
    · refine putsDown_array hcopies ?_ (hline pending)
      exact chomp_of_isTidy (isTidy_arrayText hcopies)

/-- An array and a filled array between a label and a forward reference. -/
theorem assemble_data_forward :
    let a := new [] .empty
    let files := FileSystem.empty []
    let P := ["(a)", ".word 7"]
    let S := [".word end", "(end)"]
    let es := ["a", "end", "$FF"]
    (∃ p q, (a.assemble files (.lines inputName (P ++ [arrayText es] ++ S))).result = .ok p ∧
      (a.assemble files (.lines inputName (P ++ es.map wordText ++ S))).result = .ok q ∧
      p.words = [7, 0, 5, 0xFF, 5] ∧ p.Same q) ∧
    ∃ p q, (a.assemble files (.lines inputName (P ++ [fillText "2" "end"] ++ S))).result = .ok p ∧
      (a.assemble files (.lines inputName (P ++ [arrayText ["end", "end"]] ++ S))).result = .ok q ∧
      p.words = [7, 4, 4, 4] ∧ p.Same q := by
  intro a files P S es
  have hfirst : (a.layOutFor files 3 inputName P).isSome = true := by decide +kernel
  have harray : (a.assembleFor files 6 inputName (P ++ [arrayText es] ++ S)).map Program.words =
      some [7, 0, 5, 0xFF, 5] := by decide +kernel
  have hfill : (a.assembleFor files 6 inputName (P ++ [fillText "2" "end"] ++ S)).map
      Program.words = some [7, 4, 4, 4] := by decide +kernel
  obtain ⟨s, hs⟩ := Option.isSome_iff_exists.mp hfirst
  obtain ⟨visits, first, done⟩ := exists_firstPass_of_layOutFor hs
  have htwo : IsWord 2 := by decide
  obtain ⟨n, writes, short, hvalue⟩ := Numeral.writes_decimal htwo
  constructor
  · obtain ⟨p, hp, hwords⟩ := Option.map_eq_some_iff.mp harray
    have hok := assemble_eq_ok_of_assembleFor hp
    have read : (Source.lines inputName (P ++ [arrayText es] ++ S)).read files =
        .ok (inputName, P ++ [arrayText es] ++ S) := rfl
    have hrel := (assemble_data first done).1 es (by decide +kernel) read
    rw [hok] at hrel
    generalize (a.assemble files (.lines inputName (P ++ es.map wordText ++ S))).result =
      result at hrel ⊢
    cases hrel with
    | ok h => exact ⟨p, _, hok, rfl, hwords, h⟩
  · obtain ⟨p, hp, hwords⟩ := Option.map_eq_some_iff.mp hfill
    have hok := assemble_eq_ok_of_assembleFor hp
    have read : (Source.lines inputName (P ++ [fillText "2" "end"] ++ S)).read files =
        .ok (inputName, P ++ [fillText "2" "end"] ++ S) := rfl
    have hrel := (assemble_data first done).2 "2" "end" n (by decide +kernel) writes short
      (by rw [hvalue]; decide) (.inl (by rw [hvalue]; decide)) (by decide +kernel) read
    have hcopies : List.replicate n.value.toNat "end" = ["end", "end"] := by rw [hvalue]; rfl
    rw [hok, hcopies] at hrel
    generalize (a.assemble files (.lines inputName (P ++ [arrayText ["end", "end"]] ++ S))).result =
      result at hrel ⊢
    cases hrel with
    | ok h => exact ⟨p, _, hok, rfl, hwords, h⟩

/-- **The limits are there.** One copy more than the greatest word and a number of copies with too
many digits fail, though the arrays of these copies do not. A closing bracket can be part of a value
that is copied, but not of an element; and an element that is empty puts nothing down. -/
theorem assemble_data_limits :
    let assembled (lines : List String) :=
      ((new [] .empty).assemble (.empty []) (.lines inputName lines)).result
    let one := String.ofList (List.replicate 4300 '0' ++ ['1'])
    ((∃ f, assembled [fillText "65536" "0"] = .error f) ∧
      ∃ p, assembled [arrayText (List.replicate 0x10000 "0")] = .ok p) ∧
    ((∃ f, assembled [fillText one "0"] = .error f) ∧
      ∃ p, assembled [arrayText (List.replicate 1 "0")] = .ok p) ∧
    ((∃ p, assembled [".set a] 5", fillText "1" "a]"] = .ok p) ∧
      ∃ f, assembled [".set a] 5", arrayText (List.replicate 1 "a]")] = .error f) ∧
    ((∃ p, assembled [arrayText [""]] = .ok p) ∧ ∃ f, assembled [wordText ""] = .error f) := by
  intro assembled one
  have hfails {lines : List String} {n : Nat}
      (h : ((new [] .empty).failureFor (.empty []) (.lines inputName lines) n).isSome = true) :
      ∃ f, assembled lines = .error f := by
    obtain ⟨f, hf⟩ := Option.isSome_iff_exists.mp h
    exact ⟨f, assemble_eq_error_of_failureFor hf⟩
  have hsucceeds {lines : List String} {n : Nat}
      (h : ((new [] .empty).assembleFor (.empty []) n inputName lines).isSome = true) :
      ∃ p, assembled lines = .ok p := by
    obtain ⟨p, hp⟩ := Option.isSome_iff_exists.mp h
    exact ⟨p, assemble_eq_ok_of_assembleFor hp⟩
  have hzeros {k : Nat} (hk : k ≠ 0) (fits : k ≤ addressSpace) :
      ∃ p, assembled [arrayText (List.replicate k "0")] = .ok p := by
    obtain ⟨p, hp, -⟩ := exists_assemble_zeros hk fits
    exact ⟨p, hp⟩
  have hone : one.toList = List.replicate 4300 '0' ++ ['1'] := String.toList_ofList
  refine ⟨⟨hfails (n := 2) (by decide +kernel), hzeros (by decide) (Nat.le_refl _)⟩,
    ⟨exists_error_of_overlong ?_ ?_ (by decide +kernel), hzeros (by decide) (by decide)⟩,
    ⟨hsucceeds (n := 3) (by decide +kernel), hfails (n := 3) (by decide +kernel)⟩,
    ⟨hsucceeds (n := 2) (by decide +kernel), hfails (n := 2) (by decide +kernel)⟩⟩
  · intro c hc
    rw [hone] at hc
    rcases List.mem_append.mp hc with hc | hc
    · rw [List.eq_of_mem_replicate hc]
      decide
    · rw [List.mem_singleton.mp hc]
      decide
  · rw [hone, List.length_append, List.length_replicate, maxDecimalDigits]
    decide

end Assembler

end NibbleAsm
