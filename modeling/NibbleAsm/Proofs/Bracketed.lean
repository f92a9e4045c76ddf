import NibbleAsm.Proofs.Constants
import Mathlib.Data.List.DropRight

/-!
# Arrays over several lines

An array is read line by line: the words of a line become operands before it is known whether the
array is closed there. This comes to the same as reading all words up to the first closing bracket
at once, in order, and then looking at what stands behind the bracket. So the lines of an array are
the lines up to its bracket, its elements are the words on them, and a word that is no operand is
reported at its own line, also if the array is not closed.

## Main definitions

* `arrayTexts`: the texts on which an array may be written, each with its line
* `ClosesAt`: where the first closing bracket is
* `arrayWords`: the words up to the first closing bracket, each with its line
* `readTexts`: the reading of an array as a recursion on its texts

## Main results

* `readArray_eq_readTexts`: an array is read from its texts
* `readTexts_of_closesAt`, `readTexts_of_open`: all words are read before the bracket counts
* `directive_array`: what an array takes, what its elements are, and how it fails
-/

namespace NibbleAsm

open Layout

/-! ## The words of an array -/

/-- The texts on which an array may be written, each with its line: what is left of the line that
opens it, and the contents of the lines behind. -/
def arrayTexts (line : SourceLine) (text : String) (pending : List SourceLine) :
    List (SourceLine × String) :=
  (line, text) :: pending.map fun l => (l, l.content)

/-- The first closing bracket is in the text number `k`, which is on the line `l`. In this text,
`own` is before the bracket and `after` is behind it. -/
structure ClosesAt (texts : List (SourceLine × String)) (k : Nat) (l : SourceLine)
    (own after : String) : Prop where
  opened : ∀ p ∈ texts.take k, ']' ∉ p.2.toList
  closed : texts[k]? = some (l, own ++ "]" ++ after)
  first : ']' ∉ own.toList

/-- The texts up to the first closing bracket, or all texts if there is none. -/
def upToBracket : List (SourceLine × String) → List (SourceLine × String)
  | [] => []
  | (l, text) :: rest =>
    (l, Text.before ']' text) :: if ']' ∈ text.toList then [] else upToBracket rest

/-- The words of texts in their order, each with its line. -/
def wordsOn (texts : List (SourceLine × String)) : List (SourceLine × String) :=
  texts.flatMap fun p => (Text.words p.2).map (p.1, ·)

/-- The words up to the first closing bracket, each with its line. -/
def arrayWords (texts : List (SourceLine × String)) : List (SourceLine × String) :=
  wordsOn (upToBracket texts)

namespace Text

theorem cutAt_of_not_mem {mark : Char} {s : String} (h : mark ∉ s.toList) :
    cutAt mark s = (s, none) := by
  have hrest : s.toList.dropWhile (· ≠ mark) = [] := by
    rw [List.dropWhile_eq_nil_iff]
    intro c hc
    exact decide_eq_true fun hmark => h (hmark ▸ hc)
  rw [cutAt, before_of_not_mem h, hrest]

/-- A text is cut at the first occurrence of a character. -/
theorem cutAt_of_first {mark : Char} {s own after : String} (h : mark ∉ own.toList)
    (hs : s.toList = own.toList ++ mark :: after.toList) : cutAt mark s = (own, some after) := by
  have hown : ∀ c ∈ own.toList, decide (c ≠ mark) = true := by
    intro c hc
    exact decide_eq_true fun hmark => h (hmark ▸ hc)
  rw [cutAt, before_of_first h hs, hs, List.dropWhile_append_of_pos hown,
    List.dropWhile_cons_of_neg (by simp)]
  simp

theorem trim_eq_empty_iff {s : String} : trim s = "" ↔ ∀ c ∈ s.toList, isBlank c = true := by
  rw [← String.toList_inj, trim, String.toList_ofList, String.toList_empty, dropTail_eq_nil_iff,
    ← List.dropWhile_eq_nil_iff, List.dropWhile_idempotent, List.dropWhile_eq_nil_iff]

end Text

/-! ## Reading all texts at once -/

/-- The operand that a word on a line denotes. A failure is placed at the line. -/
def operandOn (p : SourceLine × String) : Except Failure Operand :=
  (Operand.parse .word p.2).mapError (·.locate p.1.location (some p.1.text))

/-- The elements of an array, up to the closing bracket, and the lines behind those of the array. -/
def readTexts (elements : Array Operand) (count : Nat) :
    List (SourceLine × String) → Except Failure (Taken (List Operand))
  | [] => fail .arrayNotClosed
  | (l, text) :: rest =>
    match arrayLine elements text with
    | .error f => .error (f.locate l.location (some l.text))
    | .ok (elements, true) => .ok ⟨elements.toList, rest.map Prod.fst, count⟩
    | .ok (elements, false) => readTexts elements (count + 1) rest

theorem map_fst_contents (pending : List SourceLine) :
    (pending.map fun l => (l, l.content)).map Prod.fst = pending := by
  simp [Function.comp_def]

/-- **An array is read from its texts.** -/
theorem readArray_eq_readTexts (line : SourceLine) (text : String) (elements : Array Operand)
    (count : Nat) (pending : List SourceLine) :
    readArray line text elements count pending =
      readTexts elements count (arrayTexts line text pending) := by
  induction pending generalizing line text elements count with
  | nil =>
    unfold readArray arrayTexts readTexts
    rcases arrayLine elements text with f | ⟨more, _ | _⟩ <;> rfl
  | cons next rest ih =>
    unfold readArray arrayTexts readTexts
    rcases arrayLine elements text with f | ⟨more, _ | _⟩
    · rfl
    · exact ih next next.content more (count + 1)
    · dsimp only
      rw [map_fst_contents]

section Texts

variable {texts rest : List (SourceLine × String)} {l : SourceLine} {text own after : String}
  {k : Nat}

theorem wordsOn_cons (p : SourceLine × String) (texts : List (SourceLine × String)) :
    wordsOn (p :: texts) = (Text.words p.2).map (p.1, ·) ++ wordsOn texts :=
  List.flatMap_cons

/-- The words of one line become operands on this line. -/
theorem mapM_operandOn (l : SourceLine) (ws : List String) :
    (ws.map (l, ·)).mapM operandOn =
      (ws.mapM (Operand.parse .word)).mapError (·.locate l.location (some l.text)) := by
  induction ws with
  | nil => rfl
  | cons w ws ih =>
    rw [List.map_cons, List.mapM_cons, List.mapM_cons, ih, operandOn]
    rcases Operand.parse .word w with f | o
    · rfl
    · rcases ws.mapM (Operand.parse .word) with f | os <;> rfl

/-- A text without a bracket has only words, and the array goes on behind it. -/
theorem readTexts_cons_of_open (h : ']' ∉ text.toList) (elements : Array Operand) (count : Nat) :
    readTexts elements count ((l, text) :: rest) =
      ((Text.words text).map (l, ·)).mapM operandOn >>= fun more =>
        readTexts (elements ++ more) (count + 1) rest := by
  rw [mapM_operandOn, readTexts, arrayLine, Text.cutAt_of_not_mem h]
  dsimp only
  rcases (Text.words text).mapM (Operand.parse .word) with f | more <;> rfl

/-- In a text with a bracket, the words before it are read, and then what is behind it counts. -/
theorem readTexts_cons_of_closed (h : ']' ∉ own.toList) (elements : Array Operand) (count : Nat) :
    readTexts elements count ((l, own ++ "]" ++ after) :: rest) =
      ((Text.words own).map (l, ·)).mapM operandOn >>= fun more =>
        if Text.trim after = "" then .ok ⟨elements.toList ++ more, rest.map Prod.fst, count⟩
        else .error (.error ⟨.textAfterArray (Text.trim after), some l.location, none,
          some l.text⟩) := by
  have hcut : Text.cutAt ']' (own ++ "]" ++ after) = (own, some after) :=
    Text.cutAt_of_first h (by simp)
  rw [mapM_operandOn, readTexts, arrayLine, hcut]
  dsimp only
  rcases (Text.words own).mapM (Operand.parse .word) with f | more
  · rfl
  · dsimp only [Except.mapError, bind, Except.bind]
    by_cases hblank : Text.trim after = ""
    · simp [hblank]
    · rw [if_neg hblank, if_neg hblank]
      rfl

theorem upToBracket_cons_of_open (h : ']' ∉ text.toList) :
    upToBracket ((l, text) :: rest) = (l, text) :: upToBracket rest := by
  rw [upToBracket, Text.before_of_not_mem h, if_neg h]

theorem upToBracket_cons_of_closed (h : ']' ∉ own.toList) :
    upToBracket ((l, own ++ "]" ++ after) :: rest) = [(l, own)] := by
  have htext : (own ++ "]" ++ after).toList = own.toList ++ ']' :: after.toList := by simp
  rw [upToBracket, if_pos (by simp), Text.before_of_first h htext]

theorem upToBracket_of_open (h : ∀ p ∈ texts, ']' ∉ p.2.toList) : upToBracket texts = texts := by
  induction texts with
  | nil => rfl
  | cons p texts ih =>
    obtain ⟨hp, htexts⟩ := List.forall_mem_cons.mp h
    rw [upToBracket_cons_of_open hp, ih htexts]

/-- Some of the texts of an array without a bracket have some of its words. -/
theorem arrayWords_subset_of_open {part : List (SourceLine × String)}
    (h : ∀ p ∈ texts, ']' ∉ p.2.toList) (hpart : part ⊆ texts) :
    arrayWords part ⊆ arrayWords texts := by
  intro p hp
  have hopened : ∀ q ∈ part, ']' ∉ q.2.toList := fun q hq => h q (hpart hq)
  rw [arrayWords, upToBracket_of_open hopened] at hp
  rw [arrayWords, upToBracket_of_open h]
  obtain ⟨q, hq, hp⟩ := List.mem_flatMap.mp hp
  exact List.mem_flatMap.mpr ⟨q, hpart hq, hp⟩

/-- A closing bracket is somewhere in the texts, or nowhere. -/
theorem closesAt_or_open (texts : List (SourceLine × String)) :
    (∃ k l own after, ClosesAt texts k l own after) ∨ ∀ p ∈ texts, ']' ∉ p.2.toList := by
  induction texts with
  | nil => exact .inr (List.forall_mem_nil _)
  | cons p texts ih =>
    by_cases hp : ']' ∈ p.2.toList
    · -- the first text has a bracket, and the first one of them divides it
      obtain ⟨own, after, htext, hown⟩ := List.eq_append_cons_of_mem hp
      have hp : p = (p.1, String.ofList own ++ "]" ++ String.ofList after) :=
        Prod.ext rfl (String.toList_inj.mp (by simp [htext]))
      refine .inl ⟨0, p.1, String.ofList own, String.ofList after, by simp, ?_, by simpa using hown⟩
      rw [List.getElem?_cons_zero, ← hp]
    · rcases ih with ⟨k, l, own, after, h⟩ | h
      · refine .inl ⟨k + 1, l, own, after, ?_, h.closed, h.first⟩
        rw [List.take_succ_cons]
        exact List.forall_mem_cons.mpr ⟨hp, h.opened⟩
      · exact .inr (List.forall_mem_cons.mpr ⟨hp, h⟩)

/-- The texts up to a bracket are those before its text, and its own text up to it. -/
theorem ClosesAt.upToBracket_eq (h : ClosesAt texts k l own after) :
    upToBracket texts = texts.take k ++ [(l, own)] := by
  obtain ⟨opened, closed, first⟩ := h
  induction texts generalizing k with
  | nil => cases closed
  | cons p texts ih =>
    cases k with
    | zero =>
      cases closed
      exact upToBracket_cons_of_closed first
    | succ k =>
      rw [List.take_succ_cons] at opened ⊢
      obtain ⟨hp, hopened⟩ := List.forall_mem_cons.mp opened
      rw [upToBracket_cons_of_open hp, ih hopened closed]
      rfl

/-- **All words up to the bracket are read, and then what is behind it counts.** -/
theorem readTexts_of_closesAt (h : ClosesAt texts k l own after) (elements : Array Operand)
    (count : Nat) :
    readTexts elements count texts =
      (arrayWords texts).mapM operandOn >>= fun operands =>
        if Text.trim after = "" then
          .ok ⟨elements.toList ++ operands, (texts.drop (k + 1)).map Prod.fst, count + k⟩
        else .error (.error ⟨.textAfterArray (Text.trim after), some l.location, none,
          some l.text⟩) := by
  obtain ⟨opened, closed, first⟩ := h
  -- on the texts, of which those before the bracket add their words
  induction texts generalizing k elements count with
  | nil => cases closed
  | cons p texts ih =>
    cases k with
    | zero =>
      cases closed
      rw [arrayWords, upToBracket_cons_of_closed first, readTexts_cons_of_closed first]
      simp [wordsOn]
    | succ k =>
      rw [List.take_succ_cons] at opened
      obtain ⟨hp, hopened⟩ := List.forall_mem_cons.mp opened
      rw [readTexts_cons_of_open hp, arrayWords, upToBracket_cons_of_open hp, wordsOn_cons,
        List.mapM_append]
      simp only [ih _ _ hopened closed, arrayWords, bind_assoc, pure_bind, List.drop_succ_cons,
        Array.toList_appendList, List.append_assoc, Nat.add_assoc, Nat.add_comm 1]

/-- **All words are read, and then the array is found to be open.** -/
theorem readTexts_of_open (h : ∀ p ∈ texts, ']' ∉ p.2.toList) (elements : Array Operand)
    (count : Nat) :
    readTexts elements count texts =
      (arrayWords texts).mapM operandOn >>= fun _ => fail .arrayNotClosed := by
  induction texts generalizing elements count with
  | nil => rfl
  | cons p texts ih =>
    obtain ⟨hp, htexts⟩ := List.forall_mem_cons.mp h
    rw [readTexts_cons_of_open hp, arrayWords, upToBracket_cons_of_open hp, wordsOn_cons,
      List.mapM_append]
    simp only [ih htexts, arrayWords, bind_assoc, pure_bind]

theorem ClosesAt.arrayWords_eq (h : ClosesAt texts k l own after) :
    arrayWords texts = wordsOn (texts.take k ++ [(l, own)]) := by
  rw [arrayWords, h.upToBracket_eq]

/-- Words that all are operands are read one after the other. -/
theorem mapM_operandOn_of_forall₂ {ws : List (SourceLine × String)} {operands : List Operand}
    (h : List.Forall₂ (fun p o => Operand.parse .word p.2 = .ok o) ws operands) :
    ws.mapM operandOn = .ok operands := by
  apply mapM_eq_ok_iff.mpr
  apply h.imp
  intro p o ho
  rw [operandOn, ho]
  rfl

theorem exists_forall₂_of_operands {ws : List (SourceLine × String)}
    (h : ∀ p ∈ ws, ∃ o, Operand.parse .word p.2 = .ok o) :
    ∃ operands, List.Forall₂ (fun p o => Operand.parse .word p.2 = .ok o) ws operands := by
  induction ws with
  | nil => exact ⟨[], .nil⟩
  | cons p ws ih =>
    obtain ⟨⟨o, ho⟩, hws⟩ := List.forall_mem_cons.mp h
    obtain ⟨operands, hoperands⟩ := ih hws
    exact ⟨o :: operands, .cons ho hoperands⟩

/-- The first word that is no operand decides how the array fails, whether it is closed or not. -/
theorem readTexts_of_bad {before behind : List (SourceLine × String)} {w : String} {f : Failure}
    (words : arrayWords texts = before ++ (l, w) :: behind)
    (sound : ∀ p ∈ before, ∃ o, Operand.parse .word p.2 = .ok o)
    (failed : Operand.parse .word w = .error f) (elements : Array Operand) (count : Nat) :
    readTexts elements count texts = .error (f.locate l.location (some l.text)) := by
  have hwords : (arrayWords texts).mapM operandOn = .error (f.locate l.location (some l.text)) := by
    rw [words]
    apply mapM_of_first_error
    · intro p hp
      obtain ⟨o, ho⟩ := sound p hp
      exact ⟨o, by rw [operandOn, ho]; rfl⟩
    · rw [operandOn, failed]
      rfl
  rcases closesAt_or_open texts with ⟨k, l', own, after, h⟩ | h
  · rw [readTexts_of_closesAt h, hwords]
    rfl
  · rw [readTexts_of_open h, hwords]
    rfl

end Texts

/-- A word that is no operand has a cause to be reported, unless it has too many digits. -/
theorem Operand.exists_cause_of_parse {word : String} {f : Failure}
    (failed : Operand.parse .word word = .error f)
    (short : ∀ n : Numeral, n.Writes word → ¬n.IsOverlong) : ∃ cause, f = .ofCause cause := by
  have hcause : ∀ cause, (fail cause : Except Failure Int).map (literal · .word) = .error f →
      ∃ cause, f = .ofCause cause := by
    intro cause h
    cases h
    exact ⟨cause, rfl⟩
  unfold Operand.parse at failed
  split at failed
  · by_cases hwrites : ∃ n : Numeral, n.Writes word
    · obtain ⟨n, hn⟩ := hwrites
      rw [Literal.parse_of_writes (by decide) hn, if_neg (short n hn),
        Width.check_of_isSupported (by decide)] at failed
      split_ifs at failed
      · exact hcause _ failed
      · cases failed
      · exact hcause _ failed
    · rw [Literal.parse_of_not_writes (by decide) hwrites] at failed
      exact hcause _ failed
  · cases failed

/-- A long row of digits is a literal, but not one that is read. -/
theorem Operand.parse_of_overlong {word : String} (digits : ∀ c ∈ word.toList, c.isDigit = true)
    (long : maxDecimalDigits < word.toList.length) :
    Operand.parse .word word = .error (.fault (.numeralTooLong word.toList.length)) := by
  obtain ⟨c, cs, hcs⟩ := List.exists_cons_of_length_pos (Nat.zero_lt_of_lt long)
  have hliteral : NibbleAsm.isLiteral word = true := by
    simp [NibbleAsm.isLiteral, hcs, (digit_facts (digits c (hcs ▸ List.mem_cons_self))).2.1]
  have hwrites : Numeral.Writes ⟨10, false, word.toList.map fun c => c.toNat - '0'.toNat⟩ word :=
    .decimal (.bare (Numeral.spells_of_digits digits) (by simp [hcs]))
  rw [Operand.parse, if_pos hliteral, Literal.parse_of_writes (by decide) hwrites,
    if_pos ⟨rfl, by rwa [List.length_map]⟩, List.length_map]
  rfl

/-! ## Arrays in a source -/

namespace Layout

theorem directive_eq_readTexts (search : Search) (line : SourceLine) (text : String) (s : State) :
    directive search line .array ("[" ++ text) s =
      (s.lift (readTexts #[] 0 (arrayTexts line text s.cursor.pending))).map fun taken =>
        (.values taken.value, s.take taken) := by
  have hargs : ("[" ++ text).toList = '[' :: text.toList := by simp
  unfold directive
  dsimp only
  rw [hargs]
  change (s.lift (readArray line (String.ofList text.toList) #[] 0 s.cursor.pending) >>= _) = _
  rw [String.ofList_toList, readArray_eq_readTexts]
  rcases readTexts #[] 0 (arrayTexts line text s.cursor.pending) with f | taken <;> rfl

/-- An array fails with its first word that is no operand. -/
theorem directive_of_bad {search : Search} {line l : SourceLine} {text w : String} {s : State}
    {before behind : List (SourceLine × String)} {f : Failure}
    (words : arrayWords (arrayTexts line text s.cursor.pending) = before ++ (l, w) :: behind)
    (sound : ∀ p ∈ before, ∃ o, Operand.parse .word p.2 = .ok o)
    (failed : Operand.parse .word w = .error f) :
    directive search line .array ("[" ++ text) s =
      .error ⟨f.locate l.location (some l.text), s.log⟩ := by
  rw [directive_eq_readTexts, readTexts_of_bad words sound failed]
  rfl

/-- A numeral with too many digits makes an array fail without a place. -/
theorem directive_of_overlong {search : Search} {line : SourceLine} {word : String} {s : State}
    (digits : ∀ c ∈ word.toList, c.isDigit = true)
    (long : maxDecimalDigits < word.toList.length) :
    directive search line .array ("[" ++ (word ++ "]")) s =
      .error ⟨.fault (.numeralTooLong word.toList.length), s.log⟩ := by
  have hclosed : ']' ∉ word.toList := fun hmem => absurd (digits _ hmem) (by decide)
  have hword : Text.words word = [word] := by
    apply Text.words_of_solid (List.ne_nil_of_length_pos (Nat.zero_lt_of_lt long))
    intro c hc
    exact (digit_facts (digits c hc)).1
  have hwords : arrayWords (arrayTexts line (word ++ "]") s.cursor.pending) =
      [] ++ (line, word) :: [] := by
    have hcloses : ClosesAt (arrayTexts line (word ++ "]") s.cursor.pending) 0 line word "" :=
      ⟨by simp, by simp [arrayTexts], hclosed⟩
    rw [hcloses.arrayWords_eq]
    simp [wordsOn, hword]
  exact directive_of_bad hwords (List.forall_mem_nil _) (Operand.parse_of_overlong digits long)

/-- **What an array takes, what its elements are, and how it fails.** Its words are those up to the
first closing bracket. If they all are operands and only blanks stand behind the bracket, the array
takes the lines up to the bracket and has these operands as its elements. The first word that is no
operand is reported at its own line, unless it is a numeral with too many digits. Text behind the
bracket is reported at the line of the bracket. If there is no bracket and all words are operands,
then all lines are asked for: the array is open on each part of them. -/
theorem directive_array (search : Search) (line : SourceLine) (text : String) (s : State) :
    let texts := arrayTexts line text s.cursor.pending
    (∀ k l own after operands, ClosesAt texts k l own after →
      List.Forall₂ (fun p o => Operand.parse .word p.2 = .ok o) (arrayWords texts) operands →
      (∀ c ∈ after.toList, Text.isBlank c = true) →
      directive search line .array ("[" ++ text) s = .ok (.values operands,
          { s with cursor := ⟨s.cursor.pending.drop k, s.cursor.taken + k⟩ }) ∧
        (Command.values operands).size = (arrayWords texts).length) ∧
    (∀ before l w behind f, arrayWords texts = before ++ (l, w) :: behind →
      (∀ p ∈ before, ∃ o, Operand.parse .word p.2 = .ok o) →
      Operand.parse .word w = .error f → (∀ n : Numeral, n.Writes w → ¬n.IsOverlong) →
      ∃ cause, f = .ofCause cause ∧
        directive search line .array ("[" ++ text) s = .error
          ⟨.error ⟨cause, some l.location, cause.hint, some l.text⟩, s.log⟩) ∧
    (∀ k l own after, ClosesAt texts k l own after →
      (∀ p ∈ arrayWords texts, ∃ o, Operand.parse .word p.2 = .ok o) →
      (∃ c ∈ after.toList, Text.isBlank c = false) →
      directive search line .array ("[" ++ text) s = .error
        ⟨.error ⟨.textAfterArray (Text.trim after), some l.location, none, some l.text⟩, s.log⟩) ∧
    ((∀ p ∈ texts, ']' ∉ p.2.toList) →
      (∀ p ∈ arrayWords texts, ∃ o, Operand.parse .word p.2 = .ok o) →
      ∀ front n, front <+: s.cursor.pending →
        directive search line .array ("[" ++ text) { s with cursor := ⟨front, n⟩ } =
          .error ⟨.ofCause .arrayNotClosed, s.log⟩) := by
  intro texts
  refine ⟨?_, ?_, ?_, ?_⟩
  · intro k l own after operands closes hoperands hblank
    refine ⟨?_, hoperands.length_eq.symm⟩
    rw [directive_eq_readTexts, readTexts_of_closesAt closes, mapM_operandOn_of_forall₂ hoperands]
    have hrest : (texts.drop (k + 1)).map Prod.fst = s.cursor.pending.drop k := by
      rw [List.map_drop]
      change ((s.cursor.pending.map fun l => (l, l.content)).map Prod.fst).drop k = _
      rw [map_fst_contents]
    simp [bind, Except.bind, Text.trim_eq_empty_iff.mpr hblank, Except.map, State.take, hrest]
  · intro before l w behind f words sound failed short
    obtain ⟨cause, rfl⟩ := Operand.exists_cause_of_parse failed short
    exact ⟨cause, rfl, directive_of_bad words sound failed⟩
  · intro k l own after closes sound hextra
    obtain ⟨operands, hoperands⟩ := exists_forall₂_of_operands sound
    have hafter : Text.trim after ≠ "" := by
      intro hempty
      obtain ⟨c, hc, hsolid⟩ := hextra
      exact Bool.false_ne_true (hsolid.symm.trans (Text.trim_eq_empty_iff.mp hempty c hc))
    rw [directive_eq_readTexts, readTexts_of_closesAt closes, mapM_operandOn_of_forall₂ hoperands]
    simp [bind, Except.bind, hafter, State.lift, Except.mapError, Except.map]
  · intro opened sound front n hfront
    -- the texts on a part of the lines have no bracket either, and their words are operands
    have hpart : arrayTexts line text front ⊆ texts :=
      (List.cons_prefix_cons.mpr ⟨rfl, hfront.map _⟩).subset
    have hopened : ∀ p ∈ arrayTexts line text front, ']' ∉ p.2.toList := by
      intro p hp
      exact opened p (hpart hp)
    have hsound : ∀ p ∈ arrayWords (arrayTexts line text front),
        ∃ o, Operand.parse .word p.2 = .ok o := by
      intro p hp
      exact sound p (arrayWords_subset_of_open opened hpart hp)
    obtain ⟨operands, hoperands⟩ := exists_forall₂_of_operands hsound
    rw [directive_eq_readTexts, readTexts_of_open hopened, mapM_operandOn_of_forall₂ hoperands]
    rfl

/-- Arrays with comments over three lines: one that is closed before the last line, one with a word
that is no operand, one with text behind its bracket, and one that is open. -/
theorem directive_array_comments :
    let on := fun n text => (⟨inputName, n, text, [inputName]⟩ : SourceLine)
    let search : Search := ⟨.empty [], []⟩
    let line := on 1 ".array [ 1 # one"
    let before := fun text => State.start ⟨[on 2 "# none ]", on 3 text, on 4 "END"], 1⟩ .predefined
    directive search line .array ("[" ++ " 1") (before "$A ] # ten") =
      .ok (.values [.literal 1 .word, .literal 10 .word],
        { before "$A ] # ten" with cursor := ⟨[on 4 "END"], 3⟩ }) ∧
    directive search line .array ("[" ++ " 1") (before "$A 0x2 3x ] +") = .error
      ⟨.error ⟨.malformedInteger "0x2", some (.ofLine inputName 3),
        some "write hexadecimal as '$2'", some "$A 0x2 3x ] +"⟩, #[]⟩ ∧
    directive search line .array ("[" ++ " 1") (before "$A ] +") = .error
      ⟨.error ⟨.textAfterArray (Text.trim " +"), some (.ofLine inputName 3), none, some "$A ] +"⟩,
        #[]⟩ ∧
    directive search line .array ("[" ++ " 1") (before "$A") =
      .error ⟨.ofCause .arrayNotClosed, #[]⟩ := by
  intro on search line before
  let texts := fun text => arrayTexts line " 1" (before text).cursor.pending
  have hone : Operand.parse .word "1" = .ok (.literal 1 .word) := by decide +kernel
  have hten : Operand.parse .word "$A" = .ok (.literal 10 .word) := by decide +kernel
  have hend : Operand.parse .word "END" = .ok (.symbol "END" .word) := by decide +kernel
  have hopened : ∀ p ∈ [(line, " 1"), (on 2 "# none ]", "")], ']' ∉ p.2.toList := by simp
  have hsound : ∀ l, ∀ p ∈ [(line, "1"), (l, "$A")], ∃ o, Operand.parse .word p.2 = .ok o := by
    intro l
    exact List.forall_mem_cons.mpr ⟨⟨_, hone⟩, List.forall_mem_singleton.mpr ⟨_, hten⟩⟩
  refine ⟨?_, ?_, ?_, ?_⟩
  · have hwords : arrayWords (texts "$A ] # ten") = [(line, "1"), (on 3 "$A ] # ten", "$A")] := by
      decide +kernel
    have hcloses : ClosesAt (texts "$A ] # ten") 2 (on 3 "$A ] # ten") "$A " "" :=
      ⟨by decide +kernel, by decide +kernel, by simp⟩
    refine ((directive_array search line " 1" (before "$A ] # ten")).1 2 _ _ _ _ hcloses ?_
      (by simp)).1
    rw [hwords]
    exact .cons hone (.cons hten .nil)
  · have hwords : arrayWords (texts "$A 0x2 3x ] +") =
        [(line, "1"), (on 3 "$A 0x2 3x ] +", "$A")] ++
          (on 3 "$A 0x2 3x ] +", "0x2") :: [(on 3 "$A 0x2 3x ] +", "3x")] := by decide +kernel
    have hparse : Operand.parse .word "0x2" = .error (.ofCause (.malformedInteger "0x2")) := by
      decide +kernel
    have hshort : ∀ n : Numeral, n.Writes "0x2" → ¬n.IsOverlong := by
      rintro n hn ⟨-, hlong⟩
      have hlength : n.digits.length ≤ 3 := hn.length_le
      omega
    obtain ⟨cause, hcause, hresult⟩ :=
      (directive_array search line " 1" (before "$A 0x2 3x ] +")).2.1 _ _ _ _ _ hwords (hsound _)
        hparse hshort
    cases hcause
    exact hresult
  · have hwords : arrayWords (texts "$A ] +") = [(line, "1"), (on 3 "$A ] +", "$A")] := by
      decide +kernel
    have hcloses : ClosesAt (texts "$A ] +") 2 (on 3 "$A ] +") "$A " " +" :=
      ⟨by decide +kernel, by decide +kernel, by simp⟩
    refine (directive_array search line " 1" (before "$A ] +")).2.2.1 2 _ _ _ hcloses ?_
      ⟨'+', by simp, by decide +kernel⟩
    rw [hwords]
    exact hsound _
  · have hwords : arrayWords (texts "$A") =
        [(line, "1"), (on 3 "$A", "$A"), (on 4 "END", "END")] := by decide +kernel
    refine (directive_array search line " 1" (before "$A")).2.2.2 (by decide +kernel) ?_ _ 1
      (List.prefix_refl _)
    rw [hwords]
    simp [hone, hten, hend]

/-- Two arrays are not reported as their bracket and their word ask for: an array that is not closed
has a word that is no operand, and the word of an array that is closed has too many digits to be
reported at a line. -/
theorem directive_array_unusual :
    let search : Search := ⟨.empty [], []⟩
    let s := State.start ⟨[], 1⟩ .predefined
    let line := fun text => (⟨inputName, 1, ".array [" ++ text, [inputName]⟩ : SourceLine)
    let digits := String.ofList (List.replicate 4301 '1')
    (∀ p ∈ arrayTexts (line "0x4") "0x4" [], ']' ∉ p.2.toList) ∧
    directive search (line "0x4") .array ("[" ++ "0x4") s = .error
      ⟨.error ⟨.malformedInteger "0x4", some (.ofLine inputName 1),
        some "write hexadecimal as '$4'", some ".array [0x4"⟩, #[]⟩ ∧
    directive search (line (digits ++ "]")) .array ("[" ++ (digits ++ "]")) s =
      .error ⟨.fault (.numeralTooLong 4301), #[]⟩ := by
  intro search s line digits
  refine ⟨by simp [arrayTexts], ?_, ?_⟩
  · have hwords : arrayWords (arrayTexts (line "0x4") "0x4" s.cursor.pending) =
        [] ++ (line "0x4", "0x4") :: [] := by
      decide +kernel
    have hparse : Operand.parse .word "0x4" = .error (.error ⟨.malformedInteger "0x4", none,
        some "write hexadecimal as '$4'", none⟩) := by
      decide +kernel
    exact directive_of_bad hwords (List.forall_mem_nil _) hparse
  · have hdigits : digits.toList = List.replicate 4301 '1' := String.toList_ofList
    have hlength : digits.toList.length = 4301 := by rw [hdigits, List.length_replicate]
    -- only these facts count: the digits are not to be written out
    clear_value digits
    have hdecimal : ∀ c ∈ digits.toList, c.isDigit = true := by
      intro c hc
      rw [hdigits] at hc
      rw [List.eq_of_mem_replicate hc]
      decide
    rw [directive_of_overlong hdecimal (by rw [hlength]; decide), hlength]
    rfl

end Layout

end NibbleAsm
