import NibbleAsm.Proofs.Definitions
import NibbleAsm.Proofs.JoinedText
import Mathlib.Data.List.TakeWhile

/-!
# Names of symbols

Labels and constants are named on lines of different form, and their names are read again as words
of operand texts. Both forms agree on what a name is: it is not empty and has neither blanks nor
number signs, so it is one word wherever it stands.

## Main definitions

* `IsPlain`: texts that are one word wherever they stand
* `IsTidy`: texts without outer blanks and without a comment

## Main results

* `Text.words_join`: words that are joined are the words of the text
* `SourceLine.operands_of_text`: the keyword and the operand text of a line with a tidy text
* `SourceLine.isPlain_of_definition?`: a name that a line defines is plain
* `SourceLine.words_of_text`: a plain name behind `.word` is its only operand
-/

namespace NibbleAsm

/-! ## Characters of words -/

namespace Text

theorem mem_of_mem_dropWhile {p : Char → Bool} {cs : List Char} {c : Char}
    (h : c ∈ cs.dropWhile p) : c ∈ cs :=
  (List.dropWhile_suffix p).mem h

theorem mem_of_mem_trim {s : String} {c : Char} (h : c ∈ (trim s).toList) : c ∈ s.toList := by
  rw [trim, String.toList_ofList, dropTail, List.mem_reverse] at h
  exact mem_of_mem_dropWhile (List.mem_reverse.mp (mem_of_mem_dropWhile h))

theorem mem_of_mem_firstWord {s : String} {c : Char} (h : c ∈ (firstWord s).2.toList) :
    c ∈ s.toList := by
  rw [firstWord, String.toList_ofList] at h
  exact mem_of_mem_dropWhile (mem_of_mem_dropWhile (mem_of_mem_dropWhile h))

theorem not_mem_before (mark : Char) (s : String) : mark ∉ (before mark s).toList := by
  rw [before, String.toList_ofList]
  intro h
  simpa using List.mem_takeWhile_imp h

theorem before_of_not_mem {mark : Char} {s : String} (h : mark ∉ s.toList) : before mark s = s := by
  rw [before, List.takeWhile_eq_self_iff.mpr, String.ofList_toList]
  intro c hc
  exact decide_eq_true fun hmark => h (hmark ▸ hc)

theorem before_of_first {mark : Char} {s own : String} {after : List Char}
    (h : mark ∉ own.toList) (hs : s.toList = own.toList ++ mark :: after) :
    before mark s = own := by
  have hown : ∀ c ∈ own.toList, decide (c ≠ mark) = true := by
    intro c hc
    exact decide_eq_true fun hmark => h (hmark ▸ hc)
  rw [before, hs, List.takeWhile_append_of_pos hown, List.takeWhile_cons_of_neg (by simp),
    List.append_nil, String.ofList_toList]

/-- A word of a text is not empty, and its characters are characters of the text that are not
blank. -/
theorem mem_words {s w : String} (h : w ∈ words s) :
    w.toList ≠ [] ∧ ∀ c ∈ w.toList, isBlank c = false ∧ c ∈ s.toList := by
  obtain ⟨cs, hcs, rfl⟩ := List.mem_map.mp h
  obtain ⟨hsplit, hne⟩ := List.mem_filter.mp hcs
  rw [String.toList_ofList]
  refine ⟨by simpa using hne, fun c hc => ?_⟩
  exact (mem_of_mem_splitOnPPrepend hsplit c hc).resolve_left List.not_mem_nil

theorem solid_of_mem_words {s w : String} (h : w ∈ words s) :
    w.toList ≠ [] ∧ ∀ c ∈ w.toList, isBlank c = false :=
  ⟨(mem_words h).1, fun c hc => ((mem_words h).2 c hc).1⟩

theorem dropWhile_eq_self {p : Char → Bool} {cs : List Char}
    (h : ∀ c ∈ cs.head?, p c = false) : cs.dropWhile p = cs := by
  cases cs with
  | nil => rfl
  | cons c cs => rw [List.dropWhile_cons_of_neg (by simp [h c rfl])]

theorem dropTail_eq_self {p : Char → Bool} {cs : List Char}
    (h : ∀ c ∈ cs.getLast?, p c = false) : dropTail p cs = cs := by
  rw [dropTail, dropWhile_eq_self (by simpa using h), List.reverse_reverse]

theorem dropTail_eq_nil_iff {p : Char → Bool} {cs : List Char} :
    dropTail p cs = [] ↔ ∀ c ∈ cs, p c = true := by
  rw [dropTail, List.reverse_eq_nil_iff, List.dropWhile_eq_nil_iff]
  simp only [List.mem_reverse]

/-- A text that neither starts nor ends with a blank has no outer blanks. -/
theorem trim_eq_self {s : String} (first : ∀ c ∈ s.toList.head?, isBlank c = false)
    (last : ∀ c ∈ s.toList.getLast?, isBlank c = false) : trim s = s := by
  rw [trim, dropWhile_eq_self first, dropTail_eq_self last, String.ofList_toList]

end Text

/-! ## Words on a line -/

/-- A text that is one word wherever it stands. -/
structure IsPlain (name : String) : Prop where
  nonempty : name.toList ≠ []
  solid : ∀ c ∈ name.toList, Text.isBlank c = false
  visible : '#' ∉ name.toList

-- `List.all` keeps the decision to the characters of the name: there is also an instance for a
-- quantifier over all characters
instance : DecidablePred IsPlain := fun name =>
  decidable_of_iff (name.toList ≠ [] ∧ name.toList.all (!Text.isBlank ·) = true ∧
      '#' ∉ name.toList)
    ⟨fun ⟨nonempty, solid, visible⟩ => ⟨nonempty, by simpa using solid, visible⟩,
      fun h => ⟨h.nonempty, by simpa using h.solid, h.visible⟩⟩

/-- A text that neither starts nor ends with a blank and has no comment. -/
structure IsTidy (text : String) : Prop where
  nonempty : text.toList ≠ []
  first : ∀ c ∈ text.toList.head?, Text.isBlank c = false
  last : ∀ c ∈ text.toList.getLast?, Text.isBlank c = false
  visible : '#' ∉ text.toList

section Words

variable {word args : String}

theorem toList_spaced (word args : String) :
    (word ++ " " ++ args).toList = word.toList ++ ' ' :: args.toList := by
  simp

theorem IsPlain.isTidy (h : IsPlain word) : IsTidy word where
  nonempty := h.nonempty
  first c hc := h.solid c (List.mem_of_head? hc)
  last c hc := h.solid c (List.mem_of_getLast? hc)
  visible := h.visible

/-- A word in front of a tidy text makes a tidy text. -/
theorem IsPlain.isTidy_append (h : IsPlain word) (hargs : IsTidy args) :
    IsTidy (word ++ " " ++ args) where
  nonempty := by simp
  first c hc := by
    rw [toList_spaced, List.head?_append_of_ne_nil _ h.nonempty] at hc
    exact h.solid c (List.mem_of_head? hc)
  last c hc := by
    rw [toList_spaced, List.getLast?_append_of_ne_nil _ (List.cons_ne_nil _ _),
      List.getLast?_cons_of_ne_nil hargs.nonempty] at hc
    exact hargs.last c hc
  visible := by simp [h.visible, hargs.visible]

/-- A word in front of a tidy text is its first word. -/
theorem Text.firstWord_append (h : IsPlain word) (hargs : IsTidy args) :
    Text.firstWord (word ++ " " ++ args) = (word, args) := by
  have hword : ∀ c ∈ word.toList, (!Text.isBlank c) = true := by simpa using h.solid
  have hblank : Text.isBlank ' ' = true := by decide +kernel
  rw [Text.firstWord, Text.dropWhile_eq_self (h.isTidy_append hargs).first, toList_spaced,
    List.takeWhile_append_of_pos hword, List.dropWhile_append_of_pos hword,
    List.takeWhile_cons_of_neg (by simp [hblank]), List.dropWhile_cons_of_neg (by simp [hblank]),
    List.dropWhile_cons_of_pos hblank, Text.dropWhile_eq_self hargs.first]
  simp

/-- A text without blanks is its only word. -/
theorem Text.words_of_solid (nonempty : word.toList ≠ [])
    (solid : ∀ c ∈ word.toList, Text.isBlank c = false) : Text.words word = [word] := by
  rw [Text.words, List.splitOnP_eq_singleton solid]
  simp [nonempty]

/-- The words of a text behind a word are behind the word. -/
theorem Text.words_spaced (nonempty : word.toList ≠ [])
    (solid : ∀ c ∈ word.toList, Text.isBlank c = false) (args : String) :
    Text.words (word ++ " " ++ args) = word :: Text.words args := by
  have hblank : Text.isBlank ' ' = true := by decide +kernel
  rw [Text.words, toList_spaced, List.splitOnP_append_cons_of_forall_mem solid _ hblank]
  simp [Text.words, nonempty]

theorem Text.words_of_plain (h : IsPlain word) : Text.words word = [word] :=
  Text.words_of_solid h.nonempty h.solid

theorem Text.words_append (h : IsPlain word) (args : String) :
    Text.words (word ++ " " ++ args) = word :: Text.words args :=
  Text.words_spaced h.nonempty h.solid args

/-- **Words that are joined by spaces are the words of the text.** -/
theorem Text.words_join {parts : List String}
    (h : ∀ s ∈ parts, s.toList ≠ [] ∧ ∀ c ∈ s.toList, Text.isBlank c = false) :
    Text.words (Text.join " " parts) = parts := by
  induction parts with
  | nil => decide +kernel
  | cons part rest ih =>
    obtain ⟨⟨nonempty, solid⟩, hrest⟩ := List.forall_mem_cons.mp h
    cases rest with
    | nil => exact Text.words_of_solid nonempty solid
    | cons next rest => rw [Text.join_cons_cons, Text.words_spaced nonempty solid, ih hrest]

/-- Nothing is cut off a line with a tidy text. -/
theorem SourceLine.content_of_isTidy {l : SourceLine} (h : IsTidy l.text) : l.content = l.text := by
  have htrim : Text.trim l.text = l.text := Text.trim_eq_self h.first h.last
  rw [content, stripComment, htrim, Text.before_of_not_mem h.visible, htrim]
  exact ite_self _

/-- A line with a word in front of a tidy text has these as its keyword and its operand text. -/
theorem SourceLine.operands_of_text {l : SourceLine} (h : IsPlain word) (hargs : IsTidy args)
    (text : l.text = word ++ " " ++ args) : l.keyword = word ∧ l.operandText = args := by
  have hcontent := content_of_isTidy (l := l) (text ▸ h.isTidy_append hargs)
  rw [keyword, operandText, hcontent, text, Text.firstWord_append h hargs]
  exact ⟨rfl, rfl⟩

end Words

/-! ## Names that lines define -/

namespace SourceLine

variable {l : SourceLine} {name : String}

/-- A number sign starts a comment, unless the line stores a text. -/
theorem not_mem_content (h : l.keyword ∉ rawDirectives) : '#' ∉ l.content.toList := by
  unfold keyword content at h
  unfold content
  unfold stripComment at h ⊢
  dsimp only at h ⊢
  split at h
  · next hraw => exact absurd (List.contains_iff_mem.mp hraw) h
  · next hraw =>
    -- the text was cut at its first number sign, and cutting off blanks adds none
    rw [if_neg hraw]
    exact fun hmem => Text.not_mem_before '#' _ (Text.mem_of_mem_trim hmem)

/-- A label is a name in parentheses that is not empty and has no blanks. -/
theorem labelName?_eq_some {content : String} (h : Layout.labelName? content = some name) :
    content = "(" ++ name ++ ")" ∧ name.toList ≠ [] ∧
      ∀ c ∈ name.toList, Text.isBlank c = false := by
  unfold Layout.labelName? at h
  split at h
  · next rest hcontent =>
    dsimp only at h
    split at h
    · next hform =>
      cases h
      obtain ⟨hlast, hne, hall⟩ := hform
      rw [String.toList_ofList]
      refine ⟨?_, hne, fun c hc => ?_⟩
      · apply String.toList_injective
        rw [hcontent, String.toList_append, String.toList_append, String.toList_ofList,
          ← List.dropLast_append_getLast? _ hlast]
        simp
      · have hc := List.all_eq_true.mp hall c hc
        simpa using (of_decide_eq_true hc).2.2
    · cases h
  · cases h

theorem isPlain_of_labelName? (h : Layout.labelName? l.content = some name)
    (opened : Text.startsWith '(' l.keyword = true) : IsPlain name := by
  obtain ⟨hcontent, hne, hsolid⟩ := labelName?_eq_some h
  -- a line that starts with a parenthesis does not store a text, so its comment is cut off
  have hraw : l.keyword ∉ rawDirectives := by
    intro hmem
    have hall : ∀ word ∈ rawDirectives, Text.startsWith '(' word = false := by decide +kernel
    exact Bool.false_ne_true ((hall _ hmem).symm.trans opened)
  refine ⟨hne, hsolid, fun hmem => not_mem_content hraw ?_⟩
  rw [hcontent, String.toList_append, String.toList_append]
  exact List.mem_append_left _ (List.mem_append_right _ hmem)

/-- A label stands in parentheses, with nothing else on its line. -/
theorem content_of_label (h : l.definition? = some (.label name)) :
    l.content = "(" ++ name ++ ")" := by
  unfold definition? at h
  split at h
  · obtain ⟨label, hlabel, hname⟩ := Option.map_eq_some_iff.mp h
    cases hname
    exact (labelName?_eq_some hlabel).1
  · split at h
    · split at h <;> cases h
    · cases h

/-- **A name that a line defines is plain.** -/
theorem isPlain_of_definition? {d : Definition} (h : l.definition? = some d) : IsPlain d.name := by
  unfold definition? at h
  split at h
  · next hopened =>
    obtain ⟨name, hname, rfl⟩ := Option.map_eq_some_iff.mp h
    exact isPlain_of_labelName? hname hopened
  · split at h
    · next hset =>
      have hraw : l.keyword ∉ rawDirectives := by rw [hset]; decide +kernel
      split at h
      · next name text hwords =>
        cases h
        -- the name is a word of what follows `.set`, which has no comment
        have hmem : name ∈ Text.words l.operandText := hwords ▸ List.mem_cons_self
        obtain ⟨hne, hall⟩ := Text.mem_words hmem
        refine ⟨hne, fun c hc => (hall c hc).1, fun hsign => ?_⟩
        exact not_mem_content hraw (Text.mem_of_mem_firstWord (hall _ hsign).2)
      · cases h
    · cases h

/-- **A plain name behind `.word` is its only operand.** -/
theorem words_of_text (h : IsPlain name) (text : l.text = ".word " ++ name) :
    l.keyword = ".word" ∧ Text.words l.operandText = [name] := by
  have hword : IsPlain ".word" := by decide +kernel
  obtain ⟨hkeyword, hoperand⟩ := operands_of_text hword h.isTidy (text.trans (by simp))
  rw [hoperand]
  exact ⟨hkeyword, Text.words_of_plain h⟩

end SourceLine

end NibbleAsm
