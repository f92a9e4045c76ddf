import NibbleAsm.Proofs.Definitions
import NibbleAsm.Proofs.Formatting
import Mathlib.Data.List.TakeWhile

/-!
# Stored texts

A line that stores a text is found by the first word of its content, but the text is taken from the
line as it stands, behind the first word of the line. The two words are the same, unless a number
sign follows the name of the directive at once. Then the content of the line ends with the name, as
if a comment followed, while the text that is stored is what stands behind the next blanks.

## Main definitions

* `Text.Divides`: a text as blanks, a word, blanks and the rest

## Main results

* `Text.exists_divides`, `Text.Divides.firstWord_eq`: these parts are what `firstWord` finds
* `Text.Divides.trim`, `Text.Divides.before`: outer blanks and comments leave the first word alone
* `SourceLine.exists_divides`: the parts of a line that stores a text
* `Layout.step_string`: what a line that stores a text adds to the program
-/

namespace NibbleAsm

/-! ## The first word of a text -/

namespace Text

section Characters

variable {p : Char → Bool} {cs ds : List Char}

theorem head?_dropWhile : ∀ c ∈ (cs.dropWhile p).head?, p c = false := by
  intro c hc
  rw [← List.find?_not_eq_head?_dropWhile] at hc
  simpa using List.find?_some hc

theorem takeWhile_eq_nil (h : ∀ c ∈ cs.head?, p c = false) : cs.takeWhile p = [] := by
  cases cs with
  | nil => rfl
  | cons c cs => rw [List.takeWhile_cons_of_neg (by simp [h c rfl])]

theorem head?_takeWhile : ∀ c ∈ (cs.takeWhile p).head?, c ∈ cs.head? := by
  cases cs with
  | nil => simp
  | cons c cs =>
    rw [List.takeWhile_cons]
    split <;> simp

/-- Only the second part is shortened, if something is left of it. -/
theorem dropTail_append_of_ne_nil (h : dropTail p ds ≠ []) :
    dropTail p (cs ++ ds) = cs ++ dropTail p ds := by
  rw [dropTail, ne_eq, List.reverse_eq_nil_iff] at h
  rw [dropTail, List.reverse_append, List.dropWhile_append, if_neg (by simpa using h),
    List.reverse_append, List.reverse_reverse, dropTail]

end Characters

/-- A text divides into blanks, a word, blanks and the rest. The rest stands behind a blank and does
not start with one. -/
structure Divides (s lead word gap rest : String) : Prop where
  eq : s = lead ++ word ++ gap ++ rest
  blank_lead : ∀ c ∈ lead.toList, isBlank c = true
  solid : ∀ c ∈ word.toList, isBlank c = false
  blank_gap : ∀ c ∈ gap.toList, isBlank c = true
  apart : gap = "" → rest = ""
  first : ∀ c ∈ rest.toList.head?, isBlank c = false

/-- Every text divides in this way around its first word. -/
theorem exists_divides (s : String) :
    ∃ lead gap, Divides s lead (firstWord s).1 gap (firstWord s).2 := by
  let start := s.toList.dropWhile isBlank
  let behind := start.dropWhile fun c => !isBlank c
  refine ⟨String.ofList (s.toList.takeWhile isBlank), String.ofList (behind.takeWhile isBlank), ?_⟩
  constructor
  · apply String.toList_injective
    simp [firstWord, start, behind, List.takeWhile_append_dropWhile]
  · intro c hc
    rw [String.toList_ofList] at hc
    exact List.mem_takeWhile_imp hc
  · intro c hc
    rw [firstWord, String.toList_ofList] at hc
    simpa using List.mem_takeWhile_imp hc
  · intro c hc
    rw [String.toList_ofList] at hc
    exact List.mem_takeWhile_imp hc
  · -- what is left behind the word starts with a blank, unless nothing is left
    intro hgap
    have hbehind : ∀ c ∈ behind.head?, (!isBlank c) = false := head?_dropWhile
    change String.ofList (behind.dropWhile isBlank) = ""
    cases hcs : behind with
    | nil => rfl
    | cons c cs =>
      rw [hcs] at hbehind hgap
      simp [show isBlank c = true by simpa using hbehind c rfl] at hgap
  · rw [firstWord, String.toList_ofList]
    exact head?_dropWhile

/-- A text without a first word has only blanks. -/
theorem trim_eq_empty_of_firstWord {s : String} (h : (firstWord s).1.toList = []) :
    trim s = "" := by
  have hstart : s.toList.dropWhile isBlank = [] := by
    cases hcs : s.toList.dropWhile isBlank with
    | nil => rfl
    | cons c cs =>
      have hc : isBlank c = false := head?_dropWhile c (by rw [hcs]; rfl)
      simp [firstWord, hcs, hc] at h
  rw [trim, hstart]
  rfl

namespace Divides

variable {s lead word gap rest : String}

/-- Behind the word there is a blank, or nothing. -/
theorem blank_behind (h : Divides s lead word gap rest) :
    ∀ c ∈ (gap.toList ++ rest.toList).head?, isBlank c = true := by
  intro c hc
  by_cases hgap : gap = ""
  · simp [hgap, h.apart hgap] at hc
  · rw [List.head?_append_of_ne_nil _ (by simpa using hgap)] at hc
    exact h.blank_gap c (List.mem_of_head? hc)

theorem toList_eq (h : Divides s lead word gap rest) :
    s.toList = lead.toList ++ (word.toList ++ (gap.toList ++ rest.toList)) := by
  simp [h.eq]

theorem dropWhile_eq (h : Divides s lead word gap rest) (nonempty : word.toList ≠ []) :
    s.toList.dropWhile isBlank = word.toList ++ (gap.toList ++ rest.toList) := by
  rw [h.toList_eq, List.dropWhile_append_of_pos h.blank_lead]
  apply dropWhile_eq_self
  intro c hc
  rw [List.head?_append_of_ne_nil _ nonempty] at hc
  exact h.solid c (List.mem_of_head? hc)

/-- **The parts of a text with a first word are those that `firstWord` finds.** -/
theorem firstWord_eq (h : Divides s lead word gap rest) (nonempty : word.toList ≠ []) :
    firstWord s = (word, rest) := by
  have hword : ∀ c ∈ word.toList, (!isBlank c) = true := by simpa using h.solid
  have hbehind : ∀ c ∈ (gap.toList ++ rest.toList).head?, (!isBlank c) = false := by
    simpa using h.blank_behind
  rw [firstWord, h.dropWhile_eq nonempty, List.takeWhile_append_of_pos hword,
    List.dropWhile_append_of_pos hword, takeWhile_eq_nil hbehind, dropWhile_eq_self hbehind,
    List.dropWhile_append_of_pos h.blank_gap, dropWhile_eq_self h.first]
  simp

theorem trim_eq (h : Divides s lead word gap rest) (nonempty : word.toList ≠ []) :
    Text.trim s = trimRight (word ++ gap ++ rest) := by
  rw [Text.trim, h.dropWhile_eq nonempty, trimRight]
  simp

/-- Without outer blanks, the text has the same first word, and no blanks behind the rest. -/
theorem trim (h : Divides s lead word gap rest) (nonempty : word.toList ≠ []) :
    ∃ gap', Divides (Text.trim s) "" word gap' (trimRight rest) := by
  by_cases hrest : rest = ""
  · -- the word is all that is left
    have hlast : ∀ c ∈ word.toList.getLast?, isBlank c = false := by
      intro c hc
      exact h.solid c (List.mem_of_getLast? hc)
    have htrim : Text.trim s = word := by
      rw [h.trim_eq nonempty, hrest, trimRight]
      simp [dropTail_append h.blank_gap, dropTail_eq_self hlast]
    have hempty : trimRight rest = "" := by rw [hrest]; rfl
    rw [htrim, hempty]
    exact ⟨"", by simp, by simp, h.solid, by simp, by simp, by simp⟩
  · have hgap : gap ≠ "" := fun hgap => hrest (h.apart hgap)
    obtain ⟨tail, hcs, -⟩ := exists_dropTail isBlank rest.toList
    -- the rest starts with a character that is not blank, so something is left of it
    have hnonempty : rest.toList ≠ [] := by simpa using hrest
    obtain ⟨c, cs, hfirst⟩ := List.exists_cons_of_ne_nil hnonempty
    have hleft : dropTail isBlank rest.toList ≠ [] := by
      rw [ne_eq, dropTail_eq_nil_iff, hfirst]
      intro hall
      have hc := h.first c (by rw [hfirst]; rfl)
      exact Bool.false_ne_true (hc.symm.trans (hall c List.mem_cons_self))
    refine ⟨gap, ?_, by simp, h.solid, h.blank_gap, fun hempty => absurd hempty hgap, ?_⟩
    · apply String.toList_injective
      rw [h.trim_eq nonempty, trimRight, String.toList_ofList, String.toList_append,
        dropTail_append_of_ne_nil hleft]
      simp [trimRight]
    · intro c hc
      apply h.first c
      rw [hcs, List.head?_append_of_ne_nil _ hleft]
      simpa [trimRight] using hc

/-- A comment that starts behind the word leaves the word alone. -/
theorem before (h : Divides s lead word gap rest) (visible : '#' ∉ word.toList) :
    Divides (Text.before '#' s) lead word gap (Text.before '#' rest) := by
  have hsign : isBlank '#' = false := by decide +kernel
  have hpass : ∀ cs : List Char, '#' ∉ cs → ∀ c ∈ cs, decide (c ≠ '#') = true := by
    intro cs hcs c hc
    exact decide_eq_true fun heq => hcs (heq ▸ hc)
  have hlead : '#' ∉ lead.toList := by
    intro hmem
    exact Bool.false_ne_true (hsign.symm.trans (h.blank_lead _ hmem))
  have hgap : '#' ∉ gap.toList := by
    intro hmem
    exact Bool.false_ne_true (hsign.symm.trans (h.blank_gap _ hmem))
  refine ⟨?_, h.blank_lead, h.solid, h.blank_gap, ?_, ?_⟩
  · apply String.toList_injective
    rw [Text.before, String.toList_ofList, h.toList_eq,
      List.takeWhile_append_of_pos (hpass _ hlead), List.takeWhile_append_of_pos (hpass _ visible),
      List.takeWhile_append_of_pos (hpass _ hgap)]
    simp [Text.before]
  · intro hempty
    rw [h.apart hempty]
    rfl
  · intro c hc
    rw [Text.before, String.toList_ofList] at hc
    exact h.first c (head?_takeWhile c hc)

end Divides

section Solid

variable {word : String}

/-- A text without blanks is its own first word. -/
theorem firstWord_of_solid (nonempty : word.toList ≠ [])
    (solid : ∀ c ∈ word.toList, isBlank c = false) : firstWord word = (word, "") := by
  have divides : Divides word "" word "" "" :=
    ⟨by simp, by simp, solid, by simp, by simp, by simp⟩
  exact divides.firstWord_eq nonempty

theorem trim_of_solid (solid : ∀ c ∈ word.toList, isBlank c = false) : trim word = word := by
  apply trim_eq_self
  · intro c hc
    exact solid c (List.mem_of_head? hc)
  · intro c hc
    exact solid c (List.mem_of_getLast? hc)

end Solid

end Text

/-! ## The parts of a line that stores a text -/

namespace SourceLine

variable {l : SourceLine}

/-- A line that starts with the name of such a directive is shown as it stands. -/
theorem content_of_raw (h : (Text.firstWord (Text.trim l.text)).1 ∈ rawDirectives) :
    l.content = Text.trim l.text := by
  rw [content, stripComment, if_pos (List.contains_iff_mem.mpr h)]

theorem content_of_not_raw (h : (Text.firstWord (Text.trim l.text)).1 ∉ rawDirectives) :
    l.content = Text.trim (Text.before '#' (Text.trim l.text)) := by
  rw [content, stripComment, if_neg (by simpa using h)]

theorem keyword_ne_nil_of_raw (h : l.keyword ∈ rawDirectives) : l.keyword.toList ≠ [] := by
  have hall : ∀ name ∈ rawDirectives, name.toList ≠ [] := by decide +kernel
  exact hall _ h

/-- If the first word of a line is not the name that its content starts with, then it goes on behind
the name with a number sign, where the content ends. -/
theorem exists_sign_of_not_raw {word gap rest : String}
    (trimmed : Text.Divides (Text.trim l.text) "" word gap rest) (nonempty : word.toList ≠ [])
    (hraw : word ∉ rawDirectives) (h : l.keyword ∈ rawDirectives) :
    ∃ more, word = l.keyword ++ ("#" ++ more) ∧ l.content = l.keyword := by
  have hcontent := content_of_not_raw (l := l) (by rwa [trimmed.firstWord_eq nonempty])
  by_cases hsign : '#' ∈ word.toList
  · -- the content ends before the number sign
    obtain ⟨own, more, hsplit, hown⟩ := List.eq_append_cons_of_mem hsign
    have hsolid : ∀ c ∈ (String.ofList own).toList, Text.isBlank c = false := by
      intro c hc
      rw [String.toList_ofList] at hc
      exact trimmed.solid c (hsplit ▸ List.mem_append_left _ hc)
    have htext : (Text.trim l.text).toList =
        (String.ofList own).toList ++ '#' :: (more ++ (gap.toList ++ rest.toList)) := by
      rw [trimmed.toList_eq, hsplit]
      simp
    rw [Text.before_of_first (by simpa using hown) htext, Text.trim_of_solid hsolid] at hcontent
    have hname : l.keyword = String.ofList own := by
      by_cases hempty : (String.ofList own).toList = []
      · -- a line without content has no name
        rw [String.toList_eq_nil_iff.mp hempty] at hcontent
        exact absurd (keyword_of_blank hcontent) (by simpa using keyword_ne_nil_of_raw h)
      · rw [keyword, hcontent, Text.firstWord_of_solid hempty hsolid]
    refine ⟨String.ofList more, ?_, hcontent.trans hname.symm⟩
    apply String.toList_injective
    simp [hname, hsplit]
  · -- otherwise the content has the same first word as the line
    obtain ⟨gap', stripped⟩ := (trimmed.before hsign).trim nonempty
    have hname : l.keyword = word := by rw [keyword, hcontent, stripped.firstWord_eq nonempty]
    exact absurd (hname ▸ h) hraw

/-- **The parts of a line that stores a text.** The name of the directive is the first word of the
line, or a number sign follows it at once and the content of the line ends with it. -/
theorem exists_divides (h : l.keyword ∈ rawDirectives) :
    ∃ lead tail gap rest, Text.Divides l.text lead (l.keyword ++ tail) gap rest ∧
      ((tail = "" ∧ l.content = Text.trimRight (l.keyword ++ gap ++ rest) ∧
          l.operandText = Text.trimRight rest) ∨
        (∃ more, tail = "#" ++ more) ∧ l.content = l.keyword) := by
  obtain ⟨lead, gap, divides⟩ := Text.exists_divides l.text
  have nonempty : (Text.firstWord l.text).1.toList ≠ [] := by
    intro hempty
    have hcontent : l.content = "" := by
      rw [content, stripComment, Text.trim_eq_empty_of_firstWord hempty]
      rfl
    exact keyword_ne_nil_of_raw h (by rw [keyword_of_blank hcontent]; rfl)
  generalize Text.firstWord l.text = parts at divides nonempty
  obtain ⟨word, rest⟩ := parts
  dsimp only at divides nonempty
  obtain ⟨gap', trimmed⟩ := divides.trim nonempty
  have hfirst := trimmed.firstWord_eq nonempty
  by_cases hraw : word ∈ rawDirectives
  · have hcontent := content_of_raw (l := l) (by rwa [hfirst])
    have hname : l.keyword = word := by rw [keyword, hcontent, hfirst]
    refine ⟨lead, "", gap, rest, ?_, .inl ⟨rfl, ?_, ?_⟩⟩
    · rwa [hname, String.append_empty]
    · rw [hcontent, hname, divides.trim_eq nonempty]
    · rw [operandText, hcontent, hfirst]
  · obtain ⟨more, rfl, hcontent⟩ := exists_sign_of_not_raw trimmed nonempty hraw h
    exact ⟨lead, "#" ++ more, gap, rest, divides, .inr ⟨⟨more, rfl⟩, hcontent⟩⟩

end SourceLine

/-! ## What is stored -/

namespace Layout

/-- **What a line that stores a text adds to the program.** The line divides into blanks, its first
word, blanks and the text that is stored, which is encoded as it stands. If the first word is the
name of the directive, the content of the line has the text as its operand, without the blanks at
its end. If not, a number sign follows the name at once, and the content is only the name. -/
theorem step_string {search : Search} {line : SourceLine} {s s' : State}
    (h : line.keyword ∈ rawDirectives) (done : step search line s = .ok s') :
    ∃ lead tail gap text words,
      Text.Divides line.text lead (line.keyword ++ tail) gap text ∧
      encodeText text = .ok words ∧
      s'.placed = s.placed.push (.ofLine line (.block words) s.index) ∧
      ((tail = "" ∧ line.content = Text.trimRight (line.keyword ++ gap ++ text) ∧
          line.operandText = Text.trimRight text) ∨
        (∃ more, tail = "#" ++ more) ∧ line.content = line.keyword) := by
  have named : Directive.ofName? line.keyword = some .string := by
    have hall : ∀ name ∈ rawDirectives, Directive.ofName? name = some .string := by decide +kernel
    exact hall _ h
  obtain ⟨lead, tail, gap, text, divides, hcontent⟩ := line.exists_divides h
  obtain ⟨command, mid, directed, hplaced⟩ := (handled_of_step done).directed named
  cases directed with
  | @string words encoded =>
    have nonempty : (line.keyword ++ tail).toList ≠ [] := by
      simp [SourceLine.keyword_ne_nil_of_raw h]
    rw [divides.firstWord_eq nonempty] at encoded
    exact ⟨lead, tail, gap, text, words, divides, encoded, hplaced, hcontent⟩

/-- A text with a number sign and blanks at its end. -/
theorem step_string_sign :
    let search : Search := ⟨.empty [], []⟩
    let line : SourceLine := ⟨inputName, 1, "  .str \t#a  ", [inputName]⟩
    let s := State.start ⟨[], 1⟩ .predefined
    ∃ s', step search line s = .ok s' ∧
      s'.placed.toList.map Placed.command = [.block [4, 35, 97, 32, 32]] ∧
      ∃ lead tail gap text words,
        Text.Divides line.text lead (line.keyword ++ tail) gap text ∧
        encodeText text = .ok words ∧
        s'.placed = s.placed.push (.ofLine line (.block words) s.index) ∧
        ((tail = "" ∧ line.content = Text.trimRight (line.keyword ++ gap ++ text) ∧
            line.operandText = Text.trimRight text) ∨
          (∃ more, tail = "#" ++ more) ∧ line.content = line.keyword) := by
  intro search line s
  have hstep : (step search line s).toOption.map (fun s' => s'.placed.toList.map Placed.command) =
      some [.block [4, 35, 97, 32, 32]] := by
    decide +kernel
  obtain ⟨s', done, hplaced⟩ := Option.map_eq_some_iff.mp hstep
  have hraw : line.keyword ∈ rawDirectives := by decide +kernel
  exact ⟨s', toOption_eq_some.mp done, hplaced, step_string hraw (toOption_eq_some.mp done)⟩

/-- A number sign that follows the name of the directive at once: the line is taken for one that
stores a text, but the name is not the first word of the line, and what is stored is not what
follows the name. -/
theorem step_string_joined :
    let search : Search := ⟨.empty [], []⟩
    let line : SourceLine := ⟨inputName, 1, ".str#x y", [inputName]⟩
    let s := State.start ⟨[], 1⟩ .predefined
    line.keyword = ".str" ∧
    (step search line s).toOption.map (fun s' => s'.placed.toList.map Placed.command) =
      some [.block [1, 121]] ∧
    ¬∃ lead gap text, Text.Divides line.text lead ".str" gap text := by
  intro search line s
  refine ⟨by decide +kernel, by decide +kernel, ?_⟩
  rintro ⟨lead, gap, text, divides⟩
  have hfirst : (Text.firstWord line.text).1 = ".str#x" := by decide +kernel
  rw [divides.firstWord_eq (by simp)] at hfirst
  exact absurd hfirst (show ".str" ≠ ".str#x" by decide)

end Layout

end NibbleAsm
