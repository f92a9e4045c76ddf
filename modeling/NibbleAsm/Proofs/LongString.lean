import NibbleAsm.Proofs.StoredText

/-!
# Long strings

A long string takes the lines up to its terminator as they stand and joins their texts. Only the
terminator is found by its content. The words that are stored give the joined text back, and if the
lines are joined by newlines and have none themselves, the joined text gives the lines back: there
is one exception, since no line and one empty line are joined to the same text.

## Main results

* `encodeText_eq_ok_iff`, `encodeText_injective`: the words of a stored text, which give it back
* `Text.join_newline_eq_iff`: which lines are joined to the same text
* `readLongString_of_closed`, `readLongString_of_open`: the lines of a long string
* `Layout.directive_longString`: what a long string takes and stores
-/

namespace NibbleAsm

/-! ## The words of a stored text -/

/-- A value is accepted as a word if it is one, and it stays the same. -/
theorem Width.check_word_eq_ok_iff {value result : Int} {shown : String} :
    Width.word.check value shown = .ok result ↔ IsWord value ∧ value = result := by
  constructor
  · intro h
    obtain ⟨rfl, hword⟩ := (proper_check _ _ _).of_ok h
    exact ⟨hword, rfl⟩
  · rintro ⟨hword, rfl⟩
    exact Width.check_of_isWord hword shown

/-- Characters become their code points, if all these are words. -/
theorem mapM_charWord_eq_ok_iff {cs : List Char} {words : List Int} :
    cs.mapM charWord = .ok words ↔
      (∀ c ∈ cs, IsWord c.toNat) ∧ cs.map (fun c => (c.toNat : Int)) = words := by
  simp only [mapM_eq_ok_iff, charWord, Width.check_word_eq_ok_iff]
  rw [List.forall₂_and_left, ← List.forall₂_map_left_iff (R := Eq), List.forall₂_eq_eq_eq]

/-- **The words of a stored text are its length and its code points**, if all these are words. -/
theorem encodeText_eq_ok_iff {s : String} {words : List Int} :
    encodeText s = .ok words ↔
      (∀ c ∈ s.toList, IsWord c.toNat) ∧ IsWord s.toList.length ∧
        words = (s.toList.length : Int) :: s.toList.map fun c => (c.toNat : Int) := by
  unfold encodeText
  constructor
  · intro h
    obtain ⟨characters, hcharacters, h⟩ := bind_eq_ok.mp h
    obtain ⟨hwords, rfl⟩ := mapM_charWord_eq_ok_iff.mp hcharacters
    obtain ⟨length, hlength, h⟩ := bind_eq_ok.mp h
    obtain ⟨hcount, rfl⟩ := Width.check_word_eq_ok_iff.mp hlength
    cases h
    rw [List.length_map] at hcount ⊢
    exact ⟨hwords, hcount, rfl⟩
  · rintro ⟨hwords, hcount, rfl⟩
    apply bind_eq_ok.mpr
    refine ⟨_, mapM_charWord_eq_ok_iff.mpr ⟨hwords, rfl⟩, ?_⟩
    dsimp only
    rw [List.length_map, Width.check_of_isWord hcount]
    rfl

/-- **The words of a stored text give it back.** -/
theorem encodeText_injective {s t : String} {words : List Int} (hs : encodeText s = .ok words)
    (ht : encodeText t = .ok words) : s = t := by
  obtain ⟨-, -, hs⟩ := encodeText_eq_ok_iff.mp hs
  obtain ⟨-, -, ht⟩ := encodeText_eq_ok_iff.mp ht
  obtain ⟨-, hchars⟩ := List.cons.inj (hs.symm.trans ht)
  have hcode : Function.Injective fun c : Char => (c.toNat : Int) := by
    intro c d hcd
    exact Char.toNat_inj.mp (Int.ofNat.inj hcd)
  exact String.toList_injective (hcode.list_map hchars)

/-! ## Lines that are joined -/

namespace Text

variable {lines lines' : List String}

/-- Lines without newlines that are joined by newlines are found again in the joined text. -/
theorem splitOn_join_newline (nonempty : lines ≠ []) (h : ∀ t ∈ lines, '\n' ∉ t.toList) :
    (join "\n" lines).toList.splitOn '\n' = lines.map String.toList := by
  rw [join, String.toList_intercalate]
  apply List.splitOn_intercalate
  · intro cs hcs
    obtain ⟨t, ht, rfl⟩ := List.mem_map.mp hcs
    exact h t ht
  · simpa using nonempty

theorem join_newline_injective (nonempty : lines ≠ []) (nonempty' : lines' ≠ [])
    (h : ∀ t ∈ lines, '\n' ∉ t.toList) (h' : ∀ t ∈ lines', '\n' ∉ t.toList)
    (joined : join "\n" lines = join "\n" lines') : lines = lines' := by
  have htext : Function.Injective String.toList := fun _ _ => String.toList_injective
  apply htext.list_map
  rw [← splitOn_join_newline nonempty h, ← splitOn_join_newline nonempty' h', joined]

/-- **Which lines are joined to the same text**: only no line and one empty line. -/
theorem join_newline_eq_iff (h : ∀ t ∈ lines, '\n' ∉ t.toList)
    (h' : ∀ t ∈ lines', '\n' ∉ t.toList) :
    join "\n" lines = join "\n" lines' ↔
      lines = lines' ∨ (lines = [] ∧ lines' = [""]) ∨ (lines = [""] ∧ lines' = []) := by
  have hempty : join "\n" [] = join "\n" [""] := rfl
  have hline : ∀ t ∈ [""], '\n' ∉ t.toList := by simp
  constructor
  · intro joined
    rcases eq_or_ne lines [] with rfl | hne <;> rcases eq_or_ne lines' [] with rfl | hne'
    · exact .inl rfl
    · rw [hempty] at joined
      exact .inr (.inl ⟨rfl, (join_newline_injective (by simp) hne' hline h' joined).symm⟩)
    · rw [hempty] at joined
      exact .inr (.inr ⟨join_newline_injective hne (by simp) h hline joined, rfl⟩)
    · exact .inl (join_newline_injective hne hne' h h' joined)
  · rintro (rfl | ⟨rfl, rfl⟩ | ⟨rfl, rfl⟩)
    · rfl
    · exact hempty
    · exact hempty.symm

end Text

/-! ## Reading a long string -/

/-- The lines before the terminator are taken as they stand, and those behind it are left. -/
theorem readLongString_of_closed {body rest : List SourceLine} {last : SourceLine}
    (opened : ∀ l ∈ body, l.content ≠ endLongStringName)
    (closed : last.content = endLongStringName) (texts : List String) (count : Nat) :
    readLongString texts count (body ++ last :: rest) =
      .ok ⟨texts.reverse ++ body.map SourceLine.text, rest, count + (body.length + 1)⟩ := by
  induction body generalizing texts count with
  | nil =>
    rw [List.nil_append, readLongString, if_pos closed]
    simp
  | cons l body ih =>
    obtain ⟨hl, hbody⟩ := List.forall_mem_cons.mp opened
    rw [List.cons_append, readLongString, if_neg hl, ih hbody]
    simp [Nat.add_assoc, Nat.add_comm 1]

theorem readLongString_of_open {pending : List SourceLine}
    (h : ∀ l ∈ pending, l.content ≠ endLongStringName) (texts : List String) (count : Nat) :
    readLongString texts count pending = fail .longStringNotClosed := by
  induction pending generalizing texts count with
  | nil => rfl
  | cons l pending ih =>
    obtain ⟨hl, hpending⟩ := List.forall_mem_cons.mp h
    rw [readLongString, if_neg hl, ih hpending]

namespace Layout

theorem directive_eq_readLongString {search : Search} {line : SourceLine}
    {args mode separator : String} (named : Text.words args = [mode])
    (known : longStringSeparator mode = .ok separator) (s : State) :
    directive search line .longString args s =
      s.lift (readLongString [] 0 s.cursor.pending) >>= fun taken =>
        (s.lift (encodeText (Text.join separator taken.value))).map fun words =>
          (.block words, s.take taken) := by
  have hsplit : oneOperand ".long-string" args = .ok mode := by rw [oneOperand, named]
  unfold directive
  dsimp only
  rw [hsplit]
  change (s.lift (longStringSeparator mode) >>= _) = _
  rw [known]
  rfl

/-- **What a long string takes and stores**, in either mode. If there is a terminator, the long
string takes the lines up to the first one, and stores the texts of the lines before it as they
stand, joined as the mode says. If there is none, all lines are asked for: the long string is open
on each part of them. If newlines are kept, lines without newlines are found again in what is
stored, except that no line and one empty line are stored alike. -/
theorem directive_longString (search : Search) (line : SourceLine) (s : State)
    {args mode separator : String} (named : Text.words args = [mode])
    (known : (mode, separator) ∈ [("keep-newlines", "\n"), ("strip-newlines", "")]) :
    (∀ body last rest, s.cursor.pending = body ++ last :: rest →
      (∀ l ∈ body, l.content ≠ endLongStringName) → last.content = endLongStringName →
      directive search line .longString args s =
        (s.lift (encodeText (Text.join separator (body.map SourceLine.text)))).map fun words =>
          (.block words, { s with cursor := ⟨rest, s.cursor.taken + (body.length + 1)⟩ })) ∧
    ((∀ l ∈ s.cursor.pending, l.content ≠ endLongStringName) →
      ∀ front n, front <+: s.cursor.pending →
        directive search line .longString args { s with cursor := ⟨front, n⟩ } =
          .error ⟨.ofCause .longStringNotClosed, s.log⟩) ∧
    ∀ lines lines' words words', mode = "keep-newlines" →
      (∀ t ∈ lines, '\n' ∉ t.toList) → (∀ t ∈ lines', '\n' ∉ t.toList) →
      encodeText (Text.join separator lines) = .ok words →
      encodeText (Text.join separator lines') = .ok words' →
      (words = words' ↔
        lines = lines' ∨ (lines = [] ∧ lines' = [""]) ∨ (lines = [""] ∧ lines' = [])) := by
  have hseparator : longStringSeparator mode = .ok separator := by
    have hall : ∀ pair ∈ [("keep-newlines", "\n"), ("strip-newlines", "")],
        longStringSeparator pair.1 = .ok pair.2 := by simp [longStringSeparator]
    exact hall _ known
  refine ⟨?_, ?_, ?_⟩
  · intro body last rest hpending opened closed
    rw [directive_eq_readLongString named hseparator, hpending,
      readLongString_of_closed opened closed]
    simp [bind, Except.bind, State.lift, Except.mapError, State.take]
  · intro opened front n hfront
    have hopened : ∀ l ∈ front, l.content ≠ endLongStringName := by
      intro l hl
      exact opened l (hfront.subset hl)
    rw [directive_eq_readLongString named hseparator, readLongString_of_open hopened]
    rfl
  · intro lines lines' words words' hmode hlines hlines' hwords hwords'
    obtain rfl : separator = "\n" := by
      simpa [hmode] using known
    rw [← Text.join_newline_eq_iff hlines hlines']
    constructor
    · rintro rfl
      exact encodeText_injective hwords hwords'
    · intro joined
      rw [joined] at hwords
      exact Except.ok.inj (hwords.symm.trans hwords')

/-- A long string with an indented comment, an empty line and a line that looks like a directive. It
is closed by a terminator with a comment, and open without it. Without the empty line, other words
are stored. -/
theorem directive_longString_verbatim :
    let on := fun n text => (⟨inputName, n, text, [inputName]⟩ : SourceLine)
    let search : Search := ⟨.empty [], []⟩
    let body := [on 2 " #", on 3 "", on 4 ".x"]
    let before := fun behind => State.start ⟨body ++ behind, 1⟩ .predefined
    directive search (on 1 ".long-string keep-newlines") .longString "keep-newlines"
        (before [on 5 ".end-long-string # end", on 6 "NOP"]) =
      .ok (.block [6, 32, 35, 10, 10, 46, 120],
        { before [on 5 ".end-long-string # end", on 6 "NOP"] with
          cursor := ⟨[on 6 "NOP"], 5⟩ }) ∧
    directive search (on 1 ".long-string keep-newlines") .longString "keep-newlines" (before []) =
      .error ⟨.ofCause .longStringNotClosed, #[]⟩ ∧
    (([6, 32, 35, 10, 10, 46, 120] : List Int) = [5, 32, 35, 10, 46, 120] ↔
      [" #", "", ".x"] = [" #", ".x"] ∨ ([" #", "", ".x"] = [] ∧ [" #", ".x"] = [""]) ∨
        ([" #", "", ".x"] = [""] ∧ [" #", ".x"] = [])) := by
  intro on search body before
  have named : Text.words "keep-newlines" = ["keep-newlines"] := by decide +kernel
  have known : ("keep-newlines", "\n") ∈ [("keep-newlines", "\n"), ("strip-newlines", "")] :=
    List.mem_cons_self
  have hbody : ∀ l ∈ body, l.content ≠ endLongStringName := by decide +kernel
  have hwords : encodeText (Text.join "\n" [" #", "", ".x"]) =
      .ok [6, 32, 35, 10, 10, 46, 120] := by
    decide +kernel
  refine ⟨?_, ?_, ?_⟩
  · rw [(directive_longString search _ _ named known).1 body _ _ rfl hbody (by decide +kernel)]
    change (State.lift _ (encodeText (Text.join "\n" [" #", "", ".x"]))).map _ = _
    rw [hwords]
    rfl
  · exact (directive_longString search _ (before []) named known).2.1 hbody body 1
      (List.prefix_refl _)
  · have hfewer : encodeText (Text.join "\n" [" #", ".x"]) = .ok [5, 32, 35, 10, 46, 120] := by
      decide +kernel
    exact (directive_longString search (on 1 "") (before []) named known).2.2 _ [" #", ".x"] _ _ rfl
      (by simp) (by simp) hwords hfewer

end Layout

end NibbleAsm
