import NibbleAsm.Proofs.Attribution
import NibbleAsm.Proofs.MachineWord
import NibbleAsm.Proofs.Reading
import NibbleAsm.Proofs.StoredText

/-!
# What a dump and a listing tell

A dump shows the words of a program in rows of eight, and a listing shows each command with its
address, its first words and its source. Both are texts, but nothing is lost in them: words and
addresses have four digits because they are machine words, the field of words has a fixed width,
and the source of a command does not end in a blank, so no part of it is cut off at the end of the
row. The reader of a row needs no more than the widths of its parts and looks for the number of
words from the end, where no source can hide it.

## Main definitions

* `Text.readHex4?`: the number that four digits write
* `readDump?`: the words that a dump shows
* `Row.field`, `Row.remark`: the field of words, and the remark on their number
* `Row.read?`: what a row of a listing tells

## Main results

* `Text.readHex4?_hex4`: a machine word is read back from its four digits
* `Text.lines_join`: lines that are joined by newlines are the lines of the text
* `dumpRows_eq`, `readDump?_dump`: the rows of a dump, which give back its words
* `Row.text_eq`, `Row.read?_text`: the row of a command, which gives back its parts
* `Assembler.assemble_shown`: the dump and the listing of a program are faithful
-/

namespace NibbleAsm

open Layout

/-! ## Four digits -/

namespace Text

/-- The number that four hexadecimal digits write. -/
def readHex4? (s : String) : Option Int :=
  if s.toList.length = 4 then
    (s.toList.mapM Radix.hexadecimal.digit?).map fun digits =>
      (Radix.hexadecimal.value digits : Int)
  else none

theorem digit?_digitChar :
    ∀ d < 16, Radix.hexadecimal.digit? (Nat.digitChar d).toUpper = some d := by
  decide +kernel

/-- The digits of a number give it back. -/
theorem exists_digits (n : Nat) : ∃ digits,
    List.Forall₂ (fun c d => Radix.hexadecimal.digit? c = some d)
      ((Nat.toDigits 16 n).map Char.toUpper) digits ∧ Radix.hexadecimal.value digits = n := by
  induction n using Nat.strong_induction_on with
  | _ n ih =>
    rw [Nat.toDigits_eq_if (by decide)]
    split
    · next hn =>
      refine ⟨[n], .cons (digit?_digitChar n hn) .nil, ?_⟩
      simp [Radix.value]
    · next hn =>
      -- the last digit is behind the digits of the quotient
      obtain ⟨digits, hdigits, hvalue⟩ := ih (n / 16) (by omega)
      have hlast := digit?_digitChar (n % 16) (Nat.mod_lt _ (by decide))
      refine ⟨digits ++ [n % 16], ?_, ?_⟩
      · rw [List.map_append]
        exact List.rel_append hdigits (.cons hlast .nil)
      · rw [Radix.value] at hvalue ⊢
        rw [List.foldl_append, hvalue, List.foldl_cons, List.foldl_nil]
        exact Nat.div_add_mod' n 16

theorem toList_hex4 {n : Int} (h : 0 ≤ n) :
    (hex4 n).toList = List.replicate (4 - (Nat.toDigits 16 n.natAbs).length) '0' ++
      (Nat.toDigits 16 n.natAbs).map Char.toUpper := by
  rw [hex4, if_neg (Int.not_lt.mpr h), padLeft, hexDigits, String.toList_append,
    String.toList_ofList, String.toList_ofList, String.length_ofList, List.length_map]

/-- A machine word is shown with four digits. -/
theorem length_hex4 {n : Int} (h : IsWord n) : (hex4 n).toList.length = 4 := by
  have hdigits : (Nat.toDigits 16 n.natAbs).length ≤ 4 := by
    rw [Nat.length_toDigits_le_iff (by decide) (by decide)]
    have := h.1
    have := h.2
    omega
  rw [toList_hex4 h.1, List.length_append, List.length_replicate, List.length_map]
  omega

/-- **A machine word is read back from its four digits.** -/
theorem readHex4?_hex4 {n : Int} (h : IsWord n) : readHex4? (hex4 n) = some n := by
  obtain ⟨digits, hdigits, hvalue⟩ := exists_digits n.natAbs
  -- the zeros in front do not change the value
  have hzeros (k : Nat) : ∃ padded,
      List.Forall₂ (fun c d => Radix.hexadecimal.digit? c = some d)
        (List.replicate k '0' ++ (Nat.toDigits 16 n.natAbs).map Char.toUpper) padded ∧
      Radix.hexadecimal.value padded = n.natAbs := by
    induction k with
    | zero => exact ⟨digits, hdigits, hvalue⟩
    | succ k ih =>
      obtain ⟨padded, hpadded, hvalue⟩ := ih
      refine ⟨0 :: padded, .cons (by decide) hpadded, ?_⟩
      rw [← hvalue]
      simp [Radix.value]
  obtain ⟨padded, hpadded, hvalue⟩ := hzeros (4 - (Nat.toDigits 16 n.natAbs).length)
  rw [readHex4?, if_pos (length_hex4 h), toList_hex4 h.1, mapM_eq_some_of_forall₂ hpadded,
    Option.map_some, hvalue, Int.natAbs_of_nonneg h.1]

/-- The digits of a number are not blank. -/
theorem solid_hex4 {n : Int} (h : 0 ≤ n) :
    (hex4 n).toList ≠ [] ∧ ∀ c ∈ (hex4 n).toList, isBlank c = false := by
  have hdigit : ∀ d < 16, isBlank (Nat.digitChar d).toUpper = false := by decide +kernel
  have hsign : isBlank '-' = false := by decide +kernel
  constructor
  · rw [toList_hex4 h]
    simp [Nat.toDigits_ne_nil]
  · intro c hc
    by_contra hblank
    refine not_mem_hex4 (fun d hd hd' => hblank ?_) (fun hc' => hblank ?_) n hc
    · exact hd' ▸ hdigit d hd
    · exact hc' ▸ hsign

/-! ## Lines that are joined -/

theorem isBlank_of_isLineBreak {c : Char} (h : isLineBreak c = true) : isBlank c = true := by
  have hall : ∀ n ∈ [0x0A, 0x0B, 0x0C, 0x0D, 0x1C, 0x1D, 0x1E, 0x85, 0x2028, 0x2029],
      isBlank (Char.ofNat n) = true := by decide +kernel
  have hc := hall c.toNat (List.contains_iff_mem.mp h)
  rwa [Char.ofNat_toNat] at hc

/-- Characters that end no line are put in front of the unfinished line. -/
theorem lines_foldr {row line : List Char} {more : List (List Char)} {t : LineTail}
    (h : ∀ c ∈ row, isLineBreak c = false) (ht : t.lines = line :: more) :
    (row.foldr LineTail.cons t).lines = (row ++ line) :: more := by
  induction row with
  | nil => exact ht
  | cons c row ih =>
    obtain ⟨hc, hrow⟩ := List.forall_mem_cons.mp h
    have hreturn : c ≠ '\r' := by
      rintro rfl
      cases hc
    simp [LineTail.cons, hreturn, hc, ih hrow]

theorem lines_append_newline {row : String} (h : ∀ c ∈ row.toList, isLineBreak c = false)
    (rest : String) : lines (row ++ "\n" ++ rest) = row :: lines rest := by
  have hbreak (t : LineTail) : (t.cons '\n').lines = [] :: t.lines :=
    LineTail.lines_cons_of_isLineBreak (by decide) (by simp)
  have htext : (row ++ "\n" ++ rest).toList = row.toList ++ '\n' :: rest.toList := by simp
  rw [lines, htext, List.foldr_append, List.foldr_cons, lines_foldr h (hbreak _), List.append_nil,
    List.map_cons, String.ofList_toList, lines]

theorem lines_of_unbroken {row : String} (nonempty : row.toList ≠ [])
    (h : ∀ c ∈ row.toList, isLineBreak c = false) : lines row = [row] := by
  obtain ⟨cs, c, hrow⟩ := List.eq_nil_or_concat row.toList |>.resolve_left nonempty
  rw [List.concat_eq_append] at hrow
  rw [hrow] at h
  obtain ⟨hcs, hc⟩ := List.forall_mem_append.mp h
  have hlast : (LineTail.cons c ⟨[], false⟩).lines = [[c]] := by
    simp [LineTail.cons, hc c List.mem_cons_self]
  rw [lines, hrow, List.foldr_append, List.foldr_cons, List.foldr_nil, lines_foldr hcs hlast,
    ← hrow, List.map_singleton, String.ofList_toList]

/-- **Lines that are joined by newlines are the lines of the text.** -/
theorem lines_join {rows : List String}
    (h : ∀ row ∈ rows, row.toList ≠ [] ∧ ∀ c ∈ row.toList, isLineBreak c = false) :
    lines (join "\n" rows) = rows := by
  induction rows with
  | nil => rfl
  | cons row rest ih =>
    obtain ⟨⟨nonempty, unbroken⟩, hrest⟩ := List.forall_mem_cons.mp h
    cases rest with
    | nil => exact lines_of_unbroken nonempty unbroken
    | cons next rest => rw [join_cons_cons, lines_append_newline unbroken, ih hrest]

end Text

/-! ## Dumps -/

section Dumps

variable {words : List Int} {address fuel : Nat}

/-- A row of a dump. -/
def dumpRow (address : Nat) (words : List Int) : String :=
  Text.hex4 address ++ ": " ++ showWords words

/-- The words that a row of a dump shows behind its address. -/
def readDumpRow? (row : String) : Option (List Int) :=
  (Text.words row).tail.mapM Text.readHex4?

/-- The words that a dump shows, row by row. -/
def readDump? (dump : String) : Option (List Int) :=
  ((Text.lines dump).mapM readDumpRow?).map List.flatten

/-- **The rows of a dump** show eight words each, the last one those that are left. -/
theorem dumpRows_eq (h : words.length ≤ fuel) :
    dumpRows fuel address words = (List.range ((words.length + 7) / 8)).map fun i =>
      dumpRow (address + 8 * i) ((words.drop (8 * i)).take 8) := by
  induction fuel generalizing address words with
  | zero =>
    rw [List.length_eq_zero_iff.mp (Nat.le_zero.mp h)]
    rfl
  | succ fuel ih =>
    rw [dumpRows]
    cases words with
    | nil => rfl
    | cons w ws =>
      have hdrop : ((w :: ws).drop 8).length ≤ fuel := by
        rw [List.length_drop]
        omega
      have hcount : ((w :: ws).length + 7) / 8 = (((w :: ws).drop 8).length + 7) / 8 + 1 := by
        rw [List.length_drop, List.length_cons]
        omega
      rw [if_neg (by simp), hcount, List.range_succ_eq_map, List.map_cons, List.map_map]
      refine congrArg₂ List.cons rfl ((ih hdrop).trans (List.map_congr_left fun i _ => ?_))
      -- the rows behind the first one are eight words further
      rw [Function.comp_apply, List.drop_drop, dumpWords, Nat.mul_succ, Nat.add_comm (8 * i) 8,
        Nat.add_assoc]

theorem words_showWords (h : ∀ w ∈ words, IsWord w) :
    Text.words (showWords words) = words.map Text.hex4 := by
  apply Text.words_join
  intro part hpart
  obtain ⟨w, hw, rfl⟩ := List.mem_map.mp hpart
  exact Text.solid_hex4 (h w hw).1

theorem mapM_readHex4? (h : ∀ w ∈ words, IsWord w) :
    (words.map Text.hex4).mapM Text.readHex4? = some words :=
  mapM_map_of_readBack fun w hw => Text.readHex4?_hex4 (h w hw)

theorem readDumpRow?_dumpRow (h : ∀ w ∈ words, IsWord w) :
    readDumpRow? (dumpRow address words) = some words := by
  obtain ⟨nonempty, solid⟩ := Text.solid_hex4 (Int.natCast_nonneg address)
  have hcolon : Text.isBlank ':' = false := by decide +kernel
  have hrow : dumpRow address words = Text.hex4 address ++ ":" ++ " " ++ showWords words := by
    have hmark : (": " : String) = ":" ++ " " := rfl
    rw [dumpRow, hmark, ← String.append_assoc]
  rw [readDumpRow?, hrow, Text.words_spaced, words_showWords h, List.tail_cons, mapM_readHex4? h]
  · simp
  · simpa [or_imp, forall_and, hcolon] using solid

theorem unbroken_dumpRow (h : ∀ w ∈ words, IsWord w) :
    (dumpRow address words).toList ≠ [] ∧
      ∀ c ∈ (dumpRow address words).toList, Text.isLineBreak c = false := by
  refine ⟨by simp [dumpRow], fun c hc => ?_⟩
  by_contra hbreak
  rw [Bool.not_eq_false] at hbreak
  -- line breaks are blank, and the only blanks of a row are spaces
  have hdigits {n : Int} (hn : 0 ≤ n) : c ∉ (Text.hex4 n).toList := by
    intro hmem
    have hsolid := (Text.solid_hex4 hn).2 c hmem
    rw [Text.isBlank_of_isLineBreak hbreak] at hsolid
    cases hsolid
  have hspace : c ∉ " ".toList := by
    intro hmem
    rw [List.mem_singleton.mp hmem] at hbreak
    cases hbreak
  have hmark : c ∉ ": ".toList := by
    intro hmem
    rcases List.mem_pair.mp hmem with rfl | rfl <;> cases hbreak
  have hwords : c ∉ (showWords words).toList := by
    refine Text.not_mem_join hspace fun part hpart => ?_
    obtain ⟨w, hw, rfl⟩ := List.mem_map.mp hpart
    exact hdigits (h w hw).1
  rw [dumpRow, String.toList_append, String.toList_append, List.mem_append, List.mem_append] at hc
  rcases hc with (hc | hc) | hc
  · exact hdigits (Int.natCast_nonneg _) hc
  · exact hmark hc
  · exact hwords hc

theorem unbroken_dumpRows (h : ∀ w ∈ words, IsWord w) :
    ∀ row ∈ dumpRows words.length address words,
      row.toList ≠ [] ∧ ∀ c ∈ row.toList, Text.isLineBreak c = false := by
  rw [dumpRows_eq (Nat.le_refl _)]
  intro row hrow
  obtain ⟨i, -, rfl⟩ := List.mem_map.mp hrow
  exact unbroken_dumpRow fun w hw => h w (List.mem_of_mem_drop (List.mem_of_mem_take hw))

/-- Reading the rows one after the other gives the words in order. -/
theorem mapM_readDumpRow? (hlength : words.length ≤ fuel) (h : ∀ w ∈ words, IsWord w) :
    ((dumpRows fuel address words).mapM readDumpRow?).map List.flatten = some words := by
  induction fuel generalizing address words with
  | zero =>
    rw [List.length_eq_zero_iff.mp (Nat.le_zero.mp hlength)]
    rfl
  | succ fuel ih =>
    rw [dumpRows]
    split
    · next hempty =>
      rw [List.isEmpty_iff.mp hempty]
      rfl
    · next hne =>
      have hfirst : readDumpRow? (dumpRow address (words.take dumpWords)) =
          some (words.take dumpWords) :=
        readDumpRow?_dumpRow fun w hw => h w (List.mem_of_mem_take hw)
      have hdrop : (words.drop dumpWords).length ≤ fuel := by
        have := List.length_pos_iff.mpr (mt List.isEmpty_iff.mpr hne)
        rw [List.length_drop, dumpWords]
        omega
      have hrest : ((dumpRows fuel (address + dumpWords) (words.drop dumpWords)).mapM
          readDumpRow?).map List.flatten = some (words.drop dumpWords) :=
        ih hdrop fun w hw => h w (List.mem_of_mem_drop hw)
      obtain ⟨chunks, hchunks, hflat⟩ := Option.map_eq_some_iff.mp hrest
      rw [← dumpRow, List.mapM_cons, hfirst, hchunks]
      change some (words.take dumpWords ++ chunks.flatten) = _
      rw [hflat, List.take_append_drop]

/-- **A dump gives back its words.** -/
theorem readDump?_dump {p : Program} (h : ∀ w ∈ p.words, IsWord w) :
    readDump? p.dump = some p.words := by
  rw [readDump?, Program.dump, Text.lines_join (unbroken_dumpRows h)]
  exact mapM_readDumpRow? (Nat.le_refl _) h

end Dumps

/-! ## Rows of a listing -/

namespace Text

/-- A text that ends in a character that is not blank keeps all of it. -/
theorem trimRight_append {s t : String} (nonempty : t.toList ≠ [])
    (last : ∀ c ∈ t.toList.getLast?, isBlank c = false) : trimRight (s ++ t) = s ++ t := by
  rw [trimRight, dropTail_eq_self, String.ofList_toList]
  rwa [String.toList_append, List.getLast?_append_of_ne_nil _ nonempty]

theorem words_replicate_space (k : Nat) : words (String.ofList (List.replicate k ' ')) = [] := by
  have hspace : isBlank ' ' = true := by decide +kernel
  rw [words, String.toList_ofList]
  induction k with
  | zero => rfl
  | succ k ih =>
    rw [List.replicate_succ]
    simpa [List.splitOnP_cons_eq_if_modifyHead, hspace] using ih

/-- Spaces behind words do not count. -/
theorem words_join_padded {parts : List String} (nonempty : parts ≠ [])
    (h : ∀ s ∈ parts, s.toList ≠ [] ∧ ∀ c ∈ s.toList, isBlank c = false) (k : Nat) :
    words (join " " parts ++ String.ofList (List.replicate k ' ')) = parts := by
  cases k with
  | zero => simpa using words_join h
  | succ k =>
    induction parts with
    | nil => exact absurd rfl nonempty
    | cons part rest ih =>
      obtain ⟨⟨hne, hsolid⟩, hrest⟩ := List.forall_mem_cons.mp h
      cases rest with
      | nil =>
        -- the first of the spaces ends the last word
        have hpadded : join " " [part] ++ String.ofList (List.replicate (k + 1) ' ') =
            part ++ " " ++ String.ofList (List.replicate k ' ') := by
          rw [List.replicate_succ, String.ofList_cons, ← String.append_assoc]
          rfl
        rw [hpadded, words_spaced hne hsolid, words_replicate_space]
      | cons next rest =>
        rw [join_cons_cons, String.append_assoc, words_spaced hne hsolid,
          ih (List.cons_ne_nil _ _) hrest]

end Text

/-- Words with one space between them. -/
theorem length_showWords {words : List Int} (h : ∀ w ∈ words, IsWord w) :
    (showWords words).toList.length = 5 * words.length - 1 := by
  rw [showWords]
  induction words with
  | nil => rfl
  | cons w ws ih =>
    obtain ⟨hw, hws⟩ := List.forall_mem_cons.mp h
    cases ws with
    | nil => exact Text.length_hex4 hw
    | cons v ws =>
      have hrest := ih hws
      rw [List.map_cons] at hrest
      rw [List.map_cons, List.map_cons, Text.join_cons_cons, String.toList_append,
        String.toList_append, List.length_append, List.length_append, hrest, Text.length_hex4 hw]
      simp only [List.length_cons]
      change 4 + 1 + _ = _
      omega

namespace Row

/-- The field of words: the first four, followed by dots if there are more, and spaces. -/
def field (r : Row) : String :=
  Text.padRight 23
    (showWords (r.words.take 4) ++ if 4 < r.words.length then " ..." else "")

/-- The remark on the number of words behind the source, if not all words are shown. -/
def remark (r : Row) : String :=
  if 4 < r.words.length then "   (" ++ toString r.words.length ++ " words)" else ""

/-- What can be read from a row of a listing: the address, the words that are shown, the number of
words if there are more, and the source. -/
structure Reading where
  address : Int
  shown : List Int
  count : Option Nat
  source : String
  deriving DecidableEq, Repr

/-- The number in a remark at the end of a text, and what is in front of the remark. The digits are
looked for from the end. -/
def splitRemark (cs : List Char) : Nat × String :=
  let back := cs.reverse.drop " words)".toList.length
  (Nat.ofDigitChars 10 (back.takeWhile Char.isDigit).reverse 0,
    String.ofList ((back.dropWhile Char.isDigit).drop "   (".toList.length).reverse)

/-- Reads a row of a listing by the widths of its parts. -/
def read? (row : String) : Option Reading :=
  let cs := row.toList
  let fields := Text.words (String.ofList ((cs.drop 6).take 23))
  let behind := cs.drop 31
  (Text.readHex4? (String.ofList (cs.take 4))).bind fun address =>
    if fields.getLast? = some "..." then
      (fields.dropLast.mapM Text.readHex4?).map fun shown =>
        ⟨address, shown, some (splitRemark behind).1, (splitRemark behind).2⟩
    else (fields.mapM Text.readHex4?).map fun shown => ⟨address, shown, none, String.ofList behind⟩

/-- A row whose parts can be read: it has words, its address and its words are machine words, and
its source is there and does not end in a blank. -/
structure IsShown (r : Row) : Prop where
  nonempty : r.words ≠ []
  address : IsWord r.address
  words : ∀ w ∈ r.words, IsWord w
  source : r.source.toList ≠ []
  last : ∀ c ∈ r.source.toList.getLast?, Text.isBlank c = false

variable {r : Row}

theorem last_remark (h : r.IsShown) :
    ∀ c ∈ (r.source ++ r.remark).toList.getLast?, Text.isBlank c = false := by
  unfold remark
  split
  · -- the remark ends in a parenthesis
    intro c hc
    rw [← String.append_assoc, String.toList_append,
      List.getLast?_append_of_ne_nil _ (by decide)] at hc
    cases hc
    decide +kernel
  · rw [String.append_empty]
    exact h.last

/-- **The row of a command**: nothing is cut off at its end. -/
theorem text_eq (h : r.IsShown) :
    r.text = Text.hex4 r.address ++ "  " ++ r.field ++ "  " ++ (r.source ++ r.remark) := by
  have hwhole : r.text = Text.trimRight
      (Text.hex4 r.address ++ "  " ++ r.field ++ "  " ++ (r.source ++ r.remark)) := by
    unfold text field remark
    by_cases hmany : 4 < r.words.length <;> simp [hmany, listingWords, String.append_assoc]
  rw [hwhole, Text.trimRight_append _ (last_remark h)]
  simp [h.source]

/-- The parts of the field of words. -/
def parts (r : Row) : List String :=
  (r.words.take 4).map Text.hex4 ++ if 4 < r.words.length then ["..."] else []

theorem take_ne_nil (h : r.IsShown) : (r.words.take 4).map Text.hex4 ≠ [] := by
  simp [h.nonempty]

theorem isWord_take (h : r.IsShown) : ∀ w ∈ r.words.take 4, IsWord w :=
  fun w hw => h.words w (List.mem_of_mem_take hw)

theorem field_eq (h : r.IsShown) : r.field = Text.padRight 23 (Text.join " " r.parts) := by
  unfold field parts
  by_cases hmany : 4 < r.words.length
  · rw [if_pos hmany, if_pos hmany, Text.join_concat (take_ne_nil h), String.append_assoc]
    rfl
  · rw [if_neg hmany, if_neg hmany, List.append_nil, String.append_empty]
    rfl

/-- The field of words has a fixed width. -/
theorem length_field (h : r.IsShown) : r.field.toList.length = 23 := by
  have hshown := length_showWords (isWord_take h)
  rw [List.length_take] at hshown
  have hfits : (showWords (r.words.take 4) ++
      if 4 < r.words.length then " ..." else "").toList.length ≤ 23 := by
    rw [String.toList_append, List.length_append, hshown]
    split
    · change _ + 4 ≤ 23
      omega
    · change _ + 0 ≤ 23
      omega
  rw [field, Text.padRight, String.toList_append, List.length_append, String.toList_ofList,
    List.length_replicate, ← String.length_toList]
  omega

theorem words_field (h : r.IsShown) : Text.words r.field = r.parts := by
  rw [field_eq h, Text.padRight, Text.words_join_padded]
  · simp [parts, h.nonempty]
  · have hdots : Text.isBlank '.' = false := by decide +kernel
    intro part hpart
    rcases List.mem_append.mp hpart with hpart | hpart
    · obtain ⟨w, hw, rfl⟩ := List.mem_map.mp hpart
      exact Text.solid_hex4 (isWord_take h w hw).1
    · split at hpart
      · rw [List.mem_singleton.mp hpart]
        simp [hdots]
      · cases hpart

theorem splitRemark_append (source : String) (count : Nat) :
    splitRemark (source ++ ("   (" ++ toString count ++ " words)")).toList = (count, source) := by
  have hdigits : ∀ c ∈ (Nat.toDigits 10 count).reverse, c.isDigit = true := by
    intro c hc
    exact Nat.isDigit_of_mem_toDigits (by decide) (by decide) (List.mem_reverse.mp hc)
  -- read from the end: the last word, the digits, and the parenthesis that opens the remark
  have hback : (source ++ ("   (" ++ toString count ++ " words)")).toList.reverse =
      " words)".toList.reverse ++ ((Nat.toDigits 10 count).reverse ++
        ("   (".toList.reverse ++ source.toList.reverse)) := by
    have hcount : (toString count).toList = Nat.toDigits 10 count := Nat.toList_repr
    simp only [String.toList_append, List.reverse_append, hcount, List.append_assoc]
  have hopen : ∀ c ∈ ("   (".toList.reverse ++ source.toList.reverse).head?,
      c.isDigit = false := by
    intro c hc
    cases hc
    rfl
  unfold splitRemark
  dsimp only
  rw [hback, List.drop_left' (List.length_reverse), List.takeWhile_append_of_pos hdigits,
    List.dropWhile_append_of_pos hdigits, Text.takeWhile_eq_nil hopen,
    Text.dropWhile_eq_self hopen, List.append_nil, List.reverse_reverse,
    List.drop_left' (List.length_reverse), List.reverse_reverse, String.ofList_toList,
    Nat.ofDigitChars_ten_toDigits]

/-- **The row of a command gives back its parts.** -/
theorem read?_text (h : r.IsShown) :
    read? r.text = some ⟨r.address, r.words.take 4,
      if 4 < r.words.length then some r.words.length else none, r.source⟩ := by
  have htext : r.text.toList = (Text.hex4 r.address).toList ++ ("  ".toList ++
      (r.field.toList ++ ("  ".toList ++ (r.source ++ r.remark).toList))) := by
    rw [text_eq h]
    simp only [String.toList_append, List.append_assoc]
  have hlength := length_field h
  have haddress := Text.length_hex4 h.address
  -- the widths of the parts are known
  have hdigits : r.text.toList.take 4 = (Text.hex4 r.address).toList := by
    rw [htext, List.take_left' haddress]
  have hfield : (r.text.toList.drop 6).take 23 = r.field.toList := by
    rw [htext, ← List.append_assoc, List.drop_left', List.take_left' hlength]
    rw [List.length_append, haddress]
    rfl
  have hbehind : r.text.toList.drop 31 = (r.source ++ r.remark).toList := by
    rw [htext, ← List.append_assoc, ← List.append_assoc, ← List.append_assoc, List.drop_left']
    rw [List.length_append, List.length_append, List.length_append, haddress, hlength]
    rfl
  have hshown := mapM_readHex4? (isWord_take h)
  unfold read?
  dsimp only
  rw [hdigits, hfield, hbehind, String.ofList_toList, String.ofList_toList, words_field h,
    Text.readHex4?_hex4 h.address, Option.bind_some, parts, remark]
  by_cases hmany : 4 < r.words.length
  · rw [if_pos hmany, if_pos hmany, if_pos hmany, List.getLast?_concat, if_pos rfl,
      List.dropLast_concat, hshown, splitRemark_append]
    rfl
  · rw [if_neg hmany, if_neg hmany, if_neg hmany, List.append_nil, String.append_empty,
      String.ofList_toList, if_neg, hshown]
    · rfl
    · -- no word is shown as dots
      intro hdots
      obtain ⟨w, hw, hw'⟩ := List.mem_map.mp (List.mem_of_getLast? hdots)
      have hfour := Text.length_hex4 (isWord_take h w hw)
      rw [hw'] at hfour
      cases hfour

end Row

/-! ## Rows of a program -/

theorem Text.last_trim (s : String) : ∀ c ∈ (trim s).toList.getLast?, isBlank c = false := by
  intro c hc
  rw [trim, String.toList_ofList, dropTail, List.getLast?_reverse] at hc
  exact head?_dropWhile c hc

/-- The content of a line does not end in a blank. -/
theorem SourceLine.last_content (l : SourceLine) :
    ∀ c ∈ l.content.toList.getLast?, Text.isBlank c = false := by
  unfold content stripComment
  dsimp only
  split
  · exact Text.last_trim _
  · exact Text.last_trim _

/-- A command has a source that is there and does not end in a blank. -/
structure Placed.HasSource (q : Placed) : Prop where
  nonempty : q.source.toList ≠ []
  last : ∀ c ∈ q.source.toList.getLast?, Text.isBlank c = false

theorem Placed.hasSource_ofLine {line : SourceLine} (h : line.content ≠ "") (command : Command)
    (address : Nat) : (Placed.ofLine line command address).HasSource where
  nonempty := by simpa only [Placed.ofLine, ne_eq, String.toList_eq_nil_iff] using h
  last := by simpa only [Placed.ofLine] using line.last_content

/-- A command among others that lie one behind the other stays between their ends. -/
theorem Tiles.bounds_of_mem {n m : Nat} {q : Placed} {qs : List Placed} (h : Tiles n qs m)
    (hq : q ∈ qs) : (n : Int) ≤ q.address ∧ q.address + q.command.size ≤ m := by
  have hle : ∀ {n m qs}, Tiles n qs m → n ≤ m := by
    intro n m qs h
    induction h with
    | nil => exact Nat.le_refl _
    | cons _ _ _ ih => exact Nat.le_of_add_right_le ih
  induction h with
  | nil => cases hq
  | cons address _ rest ih =>
    rcases List.mem_cons.mp hq with rfl | hq
    · have := hle rest
      omega
    · have := ih hq
      omega

namespace Layout

variable {search : Search} {s s' : State} {v : Visit} {vs : List Visit}

/-- A line without content places no command, so the source of one that is placed is there. -/
theorem hasSource_of_step (next : s.next? = some v)
    (done : step search v.line v.state = .ok s') (h : ∀ q ∈ s.placed.toList, q.HasSource) :
    ∀ q ∈ s'.placed.toList, q.HasSource := by
  rw [← (State.frame_of_next? next).2.2] at h
  rcases (handled_of_step done).extends with ⟨-, hplaced⟩ | ⟨command, -, -, -, hplaced⟩
  · rw [hplaced]
    exact h
  · have hcontent : v.line.content ≠ "" := by
      intro hempty
      have hsame : s' = v.state := by
        rw [step, hempty, if_pos rfl] at done
        exact (Except.ok.inj done).symm
      rw [hsame] at hplaced
      simpa using congrArg Array.size hplaced
    rw [hplaced, Array.toList_push]
    refine List.forall_mem_append.mpr ⟨h, ?_⟩
    intro q hq
    rw [List.mem_singleton.mp hq]
    exact Placed.hasSource_ofLine hcontent command _

theorem Trace.hasSource (trace : Trace search s vs s') (h : ∀ q ∈ s.placed.toList, q.HasSource) :
    ∀ q ∈ s'.placed.toList, q.HasSource :=
  trace.preserves (fun next done hs => hasSource_of_step next done hs) h

end Layout

namespace Assembler

variable {a : Assembler} {fs : FileSystem} {src : Source} {visits : List Visit} {s : State}
  {p : Program}

theorem FirstPass.isShown {r : Row} (first : FirstPass a fs src visits s) (second : SecondPass s p)
    (hr : r ∈ p.rows) (nonempty : r.words ≠ []) : r.IsShown := by
  have hsound := first.sound
  obtain ⟨-, -, trace⟩ := first
  have hwords := (proper_rows hsound).of_ok (mapM_eq_ok_iff.mpr second.rows) r hr
  obtain ⟨q, hq, hrow⟩ := second.exists_placed hr
  obtain ⟨words, hcommand, -, rfl⟩ := Placed.row_eq_ok_iff.mp hrow
  have hsource := trace.hasSource (by simp [State.start]) q hq
  -- a command with a word lies inside the address space, and so does its address
  have hbounds := hsound.tiles.bounds_of_mem hq
  have hwithin := hsound.within
  have hlength := List.length_pos_iff.mpr nonempty
  rw [← Command.length_words hcommand] at hbounds
  rw [addressSpace] at hwithin
  refine ⟨nonempty, ⟨hbounds.1, ?_⟩, hwords, hsource.nonempty, hsource.last⟩
  dsimp only at hlength ⊢
  omega

/-- **The dump and the listing of a program are faithful.** The dump has one row for every eight
words, the last one for those that are left. Each row starts with the address of its first word, in
four digits, and reading the words behind the addresses gives back the words of the program. In the
listing, the row of a command with words has the address in four digits, a field of 23 characters
with its first four words, dots behind them exactly if there are more, and the whole source, with
the number of words behind it exactly if not all are shown. All these are read back from the row. -/
theorem assemble_shown (h : (a.assemble fs src).result = .ok p) :
    (Text.lines p.dump).length = (p.words.length + 7) / 8 ∧
    (∀ i < (p.words.length + 7) / 8, (Text.hex4 (8 * i : Nat)).toList.length = 4 ∧
      (Text.lines p.dump)[i]? = some (Text.hex4 (8 * i : Nat) ++ ": " ++
        showWords ((p.words.drop (8 * i)).take 8))) ∧
    readDump? p.dump = some p.words ∧
    p.listing = Text.join "\n" (Program.heading ++ p.rows.map Row.text) ∧
    ∀ r ∈ p.rows, r.words ≠ [] →
      (Text.hex4 r.address).toList.length = 4 ∧ r.field.toList.length = 23 ∧
      r.text = Text.hex4 r.address ++ "  " ++ r.field ++ "  " ++ (r.source ++ r.remark) ∧
      Row.read? r.text = some ⟨r.address, r.words.take 4,
        if 4 < r.words.length then some r.words.length else none, r.source⟩ := by
  obtain ⟨visits, s, first, -, second⟩ := (proper_assemble a fs src).of_ok h
  have hwords := second.isWord first.sound
  have hsize := (coherent_of_secondPass first.sound second).size
  have hlines : Text.lines p.dump = (List.range ((p.words.length + 7) / 8)).map fun i =>
      dumpRow (8 * i) ((p.words.drop (8 * i)).take 8) := by
    rw [Program.dump, Text.lines_join (unbroken_dumpRows hwords), dumpRows_eq (Nat.le_refl _)]
    simp only [Nat.zero_add]
  refine ⟨by simp [hlines], fun i hi => ⟨?_, ?_⟩, readDump?_dump hwords, rfl, ?_⟩
  · apply Text.length_hex4
    unfold IsWord
    omega
  · rw [hlines, List.getElem?_map, List.getElem?_range hi]
    rfl
  · intro r hr nonempty
    have hshown := first.isShown second hr nonempty
    exact ⟨Text.length_hex4 hshown.address, Row.length_field hshown, Row.text_eq hshown,
      Row.read?_text hshown⟩

/-- Two commands with more than four words. The source of the second one looks as if it had a remark
of its own. -/
theorem assemble_shown_remark :
    let src := Source.lines inputName [".array [1 2 3 4 5]", ".str x   (9 words)"]
    ∃ p, ((new [] .empty).assemble (.empty []) src).result = .ok p ∧
      (Text.lines p.dump).length = 3 ∧ readDump? p.dump = some p.words ∧
      p.rows.map (fun r => Row.read? r.text) =
        [some ⟨0, [1, 2, 3, 4], some 5, ".array [1 2 3 4 5]"⟩,
          some ⟨5, [13, 120, 32, 32], some 14, ".str x   (9 words)"⟩] := by
  intro src
  have hprogram : ((new [] .empty).assembleFor (.empty []) 3 inputName
      [".array [1 2 3 4 5]", ".str x   (9 words)"]).map (fun p => (p.words.length, p.rows.map
        fun r => (r.address, r.words.take 4, r.words.length, r.source))) =
      some (19, [(0, [1, 2, 3, 4], 5, ".array [1 2 3 4 5]"),
        (5, [13, 120, 32, 32], 14, ".str x   (9 words)")]) := by
    decide +kernel
  obtain ⟨p, hp, hfacts⟩ := Option.map_eq_some_iff.mp hprogram
  have hok := assemble_eq_ok_of_assembleFor hp
  obtain ⟨hlength, hrows⟩ := Prod.mk.inj hfacts
  obtain ⟨hcount, -, hdump, -, hshown⟩ := assemble_shown hok
  refine ⟨p, hok, by rw [hcount, hlength], hdump, ?_⟩
  obtain ⟨first, second, hboth⟩ := List.length_eq_two.mp
    (by simpa using congrArg List.length hrows : p.rows.length = 2)
  rw [hboth] at hrows hshown ⊢
  simp only [List.map_cons, List.map_nil, List.cons.injEq, Prod.mk.injEq, and_true] at hrows
  obtain ⟨⟨ha, hw, hn, hs⟩, ha', hw', hn', hs'⟩ := hrows
  have hone := (hshown first (by simp) (by intro h; simp [h] at hn)).2.2.2
  have htwo := (hshown second (by simp) (by intro h; simp [h] at hn')).2.2.2
  rw [ha, hw, hn, hs] at hone
  rw [ha', hw', hn', hs'] at htwo
  rw [List.map_cons, List.map_cons, hone, htwo]
  rfl

end Assembler

end NibbleAsm
