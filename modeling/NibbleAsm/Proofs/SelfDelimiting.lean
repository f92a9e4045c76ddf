import NibbleAsm.Proofs.LongString
import NibbleAsm.Proofs.Numeral

/-!
# Stored texts one after the other

A text is stored as its length and its characters. A reader that takes a length and then that many
characters finds the end of the text without looking at what comes behind it, so texts that are
stored one after the other are read back in order, whatever their characters look like as lengths.

## Main definitions

* `IsStorable`: the texts that can be stored
* `decodeText`: the text in front of other words
* `decodeTexts`: a number of texts, read one after the other

## Main results

* `exists_encodeText_iff`: which texts can be stored
* `encodeText_of_wide`, `encodeText_of_long`: why other texts are refused
* `decodeText_append`, `decodeTexts_append`: stored texts are read back
* `encodeText_selfDelimiting`: stored texts are a self-delimiting code
-/

namespace NibbleAsm

/-! ## Texts that can be stored -/

/-- Texts whose length and code points are words. -/
def IsStorable (s : String) : Prop :=
  s.toList.length ≤ 0xFFFF ∧ ∀ c ∈ s.toList, c.toNat ≤ 0xFFFF

theorem isWord_natCast_iff {n : Nat} : IsWord n ↔ n ≤ 0xFFFF := by
  unfold IsWord
  omega

theorem exists_encodeText_iff {s : String} :
    (∃ words, encodeText s = .ok words) ↔ IsStorable s := by
  simp only [encodeText_eq_ok_iff, isWord_natCast_iff]
  constructor
  · rintro ⟨words, hchars, hlength, -⟩
    exact ⟨hlength, hchars⟩
  · rintro ⟨hlength, hchars⟩
    exact ⟨_, hchars, hlength, rfl⟩

theorem check_word_of_lt {n : Nat} (h : 0xFFFF < n) (shown : String) :
    Width.word.check n shown = fail (.tooLarge shown 0x10000) := by
  rw [Width.check_of_isSupported rfl, Width.limit_word, if_neg (by omega), if_neg (by omega)]

/-- A text is refused for the first character that does not fit, however long it is. -/
theorem encodeText_of_wide {s : String} {before after : List Char} {c : Char}
    (hs : s.toList = before ++ c :: after) (hbefore : ∀ d ∈ before, d.toNat ≤ 0xFFFF)
    (hc : 0xFFFF < c.toNat) :
    encodeText s = fail (.tooLarge (Text.quoteChar c) 0x10000) := by
  have hchars : s.toList.mapM charWord = fail (.tooLarge (Text.quoteChar c) 0x10000) := by
    rw [hs]
    refine mapM_of_first_error (fun d hd => ?_) (check_word_of_lt hc _)
    exact ⟨_, Width.check_of_isWord (isWord_natCast_iff.mpr (hbefore d hd)) _⟩
  unfold encodeText
  rw [hchars]
  rfl

/-- A text whose characters fit is refused if it is too long. -/
theorem encodeText_of_long {s : String} (hchars : ∀ c ∈ s.toList, c.toNat ≤ 0xFFFF)
    (hlength : 0xFFFF < s.toList.length) :
    encodeText s =
      fail (.tooLarge ("string of " ++ toString s.toList.length ++ " characters") 0x10000) := by
  have hwords : s.toList.mapM charWord = .ok (s.toList.map fun c => (c.toNat : Int)) :=
    mapM_charWord_eq_ok_iff.mpr ⟨fun c hc => isWord_natCast_iff.mpr (hchars c hc), rfl⟩
  unfold encodeText
  rw [hwords]
  change (Width.word.check ((s.toList.map _).length : Nat) _ >>= _) = _
  rw [List.length_map, check_word_of_lt hlength]
  rfl

/-! ## Reading stored texts -/

/-- The character of a word, if there is one. -/
def charOf? (w : Int) : Option Char :=
  if 0 ≤ w ∧ w.toNat.isValidChar then some (Char.ofNat w.toNat) else none

/-- The text that is stored in front of other words, and these: a length is read, and then that many
characters. -/
def decodeText : List Int → Option (String × List Int)
  | [] => none
  | length :: rest =>
    if 0 ≤ length ∧ length.toNat ≤ rest.length then
      ((rest.take length.toNat).mapM charOf?).map fun cs =>
        (String.ofList cs, rest.drop length.toNat)
    else none

/-- A number of texts that are stored in front of other words, and these. -/
def decodeTexts : Nat → List Int → Option (List String × List Int)
  | 0, words => some ([], words)
  | n + 1, words =>
    (decodeText words).bind fun first =>
      (decodeTexts n first.2).map fun others => (first.1 :: others.1, others.2)

theorem charOf?_toNat (c : Char) : charOf? c.toNat = some c := by
  have hvalid : c.toNat.isValidChar := c.valid
  rw [charOf?, Int.toNat_natCast, if_pos ⟨Int.natCast_nonneg _, hvalid⟩, Char.ofNat_toNat]

theorem mapM_charOf? (cs : List Char) :
    (cs.map fun c => (c.toNat : Int)).mapM charOf? = some cs :=
  mapM_map_of_readBack fun c _ => charOf?_toNat c

/-- **A stored text is read back**, and what comes behind it is left. -/
theorem decodeText_append {s : String} {words : List Int} (h : encodeText s = .ok words)
    (following : List Int) : decodeText (words ++ following) = some (s, following) := by
  obtain ⟨-, -, rfl⟩ := encodeText_eq_ok_iff.mp h
  have hlength : (s.toList.map fun c => (c.toNat : Int)).length = s.toList.length :=
    List.length_map _
  rw [List.cons_append, decodeText, Int.toNat_natCast, if_pos, List.take_left' hlength,
    List.drop_left' hlength, mapM_charOf?, Option.map_some, String.ofList_toList]
  exact ⟨Int.natCast_nonneg _, by rw [List.length_append, hlength]; exact Nat.le_add_right _ _⟩

/-- **Texts that are stored one after the other are read back in order**, and what comes behind them
is left. -/
theorem decodeTexts_append {texts : List String} {codes : List (List Int)}
    (h : List.Forall₂ (fun s words => encodeText s = .ok words) texts codes)
    (following : List Int) :
    decodeTexts texts.length (codes.flatten ++ following) = some (texts, following) := by
  induction h with
  | nil => rfl
  | cons hfirst _ ih =>
    -- for the first text, the others belong to what comes behind it
    rw [List.flatten_cons, List.append_assoc, List.length_cons, decodeTexts,
      decodeText_append hfirst, Option.bind_some, ih, Option.map_some]

/-- **Stored texts are a self-delimiting code.** A text can be stored exactly if it has at most
65535 characters with code points of at most `0xFFFF`. One with other characters is refused for the
first of them, also if it is too long, and one that is only too long for its length. Texts that can
be stored, one after the other and in front of any words, are read back in order by taking lengths
and characters, and exactly the words behind them are left. -/
theorem encodeText_selfDelimiting (s : String) (texts : List String) (following : List Int)
    (storable : ∀ t ∈ texts, IsStorable t) :
    ((∃ words, encodeText s = .ok words) ↔ IsStorable s) ∧
    (∀ before c after, s.toList = before ++ c :: after → (∀ d ∈ before, d.toNat ≤ 0xFFFF) →
      0xFFFF < c.toNat → encodeText s = fail (.tooLarge (Text.quoteChar c) 0x10000)) ∧
    ((∀ c ∈ s.toList, c.toNat ≤ 0xFFFF) → 0xFFFF < s.toList.length → encodeText s =
      fail (.tooLarge ("string of " ++ toString s.toList.length ++ " characters") 0x10000)) ∧
    ∃ codes, texts.mapM encodeText = .ok codes ∧
      decodeTexts texts.length (codes.flatten ++ following) = some (texts, following) := by
  refine ⟨exists_encodeText_iff, fun before c after => encodeText_of_wide, encodeText_of_long, ?_⟩
  obtain ⟨codes, hcodes⟩ : ∃ codes, texts.mapM encodeText = .ok codes :=
    exists_mapM_eq_ok fun t ht => exists_encodeText_iff.mpr (storable t ht)
  exact ⟨codes, hcodes, decodeTexts_append (mapM_eq_ok_iff.mp hcodes) following⟩

/-- Characters that look like lengths, an empty text and words that look like the start of a further
text do not mislead the reader. A text that is too long as well is refused for its character. -/
theorem encodeText_selfDelimiting_mixed :
    (∃ codes, ["\x02a", "", "\x00\x01b"].mapM encodeText = .ok codes ∧
      decodeTexts 3 (codes.flatten ++ [2, 97]) = some (["\x02a", "", "\x00\x01b"], [2, 97])) ∧
    encodeText (String.ofList ('a' :: '😀' :: List.replicate 0x10000 'b')) =
      fail (.tooLarge (Text.quoteChar '😀') 0x10000) := by
  have storable : ∀ t ∈ ["\x02a", "", "\x00\x01b"], IsStorable t := by
    simp [IsStorable]
  obtain ⟨-, hwide, -, hread⟩ := encodeText_selfDelimiting
    (String.ofList ('a' :: '😀' :: List.replicate 0x10000 'b')) _ [2, 97] storable
  refine ⟨hread, hwide ['a'] '😀' _ String.toList_ofList ?_ (by decide)⟩
  simp

end NibbleAsm
