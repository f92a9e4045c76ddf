import NibbleAsm.Proofs.Assembly

/-!
# Reading a source from a file

The text of a file is its bytes read as UTF-8, with line feeds in place of carriage returns, and is
then divided into lines. Two facts make this the same as dividing the text itself. Decoding undoes
encoding, one character after the other, whatever bytes follow. And a carriage return that becomes a
line feed, alone or with the line feed behind it, breaks the text at the same place as before, so
that the other line breaks around it do not matter.

## Main results

* `Text.lines_unifyFeeds`: line feeds in place of carriage returns leave the lines as they are
* `Text.Utf8.decodeFrom_encodeChar`, `Text.Utf8.decode_encode`: decoding undoes encoding
* `Search.readLines_of_read`: the lines of a file are those of its text
* `Assembler.assemble_file`: a file is assembled as its text is
-/

namespace NibbleAsm

namespace Text

/-! ## Line feeds -/

section LineTail

variable {t u : LineTail} {c : Char}

/-- A line break ends a line, unless it is the first half of another. -/
theorem LineTail.lines_cons_of_isLineBreak (hc : isLineBreak c = true)
    (alone : c = '\r' → t.feed = false) : (t.cons c).lines = [] :: t.lines := by
  have hwhole : ¬(c = '\r' ∧ t.feed = true) := fun ⟨hr, hfeed⟩ => by simp [alone hr] at hfeed
  rw [LineTail.cons, if_neg hwhole, if_pos hc]

/-- What follows a character counts by its lines alone, unless the character is a carriage
return. -/
theorem LineTail.lines_cons_congr (hc : c ≠ '\r') (h : t.lines = u.lines) :
    (t.cons c).lines = (u.cons c).lines := by
  simp only [LineTail.cons, hc, false_and, if_false, h]

theorem LineTail.feed_cons (hc : c ≠ '\r') : (t.cons c).feed = decide (c = '\n') := by
  simp only [LineTail.cons, hc, false_and, if_false]
  split
  · rfl
  · next hbreak =>
    have hfeed : c ≠ '\n' := fun h => hbreak (by rw [h]; decide)
    split <;> simp [hfeed]

end LineTail

/-- Both folds look one character ahead in the text as it was, and behind the point they have come
to the lines are the same. -/
theorem foldr_feedTail (cs : List Char) :
    (cs.foldr FeedTail.cons ⟨[], false⟩).feed = (cs.foldr LineTail.cons ⟨[], false⟩).feed ∧
    ((cs.foldr FeedTail.cons ⟨[], false⟩).text.foldr LineTail.cons ⟨[], false⟩).lines =
      (cs.foldr LineTail.cons ⟨[], false⟩).lines := by
  induction cs with
  | nil => exact ⟨rfl, rfl⟩
  | cons c cs ih =>
    obtain ⟨hfeed, hlines⟩ := ih
    rw [List.foldr_cons, List.foldr_cons]
    generalize cs.foldr FeedTail.cons ⟨[], false⟩ = t at hfeed hlines ⊢
    generalize cs.foldr LineTail.cons ⟨[], false⟩ = u at hfeed hlines ⊢
    by_cases hc : c = '\r'
    · subst hc
      cases hu : u.feed with
      | true =>
        -- the line feed behind the carriage return has made the break already
        simp only [FeedTail.cons, LineTail.cons, hfeed, hu, and_self, if_true]
        exact ⟨trivial, hlines⟩
      | false =>
        have ht : t.cons '\r' = ⟨'\n' :: t.text, false⟩ := by simp [FeedTail.cons, hfeed, hu]
        rw [ht, List.foldr_cons, LineTail.lines_cons_of_isLineBreak (by decide) (by simp),
          LineTail.lines_cons_of_isLineBreak (c := '\r') (by decide) (fun _ => hu), hlines]
        exact ⟨by simp [LineTail.cons, hu, isLineBreak], rfl⟩
    · have ht : t.cons c = ⟨c :: t.text, decide (c = '\n')⟩ := by simp [FeedTail.cons, hc]
      rw [ht, List.foldr_cons]
      exact ⟨(LineTail.feed_cons hc).symm, LineTail.lines_cons_congr hc hlines⟩

/-- Line feeds in place of carriage returns leave the lines of a text as they are. -/
theorem lines_unifyFeeds (cs : List Char) :
    lines (String.ofList (unifyFeeds cs)) = lines (String.ofList cs) := by
  rw [lines, lines, String.toList_ofList, String.toList_ofList, unifyFeeds, (foldr_feedTail cs).2]

namespace Utf8

/-! ## Bytes -/

theorem toNat_byte {n : Nat} (h : n < 0x100) : (byte n).toNat = n :=
  UInt8.toNat_ofNat_of_lt' h

theorem isContinuation_byte {n : Nat} (hn : n < 0x40) :
    isContinuation (byte (0x80 + n)) = true := by
  have hbyte := toNat_byte (show 0x80 + n < 0x100 by omega)
  simp only [isContinuation, hbyte, Bool.and_eq_true, decide_eq_true_eq]
  omega

theorem payload_byte {n : Nat} (hn : n < 0x40) : payload (byte (0x80 + n)) = n := by
  have hbyte := toNat_byte (show 0x80 + n < 0x100 by omega)
  unfold payload
  omega

/-- The second bytes that may follow a first byte, by the six bits that they hold. -/
theorem isSecond_byte {m n : Nat} (hm : m < 0x100) (hn : n < 0x40)
    (least : (m = 0xE0 → 0x20 ≤ n) ∧ (m = 0xF0 → 0x10 ≤ n))
    (greatest : (m = 0xED → n < 0x20) ∧ (m = 0xF4 → n < 0x10)) :
    isSecond (byte m) (byte (0x80 + n)) = true := by
  have heq (k : Nat) (hk : k < 0x100) : byte m = byte k ↔ m = k := by
    rw [← UInt8.toNat_inj, toNat_byte hm, toNat_byte hk]
  have hE0 : byte m = 0xE0 ↔ m = 0xE0 := heq 0xE0 (by decide)
  have hED : byte m = 0xED ↔ m = 0xED := heq 0xED (by decide)
  have hF0 : byte m = 0xF0 ↔ m = 0xF0 := heq 0xF0 (by decide)
  have hF4 : byte m = 0xF4 ↔ m = 0xF4 := heq 0xF4 (by decide)
  have hbyte := toNat_byte (show 0x80 + n < 0x100 by omega)
  simp only [isSecond, isContinuation_byte hn, Bool.true_and, hbyte, hE0, hED, hF0, hF4]
  split_ifs <;> simp only [decide_eq_true_eq] <;> omega

section Sequences

variable {position : Nat} {out : List Char} {rest : List UInt8} {k l m n : Nat}

theorem decodeFrom_one (hn : n < 0x80) :
    decodeFrom position out (byte n :: rest) =
      decodeFrom (position + 1) (Char.ofNat n :: out) rest := by
  rw [decodeFrom.eq_def]
  dsimp only
  rw [toNat_byte (by omega), if_pos hn]

theorem decodeFrom_two (hm : 2 ≤ m ∧ m < 0x20) (hn : n < 0x40) :
    decodeFrom position out (byte (0xC0 + m) :: byte (0x80 + n) :: rest) =
      decodeFrom (position + 2) (Char.ofNat (m * 0x40 + n) :: out) rest := by
  have hsecond := isSecond_byte (m := 0xC0 + m) (n := n) (by omega) hn (by omega) (by omega)
  rw [decodeFrom.eq_def]
  dsimp only
  rw [toNat_byte (by omega), if_neg (by omega), if_neg (by omega), if_pos (by omega)]
  simp only [hsecond, if_true, payload_byte hn, Nat.add_sub_cancel_left]

theorem decodeFrom_three (hl : l < 0x10) (hm : m < 0x40) (hn : n < 0x40)
    (least : l = 0 → 0x20 ≤ m) (greatest : l = 0xD → m < 0x20) :
    decodeFrom position out (byte (0xE0 + l) :: byte (0x80 + m) :: byte (0x80 + n) :: rest) =
      decodeFrom (position + 3) (Char.ofNat ((l * 0x40 + m) * 0x40 + n) :: out) rest := by
  have hsecond := isSecond_byte (m := 0xE0 + l) (n := m) (by omega) hm (by omega) (by omega)
  rw [decodeFrom.eq_def]
  dsimp only
  rw [toNat_byte (by omega), if_neg (by omega), if_neg (by omega), if_neg (by omega),
    if_pos (by omega)]
  simp only [hsecond, if_true, isContinuation_byte hn, payload_byte hm, payload_byte hn,
    Nat.add_sub_cancel_left]

theorem decodeFrom_four (hk : k < 5) (hl : l < 0x40) (hm : m < 0x40) (hn : n < 0x40)
    (least : k = 0 → 0x10 ≤ l) (greatest : k = 4 → l < 0x10) :
    decodeFrom position out
        (byte (0xF0 + k) :: byte (0x80 + l) :: byte (0x80 + m) :: byte (0x80 + n) :: rest) =
      decodeFrom (position + 4) (Char.ofNat (((k * 0x40 + l) * 0x40 + m) * 0x40 + n) :: out)
        rest := by
  have hsecond := isSecond_byte (m := 0xF0 + k) (n := l) (by omega) hl (by omega) (by omega)
  rw [decodeFrom.eq_def]
  dsimp only
  rw [toNat_byte (by omega), if_neg (by omega), if_neg (by omega), if_neg (by omega),
    if_neg (by omega), if_pos (by omega)]
  simp only [hsecond, if_true, isContinuation_byte hm, isContinuation_byte hn, payload_byte hl,
    payload_byte hm, payload_byte hn, Nat.add_sub_cancel_left]

end Sequences

/-- The bytes of a character are read back as the character, whatever follows them. -/
theorem decodeFrom_encodeChar (position : Nat) (out : List Char) (c : Char) (rest : List UInt8) :
    decodeFrom position out (encodeChar c ++ rest) =
      decodeFrom (position + (encodeChar c).length) (c :: out) rest := by
  have hvalid : c.toNat < 0xD800 ∨ 0xDFFF < c.toNat ∧ c.toNat < 0x110000 := c.valid
  have hchar {n : Nat} (h : n = c.toNat) : Char.ofNat n = c := by rw [h, Char.ofNat_toNat]
  unfold encodeChar
  dsimp only
  split
  · refine (decodeFrom_one (by omega)).trans ?_
    rw [Char.ofNat_toNat]
    rfl
  · split
    · refine (decodeFrom_two (by omega) (by omega)).trans ?_
      rw [hchar (by omega)]
      rfl
    · split
      · refine (decodeFrom_three (by omega) (by omega) (by omega) (by omega) (by omega)).trans ?_
        rw [hchar (by omega)]
        rfl
      · refine (decodeFrom_four (by omega) (by omega) (by omega) (by omega) (by omega)
          (by omega)).trans ?_
        rw [hchar (by omega)]
        rfl

theorem decodeFrom_encode (position : Nat) (out cs : List Char) :
    decodeFrom position out (encode cs) = .ok (out.reverse ++ cs) := by
  induction cs generalizing position out with
  | nil => rw [List.append_nil]; rfl
  | cons c cs ih =>
    rw [encode, List.flatMap_cons, decodeFrom_encodeChar]
    refine (ih _ _).trans ?_
    rw [List.reverse_cons, List.append_assoc, List.singleton_append]

/-- Decoding undoes encoding. -/
theorem decode_encode (cs : List Char) : decode (encode cs) = .ok cs :=
  decodeFrom_encode 0 [] cs

end Utf8

end Text

/-! ## Files -/

/-- The lines of a file are those of its text. -/
theorem Search.readLines_of_read {fs : FileSystem} {path : FilePath} {text : String}
    (holds : fs.read path.text = .ok (Text.Utf8.encode text.toList)) (location : Option Location) :
    Search.readLines fs path location = .ok (Text.lines text) := by
  have hbytes : Search.readBytes fs path location = .ok (Text.Utf8.encode text.toList) := by
    rw [Search.readBytes, holds]
  rw [Search.readLines, hbytes]
  simp only [bind, Except.bind, Text.Utf8.decode_encode, Text.lines_unifyFeeds,
    String.ofList_toList]

namespace Assembler

/-- **A file is assembled as its text is.** Where a file holds the UTF-8 bytes of a text, the file
and the text under the name of the file have the same program or the same failure, and the notes of
the file only start with one more. The lines are the same because line feeds in place of carriage
returns leave the lines of every text as they are. -/
theorem assemble_file {fs : FileSystem} {path : FilePath} {text : String} (a : Assembler)
    (holds : fs.read path.text = .ok (Text.Utf8.encode text.toList)) :
    (a.assemble fs (.file path)).result = (a.assemble fs (.text path.text text)).result ∧
    (a.assemble fs (.file path)).log =
      .assembling path.text :: (a.assemble fs (.text path.text text)).log ∧
    Text.lines (String.ofList (Text.unifyFeeds text.toList)) = Text.lines text := by
  have hlines := Search.readLines_of_read holds none
  have hunified := Text.lines_unifyFeeds text.toList
  rw [String.ofList_toList] at hunified
  refine ⟨?_, ?_, hunified⟩
  · simp only [assemble_result, Source.read, hlines]
    rfl
  · simp only [assemble, hlines]
    rfl

/-- A file with many kinds of line breaks, alone and next to each other. -/
theorem assemble_file_breaks :
    let text := "NOP\r\r\n(A)\x0bNOP\x0cNOP\n\r.word A\x85.word A\u2028\x1cNOP\r"
    let path := FilePath.ofString "src//a"
    let files := (FileSystem.empty ["w"]).withFile path (Text.Utf8.encode text.toList)
    let a := new [] .empty
    files.read path.text = .ok (Text.Utf8.encode text.toList) ∧
    ∃ p, (a.assemble files (.file path)).result = .ok p ∧
      (a.assemble files (.text "src/a" text)).result = .ok p ∧
      p.words = [0x7000, 0x7000, 0x7000, 1, 1, 0x7000] ∧
      p.rows.filterMap Row.location = [1, 4, 5, 7, 8, 10].map (Location.ofLine "src/a") := by
  intro text path files a
  have holds : files.read path.text = .ok (Text.Utf8.encode text.toList) :=
    toOption_eq_some.mp (by decide +kernel)
  have hprogram : (a.assembleFor files 11 "src/a" (Text.lines text)).map (fun p =>
      (p.words, p.rows.filterMap Row.location)) =
      some ([0x7000, 0x7000, 0x7000, 1, 1, 0x7000],
        [1, 4, 5, 7, 8, 10].map (Location.ofLine "src/a")) := by decide +kernel
  obtain ⟨p, hp, hrows⟩ := Option.map_eq_some_iff.mp hprogram
  have hok : (a.assemble files (.text "src/a" text)).result = .ok p :=
    assemble_eq_ok_of_assembleFor hp
  exact ⟨holds, p, (assemble_file a holds).1.trans hok, hok, Prod.mk.inj hrows⟩

end Assembler

end NibbleAsm
