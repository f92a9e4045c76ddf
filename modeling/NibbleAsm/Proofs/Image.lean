import NibbleAsm.Proofs.MachineWord
import NibbleAsm.Proofs.Meaning
import NibbleAsm.Proofs.Writing

/-!
# Images

Packing turns machine words into bytes, and unpacking is its inverse: an image has the words whose
bytes it is. A file that was written is read back by every path that leads to its place. So the
image of a program that was written is copied back word for word, into a source of its own or into a
larger one.

## Main definitions

* `SourceLine.Copies`: lines that copy a file
* `Program.CopiedFrom`: a program comes back from a file that lines copy

## Main results

* `Image.unpack_eq_ok_iff`: unpacking is the inverse of packing
* `Image.pack_eq_error_iff`, `Image.unpack_eq_error_iff`: when packing and unpacking fail
* `FirstPass.words_around`: the words of a visited line stand at the address of its command
* `assemble_copy`: the image of a program is copied back
-/

namespace NibbleAsm

open Layout

/-! ## Words and bytes -/

namespace Image

variable {name : String} {words : List Int} {bytes : List UInt8}

/-- A word is put together from its two bytes again. -/
theorem toNat_bytes {w : Int} (h : IsWord w) :
    (((UInt8.ofNat (w.toNat / 0x100)).toNat * 0x100 + (UInt8.ofNat (w.toNat % 0x100)).toNat : Nat) :
      Int) = w := by
  obtain ⟨hlo, hhi⟩ := h
  simp only [UInt8.toNat_ofNat']
  omega

/-- Two bytes are those of the word that they make. -/
theorem packWordOnto_of_bytes (high low : UInt8) (rest : List UInt8) :
    packWordOnto (high.toNat * 0x100 + low.toNat : Nat) rest = high :: low :: rest := by
  have hlow := low.toNat_lt
  have hdiv : (high.toNat * 0x100 + low.toNat) / 0x100 = high.toNat := by omega
  have hmod : (high.toNat * 0x100 + low.toNat) % 0x100 = low.toNat := by omega
  simp only [packWordOnto, Int.toNat_natCast, hdiv, hmod, UInt8.ofNat_toNat]

theorem isWord_of_bytes (high low : UInt8) :
    IsWord (high.toNat * 0x100 + low.toNat : Nat) := by
  have hhigh := high.toNat_lt
  have hlow := low.toNat_lt
  constructor <;> omega

/-- The bytes of machine words are unpacked to these words. -/
theorem unpackOnto_pack (out : List Int) (h : ∀ w ∈ words, IsWord w) :
    unpackOnto out (words.foldr packWordOnto []) = some (out.reverse ++ words) := by
  induction words generalizing out with
  | nil => simp [unpackOnto]
  | cons w words ih =>
    obtain ⟨hw, hwords⟩ := List.forall_mem_cons.mp h
    rw [List.foldr_cons, packWordOnto, unpackOnto, toNat_bytes hw, ih _ hwords]
    simp

/-- Bytes that are unpacked are those of the words found, which are machine words. -/
theorem unpackOnto_eq_some {out : List Int} (h : unpackOnto out bytes = some words) :
    ∃ found, words = out.reverse ++ found ∧ (∀ w ∈ found, IsWord w) ∧
      found.foldr packWordOnto [] = bytes := by
  -- two bytes at a time, and each pair is one of the words found
  fun_induction unpackOnto out bytes with
  | case1 out => exact ⟨[], by simpa using h.symm, by simp, rfl⟩
  | case2 => cases h
  | case3 out high low rest ih =>
    obtain ⟨found, rfl, hwords, hbytes⟩ := ih h
    refine ⟨_ :: found, by simp, List.forall_mem_cons.mpr ⟨isWord_of_bytes high low, hwords⟩, ?_⟩
    rw [List.foldr_cons, hbytes, packWordOnto_of_bytes]

theorem unpackOnto_eq_none_iff (out : List Int) (bytes : List UInt8) :
    unpackOnto out bytes = none ↔ ¬ 2 ∣ bytes.length := by
  fun_induction unpackOnto out bytes with
  | case1 => simp
  | case2 => simp
  | case3 out high low rest ih =>
    rw [ih, List.length_cons, List.length_cons]
    omega

theorem pack_eq (words : List Int) :
    pack words = if ∀ w ∈ words, IsWord w then .ok (words.foldr packWordOnto [])
      else .error (.fault .wordOutOfRange) := by
  have hall : (words.all fun w => 0 ≤ w ∧ w < 0x10000) = true ↔ ∀ w ∈ words, IsWord w := by
    simp [IsWord]
  rw [pack, if_congr hall rfl rfl]

theorem pack_eq_ok_iff :
    pack words = .ok bytes ↔ (∀ w ∈ words, IsWord w) ∧ words.foldr packWordOnto [] = bytes := by
  rw [pack_eq]
  split
  · next h => rw [Except.ok.injEq, and_iff_right h]
  · next h => exact iff_of_false (by simp) fun hwords => h hwords.1

/-- **Unpacking is the inverse of packing.** -/
theorem unpack_eq_ok_iff : unpack name bytes = .ok words ↔ pack words = .ok bytes := by
  rw [pack_eq_ok_iff]
  unfold unpack
  constructor
  · intro h
    split at h
    · next found hfound =>
      cases h
      obtain ⟨_, rfl, hwords, hbytes⟩ := unpackOnto_eq_some hfound
      exact ⟨hwords, hbytes⟩
    · cases h
  · rintro ⟨hwords, rfl⟩
    rw [unpackOnto_pack [] hwords]
    rfl

/-- Unpacking fails on the images that do not hold a whole number of words. -/
theorem unpack_eq_error_iff {f : Failure} :
    unpack name bytes = .error f ↔
      ¬ 2 ∣ bytes.length ∧ f = .ofCause (.brokenImage name bytes.length) := by
  rw [← unpackOnto_eq_none_iff []]
  unfold unpack
  cases unpackOnto [] bytes with
  | none => simp [fail, eq_comm]
  | some words => simp

/-- Packing fails on the words that are not machine words. -/
theorem pack_eq_error_iff {f : Failure} :
    pack words = .error f ↔ (∃ w ∈ words, ¬ IsWord w) ∧ f = .fault .wordOutOfRange := by
  rw [pack_eq]
  split
  · next h => exact iff_of_false (by simp) fun ⟨⟨w, hw, hbad⟩, _⟩ => hbad (h w hw)
  · next h =>
    have hbad : ∃ w ∈ words, ¬ IsWord w := by simpa using h
    rw [Except.error.injEq, and_iff_right hbad, eq_comm]

end Image

/-! ## Images that are copied -/

/-- A line copies a file: it names one that is found. -/
structure SourceLine.Copies (search : Search) (line : SourceLine) (path : FilePath) : Prop where
  keyword : line.keyword = ".copy"
  named : ∃ name, Text.words line.operandText = [name] ∧
    search.find (unquote name) line.location = .ok path

namespace Layout

variable {search : Search} {line : SourceLine} {path : FilePath} {words : List Int} {s : State}

/-- A line that copies a file places the words of its image. -/
theorem step_copy (h : line.Copies search path)
    (read : Search.readWords search.files path line.location = .ok words)
    (within : s.index + words.length ≤ addressSpace) :
    ∃ log, step search line s = .ok { s with
      index := s.index + words.length
      placed := s.placed.push (.ofLine line (.block words) s.index)
      log := log } := by
  obtain ⟨name, hwords, hfind⟩ := h.named
  have hone : oneOperand ".copy" line.operandText = .ok name := by
    rw [oneOperand, hwords]
  have directed : Directed search line line.operandText s .copy (.block words)
      { s with log := s.log } := .copy hone hfind read
  exact directed.exists_step (by rw [h.keyword]; decide +kernel) within

end Layout

namespace Assembler

variable {a b : Assembler} {fs files files' : FileSystem} {src : Source} {name : String}
  {path : FilePath} {p q : Program} {visits : List Visit} {s : State} {v : Visit}

/-- The words of a visited line stand at the address of its command. -/
theorem FirstPass.words_around (first : FirstPass a fs src visits s) (second : SecondPass s p)
    (hv : v ∈ visits) {r : Row} (hr : p.rowAt? v = some r) :
    ∃ front back, p.words = front ++ r.words ++ back ∧ (front.length : Int) = r.address := by
  obtain ⟨before, after, rfl⟩ := List.append_of_mem hv
  obtain ⟨s₁, handled, behind, hindex, sound, -⟩ := first.at_visit second
  have haddress := second.address_eq first.sound sound (handled.isPrefix_placed.trans behind) hr
  refine ⟨(p.rows.take v.state.placed.size).flatMap Row.words,
    (p.rows.drop (v.state.placed.size + 1)).flatMap Row.words, ?_, ?_⟩
  · have hrows : p.rows = p.rows.take v.state.placed.size ++
        r :: p.rows.drop (v.state.placed.size + 1) := by
      nth_rewrite 1 [← List.take_append_drop v.state.placed.size p.rows]
      rw [List.drop_eq_getElem?_toList_append, ← Program.rowAt?, hr]
      rfl
    calc p.words = p.rows.flatMap Row.words := second.words
      _ = (p.rows.take v.state.placed.size ++
            r :: p.rows.drop (v.state.placed.size + 1)).flatMap Row.words := congrArg _ hrows
      _ = _ := by simp
  · rw [haddress, hindex]
    rfl

/-- The image of a program that was written has its words, by every path that leads to it. -/
theorem readWords_of_writeBinary (written : ((writeBinary name p).exec files).result = .ok files')
    (found : files'.isFile path = .ok true) (same : files'.place path.text = files'.place name)
    (location : Option Location) : Search.readWords files' path location = .ok p.words := by
  obtain ⟨bytes, hpack, hwrite⟩ :=
    FileSystem.Written.singleton_iff.mp (writeBinary_eq_ok_iff.mp written)
  -- the image is written under the text of the path, which has the same place
  have htext : files'.place (FilePath.ofString name).text = files'.place name := by
    rw [FileSystem.place, FilePath.ofString_text]
    rfl
  have hread := FileSystem.read_of_write hwrite found (same.trans htext.symm)
  unfold Search.readWords Search.readBytes
  rw [hread]
  exact Image.unpack_eq_ok_iff.mpr hpack

end Assembler

open Assembler

/-- A program comes back from a file, named by any path that leads to its place: a source with one
line that copies the file has the words of the program, and in every program the command of such a
line has these words, at its address. -/
structure Program.CopiedFrom (files : FileSystem) (name : String) (p : Program) : Prop where
  alone : ∀ (b : Assembler) (src : Source) file text path, src.read files = .ok (file, [text]) →
    (∀ pair ∈ b.defines.toList, IsWord pair.2) →
    SourceLine.Copies ⟨files, b.directories⟩ ⟨file, 1, Text.chomp text, [file]⟩ path →
    files.place path.text = files.place name →
    ∃ q, (b.assemble files src).result = .ok q ∧ q.words = p.words
  within : ∀ (b : Assembler) (src : Source) q, (b.assemble files src).result = .ok q →
    ∃ visits s, FirstPass b files src visits s ∧ s.cursor.pending = [] ∧
      ∀ v ∈ visits, ∀ path, v.line.Copies ⟨files, b.directories⟩ path →
        files.place path.text = files.place name →
        ∃ r front back, q.rowAt? v = some r ∧ r.words = p.words ∧
          q.words = front ++ p.words ++ back ∧ (front.length : Int) = r.address

namespace Assembler

variable {b : Assembler} {files files' : FileSystem} {src : Source} {name file text : String}
  {path : FilePath} {p q : Program}

/-- A source with one line that copies an image has the words of the image. -/
theorem exists_assemble_copy {words : List Int} (read : src.read files = .ok (file, [text]))
    (defines : ∀ pair ∈ b.defines.toList, IsWord pair.2)
    (copies : SourceLine.Copies ⟨files, b.directories⟩ ⟨file, 1, Text.chomp text, [file]⟩ path)
    (image : ∀ location, Search.readWords files path location = .ok words)
    (fits : words.length ≤ addressSpace) :
    ∃ q, (b.assemble files src).result = .ok q ∧ q.words = words := by
  obtain ⟨symbols, defined⟩ := exists_defineAll .predefined defines
  let line : SourceLine := ⟨file, 1, Text.chomp text, [file]⟩
  -- the first pass handles one line, which places one command
  have hnext : (State.start (Cursor.empty.splice file [text] none) symbols).next? =
      some ⟨line, .start ⟨[], 1⟩ symbols⟩ := State.next?_of_pending rfl
  obtain ⟨log, hstep⟩ := step_copy (s := State.start ⟨[], 1⟩ symbols) copies
    (image (some line.location)) (by simpa [State.start] using fits)
  have first : FirstPass b files src _ _ := ⟨read, defined, .cons hnext hstep (.nil _)⟩
  let placed := Placed.ofLine line (.block words) 0
  have hrow : placed.row symbols.lookup =
      .ok ⟨placed.address, words, placed.location, placed.source⟩ :=
    Placed.row_eq_ok_iff.mpr ⟨words, rfl, rfl, rfl⟩
  exact ⟨⟨words, symbols.values, [_]⟩,
    assemble_eq_ok first rfl ⟨.cons hrow .nil, by simp, rfl⟩, rfl⟩

/-- A line that copies an image has the words of the image. -/
theorem FirstPass.words_of_copy {visits : List Visit} {s : State} {v : Visit} {words : List Int}
    (first : FirstPass b files src visits s) (second : SecondPass s q) (hv : v ∈ visits)
    (copies : v.line.Copies ⟨files, b.directories⟩ path)
    (image : ∀ location, Search.readWords files path location = .ok words) :
    ∃ r, q.rowAt? v = some r ∧ r.words = words := by
  obtain ⟨before, after, rfl⟩ := List.append_of_mem hv
  obtain ⟨s₁, handled, behind, -⟩ := first.at_visit second
  obtain ⟨command, mid, r, directed, hr, hwords⟩ := second.exists_row_of_named handled behind
    (d := .copy) (by rw [copies.keyword]; decide +kernel)
  cases directed with
  | copy split found read =>
    obtain ⟨operand, hoperand, hfind⟩ := copies.named
    cases hoperand.symm.trans ((proper_oneOperand _ _).of_ok split)
    cases hfind.symm.trans found
    cases (image _).symm.trans read
    exact ⟨r, hr, (Except.ok.inj hwords).symm⟩

/-- **Images keep programs.** Packing and unpacking are inverse to each other; packing fails where a
word is no machine word, and then nothing is written; unpacking fails where half a word is left. So
a program whose image is written comes back from the file. -/
theorem assemble_copy :
    (∀ words, (∀ w ∈ words, IsWord w) →
      ∃ bytes, Image.pack words = .ok bytes ∧ ∀ name, Image.unpack name bytes = .ok words) ∧
    (∀ name bytes, 2 ∣ bytes.length →
      ∃ words, Image.unpack name bytes = .ok words ∧ Image.pack words = .ok bytes) ∧
    (∀ name bytes f, Image.unpack name bytes = .error f ↔
      ¬ 2 ∣ bytes.length ∧ f = .ofCause (.brokenImage name bytes.length)) ∧
    (∀ words f, Image.pack words = .error f ↔
      (∃ w ∈ words, ¬ IsWord w) ∧ f = .fault .wordOutOfRange) ∧
    (∀ (session : Session) name words, (∃ w ∈ words, ¬ IsWord w) →
      session.perform (.writeImage name words) =
        (session, ⟨[], .error (.fault .wordOutOfRange)⟩)) ∧
    ∀ a fs src p, (assemble a fs src).result = .ok p → ∀ files name files',
      ((writeBinary name p).exec files).result = .ok files' → p.CopiedFrom files' name := by
  refine ⟨fun words h => ?_, fun name bytes h => ?_, fun name bytes f => Image.unpack_eq_error_iff,
    fun words f => Image.pack_eq_error_iff, fun session name words h => ?_, ?_⟩
  · obtain ⟨bytes, hbytes⟩ := exists_pack_eq_ok h
    exact ⟨bytes, hbytes, fun name => Image.unpack_eq_ok_iff.mpr hbytes⟩
  · cases hunpack : Image.unpack name bytes with
    | error f => exact absurd h (Image.unpack_eq_error_iff.mp hunpack).1
    | ok words => exact ⟨words, rfl, Image.unpack_eq_ok_iff.mp hunpack⟩
  · have hpack := Image.pack_eq_error_iff.mpr ⟨h, rfl⟩
    have hfiles : Session.onFiles (writeImage name words) session =
        (session, ⟨[], .error (.fault .wordOutOfRange)⟩) := by
      rw [Session.onFiles, writeImage_of_error hpack]
    have hfailed := congrArg (·.2.result) hfiles
    rw [Session.perform, Session.handle, Effect.bind_of_error hfailed, hfiles]
  · intro a fs src p hp files name files' written
    obtain ⟨_, s, first, -, second⟩ := (proper_assemble a fs src).of_ok hp
    have hsize := (coherent_of_secondPass first.sound second).size
    -- whatever path leads to the place of the file, the words of the program are found there
    have himage : ∀ search : Search, search.files = files' → ∀ line : SourceLine, ∀ path,
        line.Copies search path → files'.place path.text = files'.place name →
        ∀ location, Search.readWords files' path location = .ok p.words := by
      rintro search rfl line path copies same
      obtain ⟨_, -, hfind⟩ := copies.named
      exact readWords_of_writeBinary written (Search.find_eq_ok hfind).2 same
    constructor
    · intro b src file text path read defines copies same
      exact exists_assemble_copy read defines copies (himage _ rfl _ _ copies same) hsize
    · intro b src q hq
      obtain ⟨visits, t, first', done, second'⟩ := (proper_assemble b files' src).of_ok hq
      refine ⟨visits, t, first', done, fun v hv path copies same => ?_⟩
      obtain ⟨r, hr, hwords⟩ :=
        first'.words_of_copy second' hv copies (himage _ rfl _ _ copies same)
      obtain ⟨front, back, haround, haddress⟩ := first'.words_around second' hv hr
      exact ⟨r, front, back, hr, hwords, hwords ▸ haround, haddress⟩

/-- A program that is written under one spelling of a name and copied under another. -/
theorem assemble_copy_written :
    let a := new [] .empty
    let files := FileSystem.empty ["w"]
    let files' := files.set ["w", "p"] (.file [0x00, 0x02, 0xFF, 0xFF])
    let texts := [".word end", ".word $FFFF", "(end)"]
    ∃ p, (a.assemble files (.lines inputName texts)).result = .ok p ∧
      p.words = [2, 0xFFFF] ∧ ((writeBinary ".//p" p).exec files).result = .ok files' ∧
      p.CopiedFrom files' ".//p" ∧
      ∃ q, (a.assemble files' (.text inputName "  .copy ../w/p # again")).result = .ok q ∧
        q.words = p.words := by
  intro a files files' texts
  have hprogram : (a.assembleFor files 4 inputName texts).map Program.words =
      some [2, 0xFFFF] := by decide +kernel
  obtain ⟨p, hp, hwords⟩ := Option.map_eq_some_iff.mp hprogram
  have hok := assemble_eq_ok_of_assembleFor hp
  have hwritten : ((writeBinary ".//p" p).exec files).result = .ok files' := by
    rw [writeBinary_eq_ok_iff, hwords]
    exact FileSystem.Written.singleton_iff.mpr ⟨[0x00, 0x02, 0xFF, 0xFF], by decide, by rfl⟩
  have hcopied := assemble_copy.2.2.2.2.2 a files _ p hok files _ files' hwritten
  refine ⟨p, hok, hwords, hwritten, hcopied, ?_⟩
  refine hcopied.alone a _ inputName "  .copy ../w/p # again" (.ofString "../w/p") rfl
    (by decide) ⟨by decide +kernel, "../w/p", by decide +kernel, ?_⟩ (by decide +kernel)
  exact toOption_eq_some.mp (by decide +kernel)

end Assembler

end NibbleAsm
