import NibbleAsm.Proofs.Coherence
import NibbleAsm.Proofs.Writing

/-!
# Every word is a machine word

Words come from literals, symbols, instructions, texts, padding and images, and each way has its own
checks. Together they leave no gap: the words and the symbols of a program are machine words, so its
image can be written, and no field of an instruction is ever out of range.

## Main results

* `SecondPass.isWord`: the words of a program are machine words
* `exists_pack_eq_ok`, `proper_writeBinary`: machine words can be packed and written
* `proper_encode`: an instruction has a machine word, or fails properly
* `assemble_isWord`: a program has machine words only, and no nibble is out of range
-/

namespace NibbleAsm

open Layout

variable {s : State} {p : Program}

/-- The words of a program are machine words. -/
theorem SecondPass.isWord (second : SecondPass s p) (sound : s.Sound) :
    ∀ w ∈ p.words, IsWord w := by
  intro w hw
  rw [second.words] at hw
  obtain ⟨r, hr, hw⟩ := List.mem_flatMap.mp hw
  exact (proper_rows sound).of_ok (mapM_eq_ok_iff.mpr second.rows) r hr w hw

/-- Machine words can be packed. -/
theorem exists_pack_eq_ok {words : List Int} (h : ∀ w ∈ words, IsWord w) :
    ∃ bytes, Image.pack words = .ok bytes := by
  refine ⟨words.foldr Image.packWordOnto [], ?_⟩
  rw [Image.pack, if_pos]
  exact List.all_eq_true.mpr fun w hw => decide_eq_true (h w hw)

namespace Assembler

/-- Writing the image of machine words fails only where the file system does. -/
theorem proper_writeBinary (h : ∀ w ∈ p.words, IsWord w) (fs : FileSystem) (name : String) :
    Proper (fun _ => True) (writeBinary name p fs).2.result := by
  obtain ⟨bytes, hbytes⟩ := exists_pack_eq_ok h
  have hfile : Proper (fun _ => True) (writeImage name p.words fs).2.result := by
    rw [writeImage_of_ok hbytes]
    -- what is left is the file system, whose faults are not about words
    cases hwrite : fs.write (FilePath.ofString name).text bytes with
    | ok => exact writeFile_of_ok hwrite ▸ .ok trivial
    | error => exact writeFile_of_error hwrite ▸ .error rfl
  rw [writeBinary, Effect.bind_result]
  exact hfile.bind fun _ _ => .ok trivial

theorem proper_encode (b : Bindings Int) (word args : String) :
    Bare IsWord (Instruction.encode b.scope word args) := by
  have hparse : Bare (fun i => i.fields.Fits) (Instruction.parse word args) := by
    unfold Instruction.parse
    split
    · exact proper_ofMnemonic _ _
    · exact proper_fail rfl rfl
  unfold Instruction.encode
  exact hparse.bind fun i hi => proper_word (isProper_scope b) hi

/-- **A program has machine words only**, as words and as values of symbols, so its image can be
written. **No nibble is ever out of range**: neither in an assembly, nor in an instruction or
pseudo-instruction with any operand text, in any table. -/
theorem assemble_isWord (a : Assembler) (fs : FileSystem) (src : Source) :
    (∀ p, (a.assemble fs src).result = .ok p →
      (∀ w ∈ p.words, IsWord w) ∧ (∀ pair ∈ p.symbols.toList, IsWord pair.2) ∧
      (∃ bytes, Image.pack p.words = .ok bytes) ∧
      ∀ files name, (writeBinary name p files).2.result ≠ .error (.fault .wordOutOfRange)) ∧
    (∀ value, (a.assemble fs src).result ≠ .error (.fault (.nibbleOutOfRange value))) ∧
    (∀ word args (t : SymbolTable) value,
      (Command.ofOperation word args >>= Command.words t.lookup) ≠
        .error (.fault (.nibbleOutOfRange value))) ∧
    ∀ word args (b : Bindings Int) value,
      Instruction.encode b.scope word args ≠ .error (.fault (.nibbleOutOfRange value)) := by
  refine ⟨fun p hp => ?_, fun value h => ?_, fun word args t value h => ?_,
    fun word args b value h => ?_⟩
  · obtain ⟨visits, s, first, -, second⟩ := (proper_assemble a fs src).of_ok hp
    -- the commands of a sound state fit, so their words are in range
    have hwords := second.isWord first.sound
    refine ⟨hwords, second.symbols ▸ first.sound.values, exists_pack_eq_ok hwords, ?_⟩
    intro files name h
    exact Bool.noConfusion ((proper_writeBinary hwords files name).of_error h)
  · exact Bool.noConfusion ((proper_assemble a fs src).of_error h)
  · have hproper := (proper_ofOperation word args).bind fun c hc =>
      proper_words (isProper_lookup t) hc
    exact Bool.noConfusion (hproper.of_error h)
  · exact Bool.noConfusion ((proper_encode b word args).of_error h)

/-- A program with the greatest word as a word, as a symbol and in the nibbles of instructions. -/
theorem assemble_isWord_greatest :
    let src := Source.lines inputName
      [".set top $FFFF", "WRD top RF", "SHF RF R 8 RF", "BRN RF NZP RF", ".word top"]
    let a := new [] .empty
    let files := FileSystem.empty []
    ∃ p, (a.assemble files src).result = .ok p ∧
      p.words = [0x1FFF, 0x2FFF, 0xDFFF, 0xEFF7, 0xFFFF] ∧
      (∀ w ∈ p.words, IsWord w) ∧ (∀ pair ∈ p.symbols.toList, IsWord pair.2) ∧
      (∃ bytes, Image.pack p.words = .ok bytes) ∧
      ∀ files name, (writeBinary name p files).2.result ≠ .error (.fault .wordOutOfRange) := by
  intro src a files
  have hprogram : (a.assembleFor files 6 inputName
      [".set top $FFFF", "WRD top RF", "SHF RF R 8 RF", "BRN RF NZP RF", ".word top"]).map
        Program.words = some [0x1FFF, 0x2FFF, 0xDFFF, 0xEFF7, 0xFFFF] := by decide +kernel
  obtain ⟨p, hp, hwords⟩ := Option.map_eq_some_iff.mp hprogram
  have hok := assemble_eq_ok_of_assembleFor hp
  exact ⟨p, hok, hwords, (assemble_isWord a files src).1 p hok⟩

end Assembler

end NibbleAsm
