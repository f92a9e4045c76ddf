import NibbleAsm.Proofs.Proper

/-!
# Operands and commands that fit

An operand fits a field when it is meant for the width of the field and, if it is a literal, its
value is in range; the value of a symbol is checked when it is looked up. Everything that is read
from a source fits, and the words of what fits are machine words.

## Main definitions

* `IsNibble`, `IsWord`: the values of a field and of a word
* `Operand.Fits`, `Fields.Fits`, `Command.Fits`: what has operands in range
* `ArrayBreaks`: the line at which an array breaks

## Main results

* `proper_parse`, `proper_ofOperation`: operands and instructions that are read fit
* `ends_readArray`, `proper_encodeText`, `ends_readWords`: so do arrays, texts and images
* `packWord_of_isNibble`: four nibbles make a word
* `ends_nibbles`: the fields of an instruction that fits are nibbles
* `proper_words`: the words of a command that fits are machine words
-/

namespace NibbleAsm

/-- The values of four bits. -/
def IsNibble (value : Int) : Prop :=
  0 ≤ value ∧ value < 0x10

/-- The values of sixteen bits. -/
def IsWord (value : Int) : Prop :=
  0 ≤ value ∧ value < 0x10000

instance : DecidablePred IsNibble := fun _ => inferInstanceAs (Decidable (_ ∧ _))

instance : DecidablePred IsWord := fun _ => inferInstanceAs (Decidable (_ ∧ _))

theorem Width.check_of_isWord {value : Int} (h : IsWord value) (shown : String) :
    Width.word.check value shown = .ok value := by
  have hfits : Width.word.fits value.toNat = true :=
    Width.fits_iff.mpr (by rw [Int.toNat_of_nonneg h.1]; exact h.2)
  unfold Width.check
  rw [if_neg (Int.not_lt.mpr h.1), if_neg (by decide), if_neg (by decide), if_neg (by decide),
    if_pos hfits]

/-- A number of five digits is not too long to be written. -/
theorem isOverlong_of_lt {n : Int} (h : n.natAbs < 100000) : isOverlong n = false := by
  have hdigits : (Nat.toDigits 10 n.natAbs).length ≤ 5 :=
    (Nat.length_toDigits_le_iff (by decide) (by decide)).mpr h
  exact decide_eq_false (Nat.not_lt.mpr (Nat.le_trans hdigits (by decide)))

/-- A name can be bound to every word. -/
theorem SymbolTable.checkValue_of_isWord (name : String) {value : Int} (h : IsWord value) :
    checkValue name value = .ok value := by
  have hwrite : writeDecimal value = .ok (Text.decimal value) := by
    rw [writeDecimal, isOverlong_of_lt (by have := h.1; have := h.2; omega)]
    rfl
  exact bind_eq_ok.mpr ⟨_, hwrite, Width.check_of_isWord h _⟩

/-- An operand for a field of a width, in range as far as its value is known. -/
inductive Operand.Fits (w : Width) : Operand → Prop
  | literal {value : Int} (nonneg : 0 ≤ value) (lt : value < w.limit) : Fits w (.literal value w)
  | symbol (name : String) : Fits w (.symbol name w)

/-- Operands that fit the fields of their form. -/
inductive Fields.Fits : Fields → Prop
  | plain : Fits .plain
  | byteRegister {byte target : Operand} (byteFits : byte.Fits .byte)
      (targetFits : target.Fits .nibble) : Fits (.byteRegister byte target)
  | sourceDestination {source destination : Operand} (sourceFits : source.Fits .nibble)
      (destinationFits : destination.Fits .nibble) : Fits (.sourceDestination source destination)
  | addressRegister {address stored : Operand} (addressFits : address.Fits .nibble)
      (storedFits : stored.Fits .nibble) : Fits (.addressRegister address stored)
  | threeFields {first second third : Operand} (firstFits : first.Fits .nibble)
      (secondFits : second.Fits .nibble) (thirdFits : third.Fits .nibble) :
      Fits (.threeFields first second third)
  | shift {source amount destination : Operand} (direction : Direction)
      (sourceFits : source.Fits .nibble) (amountFits : amount.Fits .word)
      (destinationFits : destination.Fits .nibble) :
      Fits (.shift source direction amount destination)
  | branch {value address : Operand} (condition : Condition) (valueFits : value.Fits .nibble)
      (addressFits : address.Fits .nibble) : Fits (.branch condition value address)
  | register {target : Operand} (targetFits : target.Fits .nibble) : Fits (.register target)

/-- Commands whose operands fit and whose known words are machine words. -/
inductive Command.Fits : Command → Prop
  | instruction {i : Instruction} (fields : i.fields.Fits) : Fits (.instruction i)
  | loadWord {value register : Operand} (valueFits : value.Fits .word)
      (registerFits : register.Fits .nibble) : Fits (.loadWord value register)
  | values {operands : List Operand} (fits : ∀ o ∈ operands, o.Fits .word) : Fits (.values operands)
  | fill (count : Nat) {value : Operand} (fits : value.Fits .word) : Fits (.fill count value)
  | block {words : List Int} (fits : ∀ w ∈ words, IsWord w) : Fits (.block words)
  | zeros (count : Nat) : Fits (.zeros count)
  | nothing : Fits .nothing

/-! ## What is read fits -/

theorem proper_parse (w : Width) (s : String) :
    Bare (Operand.Fits w) (Operand.parse w s) := by
  unfold Operand.parse
  split
  · exact (proper_parse_literal w s).map fun v hv => .literal hv.1 hv.2
  · exact .ok (.symbol s)

section Reading

variable {E : Failure → Prop} (reports : Reports E)

include reports

theorem ends_parse_direction (s : String) :
    Ends E (fun d => s = if d = .left then "L" else "R") (Direction.parse s) := by
  unfold Direction.parse
  split
  · exact .ok rfl
  · exact .ok rfl
  · exact reports.fail rfl rfl

theorem ends_parseValue (s : String) :
    Ends E (fun c => ∃ n z p, c = .value n z p) (Condition.parseValue s) := by
  unfold Condition.parseValue
  dsimp only
  split
  · exact .ok ⟨_, _, _, rfl⟩
  · exact reports.fail rfl rfl

theorem ends_parseFlag (s : String) :
    Ends E (fun c => ∃ f, c = .flag f) (Condition.parseFlag s) := by
  unfold Condition.parseFlag
  split
  · exact .ok ⟨_, rfl⟩
  · exact .ok ⟨_, rfl⟩
  · exact .ok ⟨_, rfl⟩
  · exact reports.fail rfl rfl

theorem ends_checkShiftAmount (amount : Int) :
    Ends E (fun a => a = amount ∧ 1 ≤ amount ∧ amount ≤ 8) (checkShiftAmount amount) := by
  unfold checkShiftAmount
  split
  · next h => exact .ok ⟨rfl, h⟩
  · exact reports.fail rfl rfl

/-- Operands that are read fit their fields, and only the words among them and reports on the text
can make them fail. -/
theorem ends_parse? {form : Form} {operands : List String} {x : Except Failure Fields}
    (h : Fields.parse? form operands = some x)
    (hword : ∀ s ∈ operands, ∀ w : Width, w.isSupported = true →
      Ends E (Operand.Fits w) (Operand.parse w s)) : Ends E Fields.Fits x := by
  unfold Fields.parse? Fields.nibble at h
  split at h
  case h_1 =>
    cases h
    exact .ok .plain
  case h_2 =>
    cases h
    exact (hword _ (by simp) _ rfl).bind fun byte hbyte =>
      (hword _ (by simp) _ rfl).bind fun target htarget => .ok (.byteRegister hbyte htarget)
  case h_3 =>
    cases h
    exact (hword _ (by simp) _ rfl).bind fun source hsource =>
      (hword _ (by simp) _ rfl).bind fun dest hdest => .ok (.sourceDestination hsource hdest)
  case h_4 =>
    cases h
    exact (hword _ (by simp) _ rfl).bind fun address haddress =>
      (hword _ (by simp) _ rfl).bind fun reg hreg => .ok (.addressRegister haddress hreg)
  case h_5 =>
    cases h
    exact (hword _ (by simp) _ rfl).bind fun a ha => (hword _ (by simp) _ rfl).bind fun b hb =>
      (hword _ (by simp) _ rfl).bind fun c hc => .ok (.threeFields ha hb hc)
  case h_6 =>
    cases h
    refine (ends_parse_direction reports _).bind fun direction _ => ?_
    refine (hword _ (by simp) _ rfl).bind fun source hsource => ?_
    refine (hword _ (by simp) _ rfl).bind fun amount hamount => ?_
    refine (hword _ (by simp) _ rfl).bind fun dest hdest => ?_
    -- an amount that is a symbol is checked once its value is known
    cases hamount with
    | literal hlo hhi =>
      refine ((ends_checkShiftAmount reports _).map (S := fun _ => True) fun _ _ => trivial).bind ?_
      exact fun _ _ => .ok (.shift direction hsource (.literal hlo hhi) hdest)
    | symbol name => exact .ok (.shift direction hsource (.symbol name) hdest)
  case h_7 =>
    cases h
    exact (ends_parseValue reports _).bind fun condition _ =>
      (hword _ (by simp) _ rfl).bind fun value hvalue =>
        (hword _ (by simp) _ rfl).bind fun address haddress =>
          .ok (.branch condition hvalue haddress)
  case h_8 =>
    cases h
    -- a branch on a flag compares no register, and its field for one is zero
    exact (ends_parseFlag reports _).bind fun condition _ =>
      (hword _ (by simp) _ rfl).bind fun address haddress =>
        .ok (.branch condition (.literal (by decide) (by decide)) haddress)
  case h_9 =>
    cases h
    exact (hword _ (by simp) _ rfl).bind fun target htarget => .ok (.register htarget)
  case h_10 => cases h

theorem ends_ofMnemonic (m : Mnemonic) (args : String)
    (hword : ∀ s ∈ Text.words args, ∀ w : Width, w.isSupported = true →
      Ends E (Operand.Fits w) (Operand.parse w s)) :
    Ends E (fun i => i.fields.Fits) (Instruction.ofMnemonic m args) := by
  unfold Instruction.ofMnemonic
  dsimp only
  split
  · next h => exact (ends_parse? reports h hword).map fun _ hfields => hfields
  · exact reports.fail rfl rfl

end Reading

theorem proper_ofMnemonic (m : Mnemonic) (args : String) :
    Bare (fun i => i.fields.Fits) (Instruction.ofMnemonic m args) :=
  ends_ofMnemonic reports_isAt m args fun s _ w _ => proper_parse w s

theorem proper_rewrite (r : Pseudo.Rewrite) (name args : String) :
    Bare (fun i => i.fields.Fits) (r.expand name args) :=
  (proper_splitOperands _ _ _ _).bind fun _ _ => proper_ofMnemonic _ _

theorem proper_expand (p : Pseudo) (args : String) :
    Bare Command.Fits (p.expand args) := by
  unfold Pseudo.expand
  split
  · exact (proper_rewrite _ _ _).map fun _ hi => .instruction hi
  · exact (proper_twoOperands _ _).bind fun _ _ => (proper_parse _ _).bind fun value hvalue =>
      (proper_parse _ _).bind fun register hregister => .ok (.loadWord hvalue hregister)

/-- **Every instruction and pseudo-instruction that is read fits.** -/
theorem proper_ofOperation (word args : String) :
    Bare Command.Fits (Command.ofOperation word args) := by
  unfold Command.ofOperation
  split
  · exact (proper_ofMnemonic _ _).map fun _ hi => .instruction hi
  · unfold Command.ofPseudo
    split
    · exact proper_expand _ _
    · exact proper_fail rfl rfl

/-- What stands on the lines before an array's line only stands in front of its elements. -/
theorem arrayLine_eq (elements : Array Operand) (text : String) :
    arrayLine elements text = (arrayLine #[] text).map fun p => (elements ++ p.1, p.2) := by
  have happend : ∀ more : List Operand,
      elements ++ more = elements ++ ((#[] : Array Operand) ++ more) := by
    intro more
    apply Array.toList_inj.mp
    simp
  unfold arrayLine
  dsimp only
  split
  · rfl
  · split
    · rw [happend]
      rfl
    · split
      · rw [happend]
        rfl
      · rfl

theorem arrayLine_eq_error_iff {elements : Array Operand} {text : String} {f : Failure} :
    arrayLine elements text = .error f ↔ arrayLine #[] text = .error f := by
  rw [arrayLine_eq]
  cases arrayLine #[] text <;> simp [Except.map]

theorem exists_arrayLine_eq_ok {elements more : Array Operand} {text : String} {closed : Bool}
    (h : arrayLine elements text = .ok (more, closed)) :
    ∃ own, arrayLine #[] text = .ok (own, closed) := by
  rw [arrayLine_eq] at h
  cases hline : arrayLine #[] text with
  | error f => simp [hline, Except.map] at h
  | ok p =>
    simp only [hline, Except.map, Except.ok.injEq, Prod.mk.injEq] at h
    exact ⟨p.1, by rw [← h.2]⟩

theorem proper_arrayLine {elements : Array Operand} (hfits : ∀ o ∈ elements, o.Fits .word)
    (text : String) :
    Bare (fun p => ∀ o ∈ p.1, o.Fits .word) (arrayLine elements text) := by
  have hmore : Bare (fun os => ∀ o ∈ os, o.Fits .word)
      ((Text.words (Text.cutAt ']' text).1).mapM (Operand.parse .word)) :=
    .mapM fun _ _ => proper_parse _ _
  have happend : ∀ more : List Operand, (∀ o ∈ more, o.Fits .word) →
      ∀ o ∈ elements ++ more, o.Fits .word := by
    intro more h o ho
    rw [← Array.mem_toList_iff, Array.toList_appendList, List.mem_append] at ho
    rcases ho with ho | ho
    · exact hfits o (Array.mem_toList_iff.mp ho)
    · exact h o ho
  unfold arrayLine
  dsimp only
  split
  · next h => exact .error (hmore.of_error h)
  · next more h =>
    split
    · exact .ok (happend more (hmore.of_ok h))
    · split
      · exact .ok (happend more (hmore.of_ok h))
      · exact proper_fail rfl rfl

/-- An array breaks at a line: it is open on all lines before, and the line has an element that is
none, or text behind the bracket. `text` is what is left of the line `line`. -/
inductive ArrayBreaks (l : SourceLine) (f : Failure) :
    SourceLine → String → List SourceLine → Prop
  | here {text : String} {pending : List SourceLine} (failed : arrayLine #[] text = .error f) :
      ArrayBreaks l f l text pending
  | behind {line next : SourceLine} {text : String} {elements : Array Operand}
      {rest : List SourceLine} (opened : arrayLine #[] text = .ok (elements, false))
      (breaks : ArrayBreaks l f next next.content rest) : ArrayBreaks l f line text (next :: rest)

/-- The failure of a line that breaks an array has no place yet. -/
theorem ArrayBreaks.isAt {l line : SourceLine} {f : Failure} {text : String}
    {pending : List SourceLine} (h : ArrayBreaks l f line text pending) : f.IsAt none false := by
  induction h with
  | here failed => exact (proper_arrayLine (by simp) _).of_error failed
  | behind _ _ ih => exact ih

/-- The elements of an array fit, and the lines behind it are a tail of the lines to be read. An
array that fails breaks at a line, where its failure is placed, or it is not closed. -/
theorem ends_readArray (line : SourceLine) (text : String) {elements : Array Operand}
    (hfits : ∀ o ∈ elements, o.Fits .word) (count : Nat) (pending : List SourceLine) :
    Ends (fun f => f.IsAt none false ∨ ∃ l g, ArrayBreaks l g line text pending ∧
        f = g.locate l.location (some l.text))
      (fun taken => (∀ o ∈ taken.value, o.Fits .word) ∧ taken.rest <:+ pending)
      (readArray line text elements count pending) := by
  -- on the lines to be read, of which an array that is not closed takes the next one
  induction pending generalizing line text elements count with
  | nil =>
    have hline := proper_arrayLine hfits text
    unfold readArray
    split
    · next f h =>
      exact .error (.inr ⟨line, f, .here (arrayLine_eq_error_iff.mp h), rfl⟩)
    · next h => exact .ok ⟨by simpa using hline.of_ok h, List.suffix_rfl⟩
    · exact .error (.inl ⟨rfl, rfl, rfl, rfl⟩)
  | cons next rest ih =>
    have hline := proper_arrayLine hfits text
    unfold readArray
    split
    · next f h =>
      exact .error (.inr ⟨line, f, .here (arrayLine_eq_error_iff.mp h), rfl⟩)
    · next h => exact .ok ⟨by simpa using hline.of_ok h, List.suffix_rfl⟩
    · next more h =>
      obtain ⟨own, hown⟩ := exists_arrayLine_eq_ok h
      have hrest := ih next next.content (hline.of_ok h) (count + 1)
      refine (hrest.mono fun taken ht => ⟨ht.1, ht.2.trans (List.suffix_cons _ _)⟩).mono_error ?_
      exact fun f hf => hf.imp_right fun ⟨l, g, hbreaks, hf⟩ => ⟨l, g, .behind hown hbreaks, hf⟩

/-- The words of a stored text are machine words: its length and its characters. -/
theorem proper_encodeText (s : String) :
    Bare (fun words => ∀ w ∈ words, IsWord w) (encodeText s) := by
  unfold encodeText
  have hchars : Bare (fun words => ∀ w ∈ words, IsWord w) (s.toList.mapM charWord) :=
    .mapM fun c _ => (proper_check _ _ _).mono fun v hv => hv.1 ▸ hv.2
  refine hchars.bind fun characters hc => ?_
  refine (proper_check _ _ _).bind fun length hl => .ok ?_
  exact List.forall_mem_cons.mpr ⟨hl.1 ▸ hl.2, hc⟩

theorem isWord_of_mem_unpackOnto {bytes : List UInt8} {out words : List Int}
    (h : Image.unpackOnto out bytes = some words) (hout : ∀ w ∈ out, IsWord w) :
    ∀ w ∈ words, IsWord w := by
  fun_induction Image.unpackOnto out bytes with
  | case1 out =>
    cases h
    exact fun w hw => hout w (List.mem_reverse.mp hw)
  | case2 => cases h
  | case3 out high low rest ih =>
    -- two bytes make a word, the high one first
    refine ih h (List.forall_mem_cons.mpr ⟨?_, hout⟩)
    have hhigh := high.toNat_lt
    have hlow := low.toNat_lt
    exact ⟨by omega, by omega⟩

theorem proper_unpack (name : String) (bytes : List UInt8) :
    Bare (fun words => ∀ w ∈ words, IsWord w) (Image.unpack name bytes) := by
  unfold Image.unpack
  split
  · next h => exact .ok (isWord_of_mem_unpackOnto h (List.forall_mem_nil _))
  · exact proper_fail rfl rfl

/-- The words of an image are machine words. A file that cannot be read is reported with a place,
and a file that is no image without. -/
theorem ends_readWords (fs : FileSystem) (path : FilePath) (location : Option Location) :
    Ends (fun f => f.IsAt none false ∨ f.IsAt location true) (fun words => ∀ w ∈ words, IsWord w)
      (Search.readWords fs path location) :=
  ((proper_readBytes fs path location).mono_error fun _ => .inr).bind fun _ _ =>
    (proper_unpack _ _).mono_error fun _ => .inl

/-! ## Nibbles and words -/

theorem isNibble_opcode (m : Mnemonic) : IsNibble m.opcode := by
  cases m <;> decide

theorem isNibble_condition (c : Condition) : IsNibble c.nibble := by
  cases c with
  | value n z p => cases n <;> cases z <;> cases p <;> decide
  | flag f => cases f <;> decide

theorem isNibble_splitNibbles (value : Int) (h : 0 ≤ value ∧ value < 0x100) :
    IsNibble (splitNibbles value).1 ∧ IsNibble (splitNibbles value).2 := by
  unfold IsNibble splitNibbles
  omega

/-- Four nibbles make a word. -/
theorem packWord_of_isNibble {opcode a b c : Int} (ho : IsNibble opcode) (ha : IsNibble a)
    (hb : IsNibble b) (hc : IsNibble c) :
    packWord opcode a b c = .ok (opcode * 0x1000 + a * 0x100 + b * 0x10 + c) := by
  have hcheck : ∀ {v : Int}, IsNibble v → checkNibble v = .ok () := by
    intro v hv
    rw [checkNibble, if_pos ⟨hv.1, Int.lt_add_one_iff.mp hv.2⟩]
  rw [packWord, hcheck ho, hcheck ha, hcheck hb, hcheck hc]
  rfl

theorem isWord_of_isNibble {opcode a b c : Int} (ho : IsNibble opcode) (ha : IsNibble a)
    (hb : IsNibble b) (hc : IsNibble c) :
    IsWord (opcode * 0x1000 + a * 0x100 + b * 0x10 + c) := by
  unfold IsNibble at ho ha hb hc
  unfold IsWord
  omega

theorem ends_packWord {E : Failure → Prop} {opcode a b c : Int} (ho : IsNibble opcode)
    (ha : IsNibble a) (hb : IsNibble b) (hc : IsNibble c) :
    Ends E IsWord (packWord opcode a b c) := by
  rw [packWord_of_isNibble ho ha hb hc]
  exact .ok (isWord_of_isNibble ho ha hb hc)

/-! ## The words of what fits -/

section Resolving

variable {E : Failure → Prop} {scope : Scope} (reports : Reports E)
  (hresolve : ∀ {w : Width} {o : Operand}, w.isSupported = true → o.Fits w →
    Ends E (fun v => 0 ≤ v ∧ v < w.limit) (o.resolve scope))

include reports hresolve

/-- The three fields of an instruction that fits are nibbles. -/
theorem ends_nibbles {f : Fields} (hf : f.Fits) :
    Ends E (fun p => IsNibble p.1 ∧ IsNibble p.2.1 ∧ IsNibble p.2.2) (f.nibbles scope) := by
  have hzero : IsNibble 0 := by decide
  unfold Fields.nibbles
  cases hf with
  | plain => exact .ok ⟨hzero, hzero, hzero⟩
  | byteRegister hbyte htarget =>
    refine (hresolve rfl hbyte).bind fun value hvalue => ?_
    have hsplit := isNibble_splitNibbles value hvalue
    exact (hresolve rfl htarget).bind fun target ht => .ok ⟨hsplit.1, hsplit.2, ht⟩
  | sourceDestination hsource hdest =>
    exact (hresolve rfl hsource).bind fun source hs =>
      (hresolve rfl hdest).bind fun dest hd => .ok ⟨hs, hzero, hd⟩
  | addressRegister haddress hstored =>
    exact (hresolve rfl haddress).bind fun address ha =>
      (hresolve rfl hstored).bind fun stored hs => .ok ⟨ha, hs, hzero⟩
  | threeFields hfirst hsecond hthird =>
    exact (hresolve rfl hfirst).bind fun a ha => (hresolve rfl hsecond).bind fun b hb =>
      (hresolve rfl hthird).bind fun c hc => .ok ⟨ha, hb, hc⟩
  | shift direction hsource hamount hdest =>
    refine (hresolve rfl hamount).bind fun value _ => ?_
    refine (ends_checkShiftAmount reports value).bind fun amount hamount => ?_
    refine (hresolve rfl hsource).bind fun source hs => ?_
    refine (hresolve rfl hdest).bind fun dest hd => .ok ⟨hs, ?_, hd⟩
    -- one to eight, less one, and eight more for a shift to the right
    unfold IsNibble
    dsimp only
    split <;> omega
  | branch condition hvalue haddress =>
    exact (hresolve rfl hvalue).bind fun value hv => (hresolve rfl haddress).bind fun address ha =>
      .ok ⟨hv, ha, isNibble_condition condition⟩
  | register htarget =>
    exact (hresolve rfl htarget).bind fun target ht => .ok ⟨hzero, hzero, ht⟩

theorem ends_word {i : Instruction} (hi : i.fields.Fits) : Ends E IsWord (i.word scope) := by
  unfold Instruction.word
  refine (ends_nibbles reports hresolve hi).bind fun p hp => ?_
  exact ends_packWord (isNibble_opcode _) hp.1 hp.2.1 hp.2.2

end Resolving

section Words

variable {scope : Scope} (hscope : scope.IsProper)

include hscope

/-- The value of an operand that fits is in range, whatever its symbol stands for. -/
theorem proper_resolve {w : Width} {o : Operand} (ho : o.Fits w) :
    Bare (fun v => 0 ≤ v ∧ v < w.limit) (o.resolve scope) := by
  cases ho with
  | literal hlo hhi => exact .ok ⟨hlo, hhi⟩
  | symbol name =>
    unfold Operand.resolve
    exact (hscope name).bind fun _ _ => (proper_check _ _ _).mono fun v hv => hv.1 ▸ hv.2

theorem proper_word {i : Instruction} (hi : i.fields.Fits) : Bare IsWord (i.word scope) :=
  ends_word reports_isAt (fun _ => proper_resolve hscope) hi

/-- **The words of a command that fits are machine words**, and no field of them is out of range. -/
theorem proper_words {c : Command} (hc : c.Fits) :
    Bare (fun words => ∀ w ∈ words, IsWord w) (c.words scope) := by
  unfold Command.words
  cases hc with
  | instruction hfields =>
    exact (proper_word hscope hfields).bind fun w hw => .ok (List.forall_mem_singleton.mpr hw)
  | loadWord hvalue hregister =>
    refine (proper_resolve hscope hvalue).bind fun value hv => ?_
    refine (proper_resolve hscope hregister).bind fun register hr => ?_
    rw [Width.limit_word] at hv
    -- the two bytes of a word are two nibbles each
    have hhigh := isNibble_splitNibbles (value / 0x100) (by omega)
    have hlow := isNibble_splitNibbles (value % 0x100) (by omega)
    refine (ends_packWord (isNibble_opcode _) hhigh.1 hhigh.2 hr).bind fun high hh => ?_
    refine (ends_packWord (isNibble_opcode _) hlow.1 hlow.2 hr).bind fun low hl => .ok ?_
    exact List.forall_mem_cons.mpr ⟨hh, List.forall_mem_singleton.mpr hl⟩
  | values hfits => exact .mapM fun o ho => proper_resolve hscope (hfits o ho)
  | fill count hfits =>
    exact (proper_resolve hscope hfits).bind fun value hv =>
      .ok fun w hw => List.eq_of_mem_replicate hw ▸ hv
  | block hfits => exact .ok hfits
  | zeros count => exact .ok fun w hw => List.eq_of_mem_replicate hw ▸ by decide
  | nothing => exact .ok (List.forall_mem_nil _)

end Words

end NibbleAsm
