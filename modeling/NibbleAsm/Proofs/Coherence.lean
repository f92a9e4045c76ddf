import NibbleAsm.Proofs.Assembly
import Mathlib.Data.List.Chain

/-!
# Coherence of the two passes

The first pass fixes the address of every command by the sizes of those before it, and the second
pass finds the words. Both agree: a command has as many words as its size says, whatever the values
of the symbols are, so the words of a program stand where they were laid out. No assembly ends in
a fault of the assembler itself.

## Main definitions

* `Tiles n qs m`: commands that lie one behind the other from address `n` to address `m`
* `State.Sound`: what holds in every state of a first pass
* `Program.Coherent`: the rows of a program lie one behind the other and hold its words

## Main results

* `Command.length_words`: a command has as many words as its size says
* `Sound.of_step`, `FirstPass.sound`: every state of a first pass is sound
* `proper_assemble`: an assembly makes a program in two passes, or fails properly
* `assemble_coherent`: a program is coherent
-/

namespace NibbleAsm

open Layout

/-- **A command has as many words as its size says**, whatever its symbols stand for. -/
theorem Command.length_words {c : Command} {scope : Scope} {words : List Int}
    (h : c.words scope = .ok words) : words.length = c.size := by
  cases c with
  | instruction i =>
    obtain ⟨word, -, hw⟩ := bind_eq_ok.mp h
    cases hw
    rfl
  | loadWord value register =>
    obtain ⟨v, -, h⟩ := bind_eq_ok.mp h
    obtain ⟨r, -, h⟩ := bind_eq_ok.mp h
    obtain ⟨high, -, h⟩ := bind_eq_ok.mp h
    obtain ⟨low, -, hw⟩ := bind_eq_ok.mp h
    cases hw
    rfl
  | values operands =>
    -- each operand has one word
    exact (mapM_eq_ok_iff.mp h).length_eq.symm
  | fill count value =>
    obtain ⟨v, -, hw⟩ := bind_eq_ok.mp h
    cases hw
    exact List.length_replicate
  | block ws =>
    cases h
    rfl
  | zeros count =>
    cases h
    exact List.length_replicate
  | nothing =>
    cases h
    rfl

/-! ## Commands one behind the other -/

/-- Commands that lie one behind the other, from an address to an address, each with its own
size. -/
inductive Tiles : Nat → List Placed → Nat → Prop
  | nil (n : Nat) : Tiles n [] n
  | cons {n m : Nat} {q : Placed} {qs : List Placed} (address : q.address = n)
      (size : q.size = q.command.size) (rest : Tiles (n + q.command.size) qs m) :
      Tiles n (q :: qs) m

namespace Tiles

variable {n m : Nat} {q : Placed} {qs : List Placed} {rows : List Row} {scope : Scope}

theorem snoc (h : Tiles n qs m) (address : q.address = m) (size : q.size = q.command.size) :
    Tiles n (qs ++ [q]) (m + q.command.size) := by
  induction h with
  | nil n => exact .cons address size (.nil _)
  | cons address' size' _ ih => exact .cons address' size' (ih address)

theorem size_of_mem (h : Tiles n qs m) (hq : q ∈ qs) : q.size = q.command.size := by
  induction h with
  | nil => cases hq
  | cons _ size _ ih =>
    rcases List.mem_cons.mp hq with rfl | hq
    · exact size
    · exact ih hq

/-- A command behind others has the address where these end. -/
theorem address_of_append {k : Nat} {rs : List Placed} (h : Tiles n (qs ++ q :: rs) m)
    (h' : Tiles n qs k) : q.address = k := by
  induction h' with
  | nil n =>
    cases h with
    | cons address => exact address
  | cons _ _ _ ih =>
    cases h with
    | cons _ _ rest => exact ih rest

/-- The rows of commands that lie one behind the other do so too, and their words fill the
space. -/
theorem rows_eq (h : Tiles n qs m)
    (hrows : List.Forall₂ (fun q r => q.row scope = .ok r) qs rows) :
    (∀ r ∈ rows.head?, r.address = n) ∧
      rows.IsChain (fun r r' => r'.address = r.address + (r.words.length : Int)) ∧
      n + (rows.flatMap Row.words).length = m := by
  induction h generalizing rows with
  | nil n =>
    cases hrows
    simp
  | @cons n m q qs address size _ ih =>
    cases hrows with
    | @cons _ r _ rows hr hrows =>
      obtain ⟨words, hwords, -, rfl⟩ := Placed.row_eq_ok_iff.mp hr
      -- the rows behind start at the address behind this command, which is behind its words
      obtain ⟨hhead, hchain, hlength⟩ := ih hrows
      rw [← Command.length_words hwords] at hhead hlength
      refine ⟨by simp [address], ?_, ?_⟩
      · refine hchain.cons fun r hr => ?_
        rw [hhead r hr, address]
        exact Int.natCast_add _ _
      · rw [List.flatMap_cons, List.length_append, ← Nat.add_assoc]
        exact hlength

end Tiles

/-- The rows of a program lie one behind the other from address zero, hold its words in order, and
stay inside the address space. -/
structure Program.Coherent (p : Program) : Prop where
  words : p.rows.flatMap Row.words = p.words
  first : ∀ r ∈ p.rows.head?, r.address = 0
  next : p.rows.IsChain fun r r' => r'.address = r.address + (r.words.length : Int)
  size : p.words.length ≤ 0x10000

/-! ## Every state of a first pass -/

namespace Layout

variable {search : Search} {s s' : State} {v : Visit} {vs : List Visit}

/-- What holds in every state of a first pass: its commands lie one behind the other up to the
current address, inside the address space; they fit; and the values of its symbols are words. -/
structure State.Sound (s : State) : Prop where
  tiles : Tiles 0 s.placed.toList s.index
  within : s.index ≤ addressSpace
  fits : ∀ q ∈ s.placed.toList, q.command.Fits
  values : ∀ pair ∈ s.symbols.values.toList, IsWord pair.2

theorem State.Sound.of_next? (h : s.Sound) (next : s.next? = some v) : v.state.Sound := by
  rw [(State.pending_of_next? next).2]
  exact ⟨h.tiles, h.within, h.fits, h.values⟩

theorem State.Sound.of_step (h : s.Sound) (next : s.next? = some v)
    (done : step search v.line v.state = .ok s') : s'.Sound := by
  obtain ⟨hsymbols, hindex, hplaced⟩ := State.frame_of_next? next
  -- a line binds at most one name, and to a word
  have hvalues : ∀ pair ∈ s'.symbols.values.toList, IsWord pair.2 := by
    rcases (handled_of_step done).binds with ⟨-, hs⟩ | ⟨d, value, -, -, -, hword, hs⟩
    · rw [hs, hsymbols]
      exact h.values
    · rw [hs, hsymbols]
      intro pair hpair
      rcases Bindings.mem_insertPair hpair with rfl | hpair
      · exact hword
      · exact h.values pair hpair
  -- it places at most one command, at the current address
  rcases (handled_of_step done).extends with ⟨hi, hp⟩ | ⟨command, hfits, hi, hle, hp⟩
  · rw [hindex] at hi
    rw [hplaced] at hp
    exact ⟨by rw [hi, hp]; exact h.tiles, by rw [hi]; exact h.within, by rw [hp]; exact h.fits,
      hvalues⟩
  · rw [hindex] at hi
    rw [hindex, hplaced] at hp
    have hlist := (congrArg Array.toList hp).trans (Array.toList_push ..)
    refine ⟨?_, hle, ?_, hvalues⟩
    · rw [hi, hlist]
      exact h.tiles.snoc rfl rfl
    · rw [hlist]
      intro q hq
      rcases List.mem_append.mp hq with hq | hq
      · exact h.fits q hq
      · rw [List.mem_singleton.mp hq]
        exact hfits

theorem State.Sound.of_trace (h : s.Sound) (trace : Trace search s vs s') : s'.Sound :=
  trace.preserves (fun next done hs => hs.of_step next done) h

theorem State.Sound.start {symbols : SymbolTable} (cursor : Cursor)
    (h : ∀ pair ∈ symbols.values.toList, IsWord pair.2) : (State.start cursor symbols).Sound :=
  ⟨.nil 0, Nat.zero_le _, List.forall_mem_nil _, h⟩

end Layout

/-- The row of a command that fits has machine words, as many as its size says. Its failure is that
of the words, placed at the line of the command. -/
theorem ends_row {q : Placed} {scope : Scope} (hscope : scope.IsProper) (hfits : q.command.Fits)
    (hsize : q.size = q.command.size) :
    Ends (fun f => ∃ g, q.command.words scope = .error g ∧ g.IsAt none false ∧ f = q.locate g)
      (fun r => ∀ w ∈ r.words, IsWord w) (q.row scope) := by
  unfold Placed.row
  have hwords := proper_words hscope hfits
  split
  · next g hg => exact .error ⟨g, hg, hwords.of_error hg, rfl⟩
  · next words hok =>
    -- the size is that of the command, so the test for the number of words passes
    rw [hsize, Command.length_words hok, if_pos rfl]
    exact .ok (hwords.of_ok hok)

theorem Placed.isInternal_locate (q : Placed) (f : Failure) :
    (q.locate f).isInternal = f.isInternal := by
  unfold Placed.locate
  split
  · exact Failure.isInternal_locate _ _ _
  · rfl

theorem proper_rows {s : State} (h : s.Sound) :
    Proper (fun rows => ∀ r ∈ rows, ∀ w ∈ r.words, IsWord w)
      (s.placed.toList.mapM (Placed.row s.symbols.lookup)) := by
  refine .mapM fun q hq => (ends_row (isProper_lookup _) (h.fits q hq)
    (h.tiles.size_of_mem hq)).mono_error ?_
  rintro f ⟨g, -, hg, rfl⟩
  rw [Placed.isInternal_locate]
  exact hg.isInternal

namespace Assembler

variable {a : Assembler} {fs : FileSystem} {src : Source} {visits : List Visit} {s : State}
  {p : Program}

theorem isWord_predefined : ∀ pair ∈ SymbolTable.predefined.values.toList, IsWord pair.2 := by
  decide +kernel

/-- **Every state of a first pass is sound.** -/
theorem FirstPass.sound (h : FirstPass a fs src visits s) : s.Sound := by
  obtain ⟨-, defined, trace⟩ := h
  obtain ⟨hvalues, hwords⟩ := (proper_defineAll _ _).of_ok defined
  refine (State.Sound.start _ ?_).of_trace trace
  rw [hvalues]
  exact Bindings.forall_insertAll isWord_predefined hwords

theorem proper_ofLayout (h : s.Sound) :
    Proper (SecondPass s) (Program.ofLayout ⟨s.placed.toList, s.symbols⟩).result := by
  have hresult : Proper (fun _ => True) (Program.ofLayout ⟨s.placed.toList, s.symbols⟩).result := by
    simp only [Program.ofLayout, Traced.bind_result, Traced.ofExcept_result, Traced.notes_result,
      Traced.pure_result]
    exact (proper_rows h).bind fun rows _ => .ok trivial
  exact hresult.self.mono fun p hp => secondPass_iff.mp hp

/-- A second pass fails at the first command that has no words, and its failure is placed at the
line of the command. -/
theorem exists_of_ofLayout_eq_error {f : Failure} (h : s.Sound)
    (failed : (Program.ofLayout ⟨s.placed.toList, s.symbols⟩).result = .error f) :
    ∃ before q after g, s.placed.toList = before ++ q :: after ∧
      (∀ q' ∈ before, ∃ words, q'.command.words s.symbols.lookup = .ok words) ∧
      q.command.words s.symbols.lookup = .error g ∧ g.IsAt none false ∧ f = q.locate g := by
  simp only [Program.ofLayout, Traced.bind_result, Traced.ofExcept_result, Traced.notes_result,
    Traced.pure_result] at failed
  rcases bind_eq_error.mp failed with failed | ⟨rows, -, failed⟩
  · obtain ⟨before, q, after, hplaced, hbefore, hq⟩ := mapM_eq_error failed
    have hmem : q ∈ s.placed.toList := hplaced ▸ List.mem_append_right _ List.mem_cons_self
    have hrow := ends_row (isProper_lookup s.symbols) (h.fits q hmem) (h.tiles.size_of_mem hmem)
    obtain ⟨g, hg, hbare, hf⟩ := hrow.of_error hq
    refine ⟨before, q, after, g, hplaced, fun q' hq' => ?_, hg, hbare, hf⟩
    obtain ⟨row, hrow⟩ := hbefore q' hq'
    obtain ⟨words, hwords, -⟩ := Placed.row_eq_ok_iff.mp hrow
    exact ⟨words, hwords⟩
  · cases failed

/-- An assembly is unfinished only where its first pass is. -/
theorem FailsWith.run_eq_none (h : FailsWith a fs src .unfinished) :
    ∃ visits s, FirstPass a fs src visits s ∧ s.run ⟨fs, a.directories⟩ = none := by
  generalize hf : Failure.unfinished = f at h
  cases h with
  | read failed => exact absurd hf.symm ((src.proper_read fs).of_error failed).ne_unfinished
  | define _ failed => exact absurd hf.symm ((proper_defineAll _ _).of_error failed).ne_unfinished
  | line _ _ failed => exact absurd hf.symm (ne_unfinished_of_step failed)
  | endless first run => exact ⟨_, _, first, run⟩
  | command first _ failed =>
    obtain ⟨_, q, _, g, _, _, _, hg, rfl⟩ := exists_of_ofLayout_eq_error first.sound failed
    unfold Placed.locate at hf
    split at hf
    · exact absurd hf.symm (Failure.locate_ne_unfinished hg.ne_unfinished _ _)
    · exact absurd hf.symm hg.ne_unfinished

/-- **An assembly makes a program in two passes, or fails properly.** -/
theorem proper_assemble (a : Assembler) (fs : FileSystem) (src : Source) :
    Proper (fun p => ∃ visits s, FirstPass a fs src visits s ∧ s.cursor.pending = [] ∧
      SecondPass s p) (a.assemble fs src).result := by
  rw [assemble_result]
  refine (src.proper_read fs).proper.self.bind fun ⟨file, texts⟩ read => ?_
  rw [assembleLines_result]
  refine (proper_defineAll _ _).proper.self.bind fun symbols defined => ?_
  refine (proper_build _ _ _).bind fun layout hlayout => ?_
  obtain ⟨visits, s, trace, done, rfl⟩ := hlayout
  -- the second pass meets a sound state, so its failures are proper too
  have first : FirstPass a fs src visits s := ⟨read, defined, trace⟩
  exact (proper_ofLayout first.sound).mono fun p second => ⟨visits, s, first, done, second⟩

/-! ## Coherence -/

theorem coherent_of_secondPass (sound : s.Sound) (second : SecondPass s p) : p.Coherent := by
  obtain ⟨hfirst, hnext, hlength⟩ := sound.tiles.rows_eq second.rows
  rw [Nat.zero_add, ← second.words] at hlength
  exact ⟨second.words.symm, hfirst, hnext, hlength ▸ sound.within⟩

/-- **The two passes agree.** The rows of a program come from the commands of the first pass, one
for each, and lie one behind the other from address zero to the end of the program. Every command
that a first pass has placed has as many words as were laid out for it, in every scope, so an
assembly does not end in the failure that reports a wrong number of words. -/
theorem assemble_coherent (a : Assembler) (fs : FileSystem) (src : Source) :
    (∀ p, (a.assemble fs src).result = .ok p → p.Coherent ∧
      ∃ visits s, FirstPass a fs src visits s ∧ s.cursor.pending = [] ∧
        p.symbols = s.symbols.values ∧
        List.Forall₂ (fun q r => r.address = q.address ∧
          q.command.words s.symbols.lookup = .ok r.words) s.placed.toList p.rows) ∧
    (∀ visits s, FirstPass a fs src visits s → ∀ q ∈ s.placed.toList, ∀ (scope : Scope) words,
      q.command.words scope = .ok words → (words.length : Int) = q.size) ∧
    ∀ described emitted expected location hint line, (a.assemble fs src).result ≠
      .error (.error ⟨.sizeMismatch described emitted expected, location, hint, line⟩) := by
  refine ⟨fun p hp => ?_, fun visits s first q hq scope words hwords => ?_, ?_⟩
  · obtain ⟨visits, s, first, done, second⟩ := (proper_assemble a fs src).of_ok hp
    exact ⟨coherent_of_secondPass first.sound second, visits, s, first, done, second.symbols,
      second.forall₂_words⟩
  · rw [first.sound.tiles.size_of_mem hq, Command.length_words hwords]
  · intro described emitted expected location hint line h
    exact Bool.noConfusion ((proper_assemble a fs src).of_error h)

/-- A program with a forward reference, an array that an included file opens, and padding. -/
theorem assemble_coherent_include :
    let files := (FileSystem.empty ["w"]).set ["w", "t"]
      (.file [0x2E, 0x61, 0x72, 0x72, 0x61, 0x79, 0x20, 0x5B, 0x31])
    let src := Source.lines inputName
      ["WRD end R1", ".include t", "end]", ".move 6", "(end)", "NOP"]
    let a := new [] .empty
    ∃ p visits s, (a.assemble files src).result = .ok p ∧
      p.words = [0x1001, 0x2061, 1, 6, 0, 0, 0x7000] ∧ p.Coherent ∧
      FirstPass a files src visits s ∧ s.placed.toList.map Placed.size = [2, 0, 2, 2, 1] ∧
      ∀ q ∈ s.placed.toList, ∀ (scope : Scope) words,
        q.command.words scope = .ok words → (words.length : Int) = q.size := by
  intro files src a
  -- six steps, since the array takes the line that closes it, and one that finds no line left
  have hprogram : (a.assembleFor files 7 inputName
      ["WRD end R1", ".include t", "end]", ".move 6", "(end)", "NOP"]).map Program.words =
      some [0x1001, 0x2061, 1, 6, 0, 0, 0x7000] := by decide +kernel
  have hstate : (a.layOutFor files 7 inputName
      ["WRD end R1", ".include t", "end]", ".move 6", "(end)", "NOP"]).map
        (fun s => s.placed.toList.map Placed.size) = some [2, 0, 2, 2, 1] := by decide +kernel
  obtain ⟨p, hp, hwords⟩ := Option.map_eq_some_iff.mp hprogram
  obtain ⟨s, hs, hsizes⟩ := Option.map_eq_some_iff.mp hstate
  obtain ⟨visits, first, -⟩ := exists_firstPass_of_layOutFor hs
  obtain ⟨hcoherent, hsize, -⟩ := assemble_coherent a files src
  have hok := assemble_eq_ok_of_assembleFor hp
  exact ⟨p, visits, s, hok, hwords, (hcoherent p hok).1, first, hsizes, hsize visits s first⟩

end Assembler

end NibbleAsm
