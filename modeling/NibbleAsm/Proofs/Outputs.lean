import NibbleAsm.CommandLine.Run
import NibbleAsm.CommandLine.Standard
import NibbleAsm.Proofs.Assembly
import NibbleAsm.Proofs.Writing

/-!
# What the command leaves behind

The command assembles its input before it prints or writes anything, and it goes on from one file to
the next only when the file was written. So a source that fails leaves nothing on standard output
and no file behind, and the command succeeds only when every file it was asked for was written. All
this holds with every toolkit whose printing is as documented, whatever arguments it accepts: what
is printed of the source is shown without the control sequences of terminals if there is no
terminal, and a dump of words has none.

## Main definitions

* `Settings.assembly`: the program of the input
* `Settings.requests`: the files that settings ask for, with their contents

## Main results

* `Toolkit.isDocumented_standard`: the toolkit of the executable prints as documented
* `ends_execute`: the command has assembled the source and written every file, or it has failed
* `run_output`: what the command prints, and the files it leaves behind
-/

namespace NibbleAsm

/-! ## Printed texts -/

/-- A text without escape characters has no control sequences. -/
theorem Text.withoutControls_eq_self {s : String} (h : controlStart ∉ s.toList) :
    withoutControls s = s := by
  rw [withoutControls, List.splitOn_eq_singleton h]
  simp

theorem Text.controlStart_not_mem_hex4 (n : Int) : controlStart ∉ (hex4 n).toList :=
  not_mem_hex4 (by decide) (by decide) n

theorem controlStart_not_mem_dumpRows (n address : Nat) (words : List Int) :
    ∀ row ∈ dumpRows n address words, Text.controlStart ∉ row.toList := by
  have hwords (words : List Int) : Text.controlStart ∉ (showWords words).toList := by
    refine Text.not_mem_join (by decide) fun part hpart => ?_
    obtain ⟨w, -, rfl⟩ := List.mem_map.mp hpart
    exact Text.controlStart_not_mem_hex4 w
  induction n generalizing address words with
  | zero => exact List.forall_mem_nil _
  | succ n ih =>
    rw [dumpRows]
    split
    · exact List.forall_mem_nil _
    · refine List.forall_mem_cons.mpr ⟨?_, ih _ _⟩
      rw [String.toList_append, String.toList_append, List.mem_append, List.mem_append, not_or,
        not_or]
      exact ⟨⟨Text.controlStart_not_mem_hex4 _, by decide⟩, hwords _⟩

theorem Program.controlStart_not_mem_dump (p : Program) : Text.controlStart ∉ p.dump.toList :=
  Text.not_mem_join (by decide) (controlStart_not_mem_dumpRows _ _ _)

namespace CommandLine

variable {K : Toolkit}

namespace Toolkit

theorem IsDocumented.echo_plain (documented : K.IsDocumented) {text : String}
    (h : Text.controlStart ∉ text.toList) (stream : Stream) :
    K.echo stream text = text ++ "\n" := by
  rw [documented.echo_eq, shown, documented.unstyle_eq text h, ite_self]

/-- **The toolkit of the executable prints as documented.** -/
theorem isDocumented_standard (isTerminal : Stream → Bool) :
    (standard isTerminal).IsDocumented where
  echo_eq _ _ := rfl
  unstyle_eq _ := Text.withoutControls_eq_self

theorem read_standard {isTerminal : Stream → Bool} {fs : FileSystem} {environment : Option String}
    {args : List String} {s : Settings}
    (h : Settings.ofArguments parseDefines fs environment args = .ok s) :
    (standard isTerminal).read parseDefines fs environment args = .ok s :=
  mapError_eq_ok.mpr h

end Toolkit

/-! ## The run of the command -/

open FileSystem (Written)

/-- No report is one of success. -/
theorem exitCode_report (kind : Option String) (verbose : Bool) (t : Trouble) :
    (t.report K kind verbose).exitCode ≠ 0 := by
  cases t with
  | toolchain =>
    dsimp only [Trouble.report]
    split <;> simp
  | assembly | badArgument | fileNotFound | permissionDenied | internal => simp [Trouble.report]

/-- The program of the input, or the failure to assemble it. -/
def Settings.assembly (s : Settings) (fs : FileSystem) : Except Failure Program :=
  ((Assembler.new s.directories s.defines).assemble fs (.file s.input)).result

/-- The files that settings ask for, in the order in which they are written: their names and what
they are to hold. -/
def Settings.requests (s : Settings) (p : Program) : List (String × Except Failure (List UInt8)) :=
  (s.output.toList.map fun path => (path.text, Image.pack p.words)) ++
  (s.listing.toList.map fun path => (path.text, .ok (textBytes p.listingFile))) ++
  (s.symbols.toList.map fun path => (path.text, .ok (textBytes p.symbolFile)))

namespace Progress

variable {p : Progress} {verbose : Bool}

theorem tell_of_quiet (quiet : verbose = false) (text : String) : p.tell K verbose text = p := by
  simp [tell, quiet]

theorem files_tell (text : String) : (p.tell K verbose text).files = p.files := by
  unfold tell
  split <;> rfl

theorem exitCode_abort (f : Failure) : (p.abort K verbose f).exitCode ≠ 0 :=
  exitCode_report _ _ f.trouble

/-- What holds of a command that goes on once a file is written, and of every command that fails,
holds of a command that writes the file. -/
theorem save_rule {motive : Outcome → Prop} {path? : Option FilePath} {message : FilePath → String}
    {write : String → Effect FileSystem Unit} {next : Progress → Outcome}
    (content : Except Failure (List UInt8)) {fs : FileSystem} (hfiles : p.files = fs)
    (hwrite : ∀ path ∈ path?, ∀ fs', ((write path.text).exec fs).result = .ok fs' ↔
      Written fs [(path.text, content)] fs')
    (success : ∀ q, Written fs (path?.toList.map fun path => (path.text, content)) q.files →
      (verbose = false → q.stdout = p.stdout) → motive (next q))
    (failure : ∀ o : Outcome, o.exitCode ≠ 0 →
      (∀ files, ¬Written fs (path?.toList.map fun path => (path.text, content)) files) → motive o) :
    motive (p.save K verbose path? message write next) := by
  subst hfiles
  cases path? with
  | none => exact success p (.nil _) fun _ => rfl
  | some path =>
    replace hwrite := hwrite path rfl
    simp only [save, proceed]
    cases hresult : (write path.text p.files).2.result with
    | ok u =>
      refine success _ ?_ fun quiet => ?_
      · rw [files_tell]
        exact (hwrite _).mp (Effect.exec_eq_ok_iff.mpr ⟨hresult, rfl⟩)
      · rw [tell_of_quiet quiet]
        rfl
    | error f =>
      refine failure _ (exitCode_abort f) fun files written => ?_
      have hok := (Effect.exec_eq_ok_iff.mp ((hwrite files).mpr written)).1
      cases hresult.symm.trans hok

end Progress

/-- What the command prints of a program. -/
def printout (K : Toolkit) (p : Program) : String :=
  K.shown .stdout p.listing ++ "\n" ++ "\n" ++ p.dump ++ "\n"

theorem join_echo (documented : K.IsDocumented) (p : Program) :
    Text.join "" [K.echo .stdout p.listing, K.echo .stdout "", K.echo .stdout p.dump] =
      printout K p := by
  have hempty : K.echo .stdout "" = "" ++ "\n" := documented.echo_plain (by decide) .stdout
  rw [documented.echo_eq, hempty, documented.echo_plain p.controlStart_not_mem_dump, printout,
    ← String.toList_inj, Text.join, String.toList_intercalate]
  simp [List.intercalate]

section Execute

variable {s : Settings} {fs : FileSystem}

theorem Settings.assembly_of_readLines {texts : List String}
    (h : Search.readLines fs s.input none = .ok texts) :
    s.assembly fs = ((Assembler.new s.directories s.defines).assemble fs
      (.lines s.input.text texts)).result := by
  simp only [Settings.assembly, Assembler.assemble_result, Source.read, h]
  rfl

/-- A command whose input cannot be assembled has neither printed nor written anything. -/
theorem execute_of_error {f : Failure} (h : s.assembly fs = .error f) :
    ∃ p : Progress, execute K fs s = p.abort K s.verbose f ∧ p.files = fs ∧
      (s.verbose = false → p.stdout = []) := by
  unfold execute
  dsimp only
  rw [Progress.proceed]
  unfold Settings.assembly at h
  rw [h]
  refine ⟨_, rfl, Progress.files_tell _, fun quiet => ?_⟩
  rw [Progress.tell_of_quiet quiet]
  rfl

/-- How a command may end: its input was assembled and every file it was asked for was written, or
it has failed because this is not possible. -/
inductive Settings.Ends (K : Toolkit) (s : Settings) (fs : FileSystem) (o : Outcome) : Prop
  | success {p : Program} (assembled : s.assembly fs = .ok p)
      (written : Written fs (s.requests p) o.files) (exitCode : o.exitCode = 0)
      (stdout : s.verbose = false → o.stdout = printout K p)
  | failure (exitCode : o.exitCode ≠ 0)
      (impossible : ∀ p files, s.assembly fs = .ok p → ¬Written fs (s.requests p) files)

/-- Every command ends in one of the two ways. -/
theorem ends_execute (documented : K.IsDocumented) (s : Settings) (fs : FileSystem) :
    s.Ends K fs (execute K fs s) := by
  cases assembled : s.assembly fs with
  | error f =>
    obtain ⟨q, hq, -⟩ := execute_of_error assembled
    refine .failure (hq ▸ Progress.exitCode_abort f) fun p files h => ?_
    cases assembled.symm.trans h
  | ok p =>
    have hresult := assembled
    unfold Settings.assembly at hresult
    unfold execute
    dsimp only
    rw [Progress.proceed, hresult]
    dsimp only
    -- a file that cannot be written is asked for behind those that have been written
    refine Progress.save_rule (Image.pack p.words) (Progress.files_tell _)
      (fun path hpath fs' => ?_)
      (fun q₁ written₁ quiet₁ => ?_) fun o failed unwritten => ?_
    · rw [Assembler.writeBinary_eq_ok_iff, FilePath.ofString_text]
    · refine Progress.save_rule (.ok (textBytes p.listingFile)) rfl
        (fun path hpath fs' => ?_) (fun q₂ written₂ quiet₂ => ?_) fun o failed unwritten => ?_
      · rw [Assembler.writeListing_eq_ok_iff, FilePath.ofString_text]
      · refine Progress.save_rule (.ok (textBytes p.symbolFile)) rfl
          (fun path hpath fs' => ?_) (fun q₃ written₃ quiet₃ => ?_) fun o failed unwritten => ?_
        · exact Assembler.writeSymbols_eq_ok_iff
        · have written := Written.append_iff.mpr
            ⟨_, Written.append_iff.mpr ⟨_, written₁, written₂⟩, written₃⟩
          refine .success assembled ?_ rfl fun quiet => ?_
          · simp only [Progress.finish, Progress.files_tell]
            exact written
          · simp only [Progress.finish, Progress.tell_of_quiet quiet, quiet₃ quiet, quiet₂ quiet,
              quiet₁ quiet]
            exact join_echo documented p
        · refine .failure failed fun p' files hp' written => ?_
          cases assembled.symm.trans hp'
          obtain ⟨files₂, before, last⟩ := Written.append_iff.mp written
          cases before.unique (Written.append_iff.mpr ⟨_, written₁, written₂⟩)
          exact unwritten files last
      · refine .failure failed fun p' files hp' written => ?_
        cases assembled.symm.trans hp'
        obtain ⟨files₂, before, -⟩ := Written.append_iff.mp written
        obtain ⟨files₁, first, second⟩ := Written.append_iff.mp before
        cases first.unique written₁
        exact unwritten files₂ second
    · refine .failure failed fun p' files hp' written => ?_
      cases assembled.symm.trans hp'
      obtain ⟨files₂, before, -⟩ := Written.append_iff.mp written
      obtain ⟨files₁, first, -⟩ := Written.append_iff.mp before
      exact unwritten files₁ first

end Execute

/-- **The command prints and writes all it is asked for, or nothing of a source that fails.** Let
a toolkit print as documented, and let it accept arguments. If their input cannot be assembled
because of an error in it, the exit code is one, nothing is printed unless the command is to tell
all it does, standard error ends with the block of the error, as it is shown there, and no file
changes. The exit code is zero exactly when the input is assembled and all files are written; then
standard output has the listing, as it is shown there, an empty line and the dump, and if the names
of the files lead to different places, each holds what was asked for and nothing else has
changed. -/
theorem run_output {fs : FileSystem} {environment : Option String} {args : List String}
    {s : Settings} (documented : K.IsDocumented)
    (accepted : K.read parseDefines fs environment args = .ok s) :
    let o := run K fs environment args
    (∀ d, s.assembly fs = .error (.error d) →
      o.exitCode = 1 ∧ (s.verbose = false → o.stdout = "") ∧
      (∃ log, o.stderr = log ++ (K.shown .stderr d.block ++ "\n")) ∧ o.files = fs) ∧
    (o.exitCode = 0 ↔ ∃ p files, s.assembly fs = .ok p ∧ Written fs (s.requests p) files) ∧
    (o.exitCode = 0 → ∃ p, s.assembly fs = .ok p ∧
      (s.verbose = false →
        o.stdout = K.shown .stdout p.listing ++ "\n" ++ "\n" ++ p.dump ++ "\n") ∧
      (((s.requests p).map fun file => fs.place file.1).Nodup →
        (∀ file ∈ s.requests p, ∃ bytes, file.2 = .ok bytes ∧ o.files.read file.1 = .ok bytes) ∧
        ∀ place ∉ (s.requests p).map fun file => fs.place file.1,
          o.files.lookup? place = fs.lookup? place)) := by
  intro o
  have ho : o = execute K fs s := by simp only [o, run, accepted]
  have hends := ends_execute documented s fs
  rw [← ho] at hends
  refine ⟨fun d hd => ?_, ⟨fun hzero => ?_, fun ⟨p, files, hp, hwritten⟩ => ?_⟩, fun hzero => ?_⟩
  · obtain ⟨q, hq, hfiles, hquiet⟩ := execute_of_error hd
    rw [ho, hq]
    refine ⟨rfl, fun quiet => ?_, ⟨Text.join "" q.stderr, ?_⟩, hfiles⟩
    · change Text.join "" q.stdout = ""
      rw [hquiet quiet]
      rfl
    · rw [← documented.echo_eq]
      rfl
  · cases hends with
    | success assembled written => exact ⟨_, _, assembled, written⟩
    | failure exitCode => exact absurd hzero exitCode
  · cases hends with
    | success _ _ exitCode => exact exitCode
    | failure _ impossible => exact absurd hwritten (impossible p files hp)
  · cases hends with
    | success assembled written _ stdout =>
      refine ⟨_, assembled, stdout, fun distinct => ⟨written.read_eq_ok distinct, ?_⟩⟩
      exact fun place hplace => written.lookup?_of_not_mem hplace
    | failure exitCode => exact absurd hzero exitCode

/-- A command that writes three files, two of them under longer names, with standard output on a
terminal. -/
theorem run_output_written :
    let files := ((FileSystem.empty ["w"]).withFile (.ofString "a") (textBytes "NOP\n(x)\n.word x")
      ).withDirectory (.ofString "out")
    let args := ["-l", "out//l", "a", "-oi", "--symbols=out/../s"]
    let s : Settings := ⟨.ofString "a", some (.ofString "i"), some (.ofString "out/l"),
      some (.ofString "out/../s"), [], .empty, false⟩
    let K := Toolkit.standard fun stream => stream = .stdout
    let o := run K files none args
    K.IsDocumented ∧ K.read parseDefines files none args = .ok s ∧ o.exitCode = 0 ∧
    ∃ p, s.assembly files = .ok p ∧ o.stdout = p.listing ++ "\n" ++ "\n" ++ p.dump ++ "\n" ∧
      o.files.read "i" = .ok [0x70, 0, 0, 1] ∧
      o.files.read "out/l" = .ok (textBytes p.listingFile) ∧
      o.files.read "out/../s" = .ok (textBytes p.symbolFile) ∧
      o.files.lookup? ["w", "a"] = files.lookup? ["w", "a"] := by
  intro files args s K o
  have documented : K.IsDocumented := Toolkit.isDocumented_standard _
  have hread : Settings.ofArguments parseDefines files none args = .ok s := by rfl
  have accepted : K.read parseDefines files none args = .ok s := Toolkit.read_standard hread
  have hlines : Search.readLines files s.input none = .ok ["NOP", "(x)", ".word x"] :=
    toOption_eq_some.mp (by decide +kernel)
  have hprogram : ((Assembler.new [] .empty).assembleFor files 4 "a" ["NOP", "(x)", ".word x"]).map
      Program.words = some [0x7000, 1] := by decide +kernel
  obtain ⟨p, hp, hwords⟩ := Option.map_eq_some_iff.mp hprogram
  have assembled : s.assembly files = .ok p :=
    (Settings.assembly_of_readLines hlines).trans (Assembler.assemble_eq_ok_of_assembleFor hp)
  have hpack : Image.pack p.words = .ok [0x70, 0, 0, 1] := by
    rw [hwords]
    rfl
  have hrequests : s.requests p = [("i", .ok [0x70, 0, 0, 1]),
      ("out/l", .ok (textBytes p.listingFile)), ("out/../s", .ok (textBytes p.symbolFile))] := by
    rw [← hpack]
    rfl
  obtain ⟨files', written⟩ : ∃ files', Written files (s.requests p) files' := by
    rw [hrequests]
    exact ⟨_, .cons rfl (.cons rfl (.cons rfl (.nil _)))⟩
  have hplaces : ((s.requests p).map fun file => files.place file.1) =
      [["w", "i"], ["w", "out", "l"], ["w", "s"]] := by
    rw [hrequests]
    change ["i", "out/l", "out/../s"].map files.place = _
    decide +kernel
  have ho : run K files none args = o := rfl
  have h := run_output documented accepted
  rw [ho] at h
  have hzero : o.exitCode = 0 := h.2.1.mpr ⟨p, files', assembled, written⟩
  obtain ⟨q, hq, hstdout, hfiles⟩ := h.2.2 hzero
  cases assembled.symm.trans hq
  rw [hplaces, hrequests] at hfiles
  obtain ⟨hheld, hsame⟩ := hfiles (by decide +kernel)
  simp only [List.forall_mem_cons, Except.ok.injEq, exists_eq_left'] at hheld
  obtain ⟨himage, hlisting, hsymbols, -⟩ := hheld
  have hshown : K.shown .stdout p.listing = p.listing := if_pos rfl
  rw [hshown] at hstdout
  exact ⟨documented, accepted, hzero, p, assembled, hstdout rfl, himage, hlisting, hsymbols,
    hsame ["w", "a"] (by decide)⟩

/-- Control sequences of the source are not printed where there is no terminal, neither with a
listing nor with an error. -/
theorem run_output_controls :
    let K := Toolkit.standard fun _ => false
    let files := fun text => (FileSystem.empty ["w"]).withFile (.ofString "a.asm") (textBytes text)
    let o := fun text => run K (files text) none ["a.asm"]
    ∃ s, s.verbose = false ∧ (∀ text, K.read parseDefines (files text) none ["a.asm"] = .ok s) ∧
    (∃ p, s.assembly (files ".str \x1b[m") = .ok p ∧ (o ".str \x1b[m").exitCode = 0 ∧
      (o ".str \x1b[m").stdout ≠ p.listing ++ "\n" ++ "\n" ++ p.dump ++ "\n") ∧
    ∃ d, s.assembly (files "\x1b[mFOO") = .error (.error d) ∧
      ∀ log, (o "\x1b[mFOO").stderr ≠ log ++ (d.block ++ "\n") := by
  intro K files o
  let s : Settings := ⟨.ofString "a.asm", none, none, none, [], .empty, false⟩
  have documented : K.IsDocumented := Toolkit.isDocumented_standard _
  have hread (text : String) :
      Settings.ofArguments parseDefines (files text) none ["a.asm"] = .ok s := by rfl
  have accepted (text : String) : K.read parseDefines (files text) none ["a.asm"] = .ok s :=
    Toolkit.read_standard (hread text)
  have ho (text : String) : o text = execute K (files text) s := by
    simp only [o, run, accepted]
  refine ⟨s, rfl, accepted, ?_, ?_⟩
  · have hlines : Search.readLines (files ".str \x1b[m") s.input none = .ok [".str \x1b[m"] :=
      toOption_eq_some.mp (by decide +kernel)
    have hprogram : ((Assembler.new [] .empty).assembleFor (files ".str \x1b[m") 2 "a.asm"
        [".str \x1b[m"]).map (fun p => (p.listing, p.dump)) =
          some ("Addr  Words                    Source\n" ++
            "----  -----------------------  ------------------------------\n" ++
            "0000  0003 001B 005B 006D      .str \x1b[m", "0000: 0003 001B 005B 006D") := by
      decide +kernel
    obtain ⟨p, hp, htexts⟩ := Option.map_eq_some_iff.mp hprogram
    obtain ⟨hlisting, hdump⟩ := Prod.mk.inj htexts
    have assembled : s.assembly (files ".str \x1b[m") = .ok p :=
      (Settings.assembly_of_readLines hlines).trans (Assembler.assemble_eq_ok_of_assembleFor hp)
    have hends := ends_execute documented s (files ".str \x1b[m")
    rw [← ho] at hends
    cases hends with
    | failure _ impossible => exact absurd (.nil _) (impossible p _ assembled)
    | success assembled' _ exitCode stdout =>
      cases assembled.symm.trans assembled'
      refine ⟨p, assembled, exitCode, ?_⟩
      rw [stdout rfl, printout, hlisting, hdump]
      decide +kernel
  · let d : Diagnostic := ⟨.unknownMnemonic "\x1b[mFOO", some (.ofLine "a.asm" 1), none,
      some "\x1b[mFOO"⟩
    have hfails : (Assembler.new [] .empty).failureFor (files "\x1b[mFOO") (.file s.input) 1 =
        some (.error d) := by decide +kernel
    have failed : s.assembly (files "\x1b[mFOO") = .error (.error d) :=
      Assembler.assemble_eq_error_of_failureFor hfails
    obtain ⟨q, hq, -⟩ := execute_of_error (K := K) failed
    refine ⟨d, failed, fun log hlog => ?_⟩
    rw [ho, hq] at hlog
    -- both texts are at the end of standard error, so the shorter one is at the end of the longer
    have hshown : (K.echo .stderr d.block).toList <:+ (log ++ (d.block ++ "\n")).toList := by
      rw [← hlog]
      exact ⟨(Text.join "" q.stderr).toList, String.toList_append.symm⟩
    have hblock : (d.block ++ "\n").toList <:+ (log ++ (d.block ++ "\n")).toList :=
      ⟨log.toList, String.toList_append.symm⟩
    have hsuffix := List.suffix_of_suffix_length_le hshown hblock (by decide +kernel)
    exact absurd hsuffix (by decide +kernel)

end CommandLine

end NibbleAsm
