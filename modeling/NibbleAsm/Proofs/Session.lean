import NibbleAsm.Proofs.Assembly
import NibbleAsm.Proofs.Writing

/-!
# Sessions

An assembler that is asked for one thing after another keeps include directories, definitions and
the last program. All three can be told from the requests that were made and their answers, and
nothing else is left of a request: an assembly that fails leaves no symbols behind, and one that
succeeds leaves only its program. So every assembly of a session is that of a new assembler, and
what a session shows and writes is always the program of the last assembly that succeeded.

## Main definitions

* `Bindings.latest`: the names of pairs in the order of their first pairs, with their last values
* `Step`, `Session.performAll`: a session that performs requests, with its steps
* `Step.added?`, `Step.defined?`, `Step.assembled?`: what a step contributes
* `gathered`: the assembler that steps add up to
* `Request.shown?`, `Request.file?`: what is shown or written of a program

## Main results

* `Bindings.ofList_eq_latest`: binding pairs one after the other keeps the latest
* `Session.atomic_handle`, `Session.perform_of_error`: a request that fails changes nothing
* `Session.assembler_perform`: one step changes an assembler by what the step contributes
* `Session.assembler_performAll`: the assembler of a session is gathered from its steps
* `Session.performAll_isolated`: sessions are isolated and their failures are atomic
-/

namespace NibbleAsm

/-! ## Latest definitions -/

namespace Bindings

variable {α : Type}

/-- New names come behind the others. -/
theorem names_insert (b : Bindings α) (name : String) (value : α) :
    (b.insert name value).names = if name ∈ b.names then b.names else b.names ++ [name] :=
  names_insertPair name value b.toList

theorem ofList_concat (pairs : List (String × α)) (pair : String × α) :
    ofList (pairs ++ [pair]) = (ofList pairs).insert pair.1 pair.2 := by
  simp only [ofList, List.foldl_append, List.foldl_cons, List.foldl_nil]

/-- Names are bound in the order of their first pairs. -/
theorem names_ofList (pairs : List (String × α)) :
    (ofList pairs).names = (pairs.map Prod.fst).eraseDups := by
  induction pairs using List.reverseRecOn with
  | nil => rfl
  | append_singleton pairs pair ih =>
    rw [ofList_concat, names_insert, ih, List.map_append, List.map_singleton, List.eraseDups_append]
    by_cases h : pair.1 ∈ pairs.map Prod.fst
    · simp [List.removeAll, List.mem_eraseDups.mpr h, h]
    · simp [List.removeAll, mt List.mem_eraseDups.mp h, h, List.eraseDups_cons]

/-- The names of pairs in the order in which they are first bound, each with its last value. -/
def latest (pairs : List (String × α)) : Bindings α where
  toList := (pairs.map Prod.fst).eraseDups.filterMap fun name =>
    (pairs.reverse.lookup name).map (name, ·)
  distinct := by
    have hnames : (pairs.map Prod.fst).eraseDups.Nodup :=
      names_ofList pairs ▸ (ofList pairs).distinct
    rw [List.map_filterMap]
    refine hnames.filterMap fun n m name hn hm => ?_
    simp only [Option.map_map, Option.mem_def, Option.map_eq_some_iff, Function.comp_apply] at hn hm
    obtain ⟨-, -, rfl⟩ := hn
    obtain ⟨-, -, rfl⟩ := hm
    rfl

/-- Pairs without repeated names are determined by their names and the values of these. -/
theorem eq_filterMap_lookup {pairs : List (String × α)} (distinct : (pairs.map Prod.fst).Nodup) :
    pairs = (pairs.map Prod.fst).filterMap fun name => (pairs.lookup name).map (name, ·) := by
  induction pairs with
  | nil => rfl
  | cons pair rest ih =>
    obtain ⟨n, v⟩ := pair
    obtain ⟨hn, hrest⟩ := List.nodup_cons.mp distinct
    have hother : (rest.map Prod.fst).filterMap (fun name =>
        (((n, v) :: rest).lookup name).map (name, ·)) = rest := by
      refine (List.filterMap_congr fun name hname => ?_).trans (ih hrest).symm
      have hne : name ≠ n := fun heq => hn (heq ▸ hname)
      rw [lookup_cons_eq, if_neg hne]
    rw [List.map_cons, List.filterMap_cons, hother, lookup_cons_eq, if_pos rfl]
    rfl

/-- **Binding pairs one after the other keeps the latest.** -/
theorem ofList_eq_latest (pairs : List (String × α)) : ofList pairs = latest pairs := by
  have hvalues (name : String) : (ofList pairs).toList.lookup name = pairs.reverse.lookup name := by
    refine (get?_insertAll empty pairs name).trans ?_
    exact Option.or_none
  have htoList := eq_filterMap_lookup (ofList pairs).distinct
  simp only [hvalues] at htoList
  rw [← names, names_ofList] at htoList
  exact Bindings.ext htoList

end Bindings

namespace Assembler

/-! ## Steps -/

/-- A request that was made, the file system that it found, and its answer. -/
structure Step where
  files : FileSystem
  request : Request
  answer : Traced Answer

namespace Step

/-- The directory that a step adds to those that are searched. -/
def added? (step : Step) : Option FilePath :=
  match step.request with
  | .addDirectory path =>
    match step.files.isDirectory path with
    | .ok true => some path
    | _ => none
  | _ => none

/-- The definition that a step makes. -/
def defined? (step : Step) : Option (String × Int) :=
  match step.request with
  | .define name value => some (name, value)
  | _ => none

/-- The program that a step assembles. -/
def assembled? (step : Step) : Option Program :=
  match step.request, step.answer.result with
  | .assemble _, .ok (.program p) => some p
  | _, _ => none

end Step

/-- The steps of a session that performs requests one after the other, and the session behind
them. -/
def Session.performAll (s : Session) : List Request → List Step × Session
  | [] => ([], s)
  | request :: rest =>
    let (next, answer) := s.perform request
    let (steps, last) := next.performAll rest
    (⟨s.files, request, answer⟩ :: steps, last)

/-- An assembler with what steps contribute. -/
def gather (a : Assembler) (steps : List Step) : Assembler where
  directories := a.directories ++ steps.filterMap Step.added?
  defines := a.defines.insertAll (steps.filterMap Step.defined?)
  last := (steps.filterMap Step.assembled?).getLast?.or a.last

theorem gather_cons (a : Assembler) (step : Step) (steps : List Step) :
    a.gather (step :: steps) = (a.gather [step]).gather steps := by
  have hcons {α : Type} (f : Step → Option α) :
      (step :: steps).filterMap f = [step].filterMap f ++ steps.filterMap f :=
    List.filterMap_append (l := [step])
  simp only [gather, hcons, List.append_assoc, Bindings.insertAll, List.foldl_append,
    List.getLast?_append, Option.or_assoc]

theorem gather_singleton (a : Assembler) (step : Step) :
    a.gather [step] = ⟨a.directories ++ step.added?.toList,
      a.defines.insertAll step.defined?.toList, step.assembled?.or a.last⟩ := by
  have hone {α : Type} (f : Step → Option α) : [step].filterMap f = (f step).toList := by
    rw [List.filterMap_cons]
    cases f step <;> rfl
  have hlast {α : Type} (o : Option α) : o.toList.getLast? = o := by cases o <;> rfl
  simp only [gather, hone, hlast]

/-- The assembler that steps add up to, from the directories and the definitions that it was made
with. -/
def gathered (directories : List FilePath) (pairs : List (String × Int)) (steps : List Step) :
    Assembler where
  directories := directories ++ steps.filterMap Step.added?
  defines := .latest (pairs ++ steps.filterMap Step.defined?)
  last := (steps.filterMap Step.assembled?).getLast?

namespace Request

/-- Whether a request can change the assembler. -/
def isChange : Request → Bool
  | assemble _ | define .. | addDirectory _ => true
  | _ => false

/-- Whether a request is about the last program. -/
def isReport : Request → Bool
  | words | symbols | listing | writeBinary _ | writeListing _ | writeSymbols _ => true
  | _ => false

/-- What is shown of a program on a request. -/
def shown? (p : Program) : Request → Option Answer
  | words => some (.words p.words)
  | symbols => some (.symbols p.symbols)
  | listing => some (.listing p.listing)
  | _ => none

/-- The file that is written of a program on a request: its name and what it is to hold. -/
def file? (p : Program) : Request → Option (String × Except Failure (List UInt8))
  | writeBinary name => some ((FilePath.ofString name).text, Image.pack p.words)
  | writeListing name => some ((FilePath.ofString name).text, .ok (textBytes p.listingFile))
  | writeSymbols name => some (name, .ok (textBytes p.symbolFile))
  | _ => none

end Request

/-! ## One request -/

namespace Session

open FileSystem (Written)

variable {s next : Session} {request : Request} {answer : Answer} {f : Failure}

/-- What fails on the files of a session and leaves them as they were leaves the session so. -/
theorem atomic_onFiles {α : Type} {x : Effect FileSystem α} (h : x.Atomic) :
    (onFiles x).Atomic := by
  intro s f failed
  exact congrArg (fun files => { s with files := files }) (h s.files f failed)

theorem keeps_onFiles {α : Type} (x : Effect FileSystem α) : (onFiles x).Keeps assembler :=
  fun _ => rfl

theorem reads_program : program.Reads :=
  Effect.Reads.bind Effect.reads_get fun _ => Effect.reads_lift _

/-- Writing about the last program: a program that is not there fails before a file is touched. -/
theorem atomic_write {write : Program → Effect FileSystem Unit} (h : ∀ p, (write p).Atomic) :
    (do onFiles (write (← program)); return Answer.done).Atomic := by
  refine reads_program.bind_atomic fun p => ?_
  exact (atomic_onFiles (h p)).bind_succeeds fun _ => Effect.succeeds_pure _

theorem atomic_addDirectory (path : FilePath) : (addDirectory path).Atomic := by
  refine Effect.Reads.bind_atomic Effect.reads_get fun s => ?_
  refine Effect.Reads.bind_atomic (Effect.reads_lift _) fun isDirectory => ?_
  split
  · exact (Effect.succeeds_set _).atomic
  · exact (Effect.reads_lift _).atomic

/-- **The steps of a request come in an order in which a failure changes nothing.** -/
theorem atomic_handle (request : Request) : (handle request).Atomic := by
  cases request with
  | assemble source =>
    -- the program is there before it is kept
    refine Effect.Reads.bind_atomic Effect.reads_get fun s => ?_
    refine Effect.Reads.bind_atomic (Effect.reads_lift _) fun p => Effect.Succeeds.atomic ?_
    exact (Effect.succeeds_set _).bind fun _ => Effect.succeeds_pure _
  | define name value =>
    refine Effect.Reads.bind_atomic Effect.reads_get fun s => Effect.Succeeds.atomic ?_
    exact (Effect.succeeds_set _).bind fun _ => Effect.succeeds_pure _
  | addDirectory path =>
    refine (atomic_addDirectory path).bind_succeeds fun _ => ?_
    exact Effect.succeeds_get.bind fun _ => Effect.succeeds_pure _
  | words | symbols | listing =>
    exact reads_program.bind_atomic fun p => (Effect.succeeds_pure _).atomic
  | writeBinary name => exact atomic_write fun p => atomic_writeBinary name p
  | writeListing name | writeSymbols name => exact atomic_write fun p => atomic_writeFile _ _
  | writeImage name words =>
    exact (atomic_onFiles (atomic_writeImage name words)).bind_succeeds fun _ =>
      Effect.succeeds_pure _
  | readImage name =>
    refine Effect.Reads.bind_atomic Effect.reads_get fun s => ?_
    exact Effect.Reads.bind_atomic (Effect.reads_lift _) fun _ => (Effect.succeeds_pure _).atomic

/-- **A request that fails changes nothing.** -/
theorem perform_of_error (h : (s.perform request).2.result = .error f) :
    (s.perform request).1 = s :=
  atomic_handle request s f h

/-- What an assembler assembled before has no effect on an assembly. -/
theorem assemble_new (a : Assembler) (fs : FileSystem) (src : Source) :
    (new a.directories a.defines).assemble fs src = a.assemble fs src := by
  cases src <;> rfl

/-- An assembly is that of a new assembler, and its program is the last one if it succeeds. -/
theorem perform_assemble (s : Session) (src : Source) :
    let x := (new s.assembler.directories s.assembler.defines).assemble s.files src
    s.perform (.assemble src) =
      ({ s with assembler := { s.assembler with
          last := x.result.toOption.or s.assembler.last } },
        ⟨x.log, x.result.map .program⟩) := by
  intro x
  have hx : x = s.assembler.assemble s.files src := assemble_new s.assembler s.files src
  rw [perform, handle, Effect.get_bind, ← hx]
  cases h : x.result with
  | error f =>
    rw [Effect.bind_of_error h]
    rfl
  | ok p =>
    rw [Effect.bind_of_ok h]
    exact Prod.ext rfl (congrArg (Traced.mk · _) (List.append_nil x.log))

/-- A directory is added to those that are searched if it is one. -/
theorem assembler_perform_addDirectory (s : Session) (path : FilePath) (answer : Traced Answer) :
    (s.perform (.addDirectory path)).1.assembler = { s.assembler with
      directories := s.assembler.directories ++
        (Step.added? ⟨s.files, .addDirectory path, answer⟩).toList } := by
  -- the answer only looks at the session
  have hadd : (s.perform (.addDirectory path)).1 = (addDirectory path s).1 :=
    Effect.bind_fst_of_reads
      (fun _ => Effect.reads_get.bind fun _ => Effect.reads_lift _) s
  rw [hadd, addDirectory, Effect.get_bind]
  cases hdirectory : s.files.isDirectory path with
  | error e =>
    rw [Except.mapError, Effect.ofExcept_error_bind]
    simp [Step.added?, hdirectory, Effect.ofExcept, Effect.lift]
  | ok isDirectory =>
    rw [Except.mapError, Effect.ofExcept_ok_bind]
    cases isDirectory with
    | true => simp [Step.added?, hdirectory, Effect.set]
    | false => simp [Step.added?, hdirectory, Effect.notes, Effect.lift]

/-- Requests other than three leave the assembler as it is. -/
theorem assembler_perform_of_not_isChange (hrequest : request.isChange = false) :
    (s.perform request).1.assembler = s.assembler := by
  have hpure (answer : Answer) : (pure answer : Effect Session Answer).Keeps assembler :=
    (Effect.reads_lift _).keeps
  have hkeeps : (handle request).Keeps assembler := by
    cases request with
    | assemble | define | addDirectory => cases hrequest
    | words | symbols | listing => exact reads_program.keeps.bind fun p => hpure _
    | writeBinary name | writeListing name | writeSymbols name =>
      exact reads_program.keeps.bind fun p => (keeps_onFiles _).bind fun _ => hpure _
    | writeImage name words => exact (keeps_onFiles _).bind fun _ => hpure _
    | readImage name =>
      refine Effect.Keeps.bind Effect.reads_get.keeps fun t => ?_
      exact Effect.Keeps.bind (Effect.reads_lift _).keeps fun _ => hpure _
  exact hkeeps s

/-- **One step changes an assembler by what the step contributes.** -/
theorem assembler_perform (s : Session) (request : Request) :
    (s.perform request).1.assembler =
      s.assembler.gather [⟨s.files, request, (s.perform request).2⟩] := by
  rw [gather_singleton]
  cases request with
  | assemble src =>
    rw [perform_assemble]
    generalize (new s.assembler.directories s.assembler.defines).assemble s.files src = x
    have hassembled : Step.assembled? ⟨s.files, .assemble src, ⟨x.log, x.result.map .program⟩⟩ =
        x.result.toOption := by
      unfold Step.assembled?
      cases x.result <;> rfl
    rw [hassembled]
    simp [Step.added?, Step.defined?, Bindings.insertAll]
  | define name value =>
    change ({ s.assembler with defines := s.assembler.defines.insert name value } : Assembler) = _
    simp [Step.added?, Step.defined?, Step.assembled?, Bindings.insertAll]
  | addDirectory path =>
    rw [assembler_perform_addDirectory s path (s.perform (.addDirectory path)).2]
    simp [Step.defined?, Step.assembled?, Bindings.insertAll]
  | words | symbols | listing | writeBinary | writeListing | writeSymbols | writeImage |
    readImage =>
    rw [assembler_perform_of_not_isChange rfl]
    simp [Step.added?, Step.defined?, Step.assembled?, Bindings.insertAll]

/-- **The assembler of a session is gathered from its steps.** -/
theorem assembler_performAll (s : Session) (requests : List Request) :
    (s.performAll requests).2.assembler = s.assembler.gather (s.performAll requests).1 := by
  induction requests generalizing s with
  | nil => simp [performAll, gather, Bindings.insertAll]
  | cons request rest ih =>
    change ((s.perform request).1.performAll rest).2.assembler =
      s.assembler.gather (⟨s.files, request, (s.perform request).2⟩ ::
        ((s.perform request).1.performAll rest).1)
    rw [gather_cons, ← assembler_perform, ih]

theorem gather_new (directories : List FilePath) (pairs : List (String × Int))
    (steps : List Step) :
    (new directories (.ofList pairs)).gather steps = gathered directories pairs steps := by
  have hdefines : (Bindings.ofList pairs).insertAll (steps.filterMap Step.defined?) =
      .latest (pairs ++ steps.filterMap Step.defined?) := by
    rw [← Bindings.ofList_eq_latest, Bindings.ofList, Bindings.ofList, Bindings.insertAll,
      List.foldl_append]
  simp only [gather, gathered, new, hdefines, Option.or_none]

/-! ## Reports -/

section Reports

variable {p : Program} {file : String × Except Failure (List UInt8)}

theorem program_bind {α : Type} (hlast : s.assembler.last = some p)
    (f : Program → Effect Session α) : (program >>= f) s = f p s := by
  have hprogram : program s = (s, ⟨[], .ok p⟩) := by
    rw [program, Effect.get_bind, Assembler.program, hlast]
    rfl
  rw [Effect.bind_of_ok (congrArg (·.2.result) hprogram), hprogram]
  rfl

theorem program_bind_of_none {α : Type} (hlast : s.assembler.last = none)
    (f : Program → Effect Session α) :
    ((program >>= f) s).2.result = .error (.ofCause .nothingAssembled) := by
  have hprogram : program s = (s, ⟨[], .error (.ofCause .nothingAssembled)⟩) := by
    rw [program, Effect.get_bind, Assembler.program, hlast]
    rfl
  rw [Effect.bind_of_error (congrArg (·.2.result) hprogram)]

/-- Without a program there is nothing to report. -/
theorem perform_of_last_none (hlast : s.assembler.last = none) (h : request.isReport = true) :
    (s.perform request).2.result = .error (.ofCause .nothingAssembled) := by
  cases request with
  | words | symbols | listing | writeBinary | writeListing | writeSymbols =>
    exact program_bind_of_none hlast _
  | assemble | define | addDirectory | writeImage | readImage => cases h

/-- What is shown is the last program. -/
theorem perform_of_shown? (hlast : s.assembler.last = some p)
    (h : request.shown? p = some answer) : (s.perform request).2.result = .ok answer := by
  cases request with
  | words | symbols | listing =>
    cases h
    rw [perform, handle, program_bind hlast]
    rfl
  | assemble | define | addDirectory | writeBinary | writeListing | writeSymbols | writeImage |
    readImage => cases h

/-- A request that writes a file and nothing else is done, or the file cannot be written. -/
theorem perform_write {x : Effect FileSystem Unit}
    (hhandle : s.perform request = (onFiles x >>= fun _ => pure .done) s)
    (hx : ∀ files, (x.exec s.files).result = .ok files ↔ Written s.files [file] files) :
    ((s.perform request).2.result = .ok .done ∧
      Written s.files [file] (s.perform request).1.files) ∨
    ((∃ f, (s.perform request).2.result = .error f) ∧ ∀ files, ¬Written s.files [file] files) := by
  rw [hhandle]
  cases h : (x s.files).2.result with
  | error f =>
    have hfiles : (onFiles x s).2.result = .error f := h
    rw [Effect.bind_of_error hfiles]
    refine .inr ⟨⟨f, rfl⟩, fun files written => ?_⟩
    cases h.symm.trans (Effect.exec_eq_ok_iff.mp ((hx files).mpr written)).1
  | ok u =>
    have hfiles : (onFiles x s).2.result = .ok u := h
    rw [Effect.bind_of_ok hfiles]
    exact .inl ⟨rfl, (hx _).mp (Effect.exec_eq_ok_iff.mpr ⟨h, rfl⟩)⟩

/-- What is written is the last program. -/
theorem perform_of_file? (hlast : s.assembler.last = some p) (h : request.file? p = some file) :
    ((s.perform request).2.result = .ok .done ∧
      Written s.files [file] (s.perform request).1.files) ∨
    ((∃ f, (s.perform request).2.result = .error f) ∧ ∀ files, ¬Written s.files [file] files) := by
  cases request with
  | writeBinary name =>
    cases h
    exact perform_write (program_bind hlast _) fun files => writeBinary_eq_ok_iff
  | writeListing name =>
    cases h
    exact perform_write (program_bind hlast _) fun files => writeListing_eq_ok_iff
  | writeSymbols name =>
    cases h
    exact perform_write (program_bind hlast _) fun files => writeSymbols_eq_ok_iff
  | assemble | define | addDirectory | words | symbols | listing | writeImage | readImage => cases h

end Reports

theorem map_request_performAll (s : Session) (requests : List Request) :
    (s.performAll requests).1.map Step.request = requests := by
  induction requests generalizing s with
  | nil => rfl
  | cons request rest ih => exact congrArg (request :: ·) (ih (s.perform request).1)

/-- **Sessions are isolated and their failures are atomic.** Let a new assembler perform requests,
whatever becomes of each. Its directories, definitions and last program are those that its steps add
up to. A further request to assemble a source is answered as by a new assembler with these
directories and definitions; a request that fails changes nothing; and what is shown or written is
the program of the last assembly that succeeded, or there is an error if none has. -/
theorem performAll_isolated (directories : List FilePath) (pairs : List (String × Int))
    (files : FileSystem) (requests : List Request) (request : Request) :
    let steps := (Session.mk (new directories (.ofList pairs)) files).performAll requests |>.1
    let s := (Session.mk (new directories (.ofList pairs)) files).performAll requests |>.2
    let a := gathered directories pairs steps
    let answer := (s.perform request).2
    steps.map Step.request = requests ∧ s.assembler = a ∧
    (∀ src, request = .assemble src →
      answer.log = ((new a.directories a.defines).assemble s.files src).log ∧
      answer.result = ((new a.directories a.defines).assemble s.files src).result.map .program) ∧
    (∀ f, answer.result = .error f → (s.perform request).1 = s) ∧
    (∀ p, a.last = some p →
      (∀ shown, request.shown? p = some shown → answer.result = .ok shown) ∧
      ∀ file, request.file? p = some file →
        (answer.result = .ok .done ∧ Written s.files [file] (s.perform request).1.files) ∨
        ((∃ f, answer.result = .error f) ∧ ∀ files, ¬Written s.files [file] files)) ∧
    (a.last = none → request.isReport = true →
      answer.result = .error (.ofCause .nothingAssembled)) := by
  intro steps s a answer
  have hs : s.assembler = a :=
    (assembler_performAll _ requests).trans (gather_new directories pairs steps)
  refine ⟨map_request_performAll _ requests, hs, ?_, fun f h => perform_of_error h,
    fun p hp => ⟨fun shown h => ?_, fun file h => ?_⟩, fun hnone h => ?_⟩
  · rintro src rfl
    have hanswer := congrArg Prod.snd (perform_assemble s src)
    rw [hs] at hanswer
    exact ⟨congrArg Traced.log hanswer, congrArg Traced.result hanswer⟩
  · exact perform_of_shown? (hs ▸ hp) h
  · exact perform_of_file? (hs ▸ hp) h
  · exact perform_of_last_none (hs ▸ hnone) h

/-- A session whose second assembly fails still shows the program of the first, and the definitions
made before and behind it. -/
theorem performAll_isolated_failed :
    let requests := [.define "A" 1, .assemble (.lines inputName [".word A"]), .define "B" 2,
      .define "A" 3, .assemble (.lines inputName [".set C 4", ".word D"])]
    let s := (Session.mk (new [] (.ofList [])) (.empty [])).performAll requests |>.2
    s.assembler.defines.toList = [("A", 3), ("B", 2)] ∧
    (s.perform .words).2.result = .ok (.words [1]) := by
  intro requests s
  let files := FileSystem.empty []
  have hfirst : ((new [] (.ofList [("A", 1)])).assembleFor files 2 inputName [".word A"]).map
      Program.words = some [1] := by decide +kernel
  obtain ⟨p, hp, hwords⟩ := Option.map_eq_some_iff.mp hfirst
  have hok := assemble_eq_ok_of_assembleFor hp
  have hsecond : ((new [] (.ofList [("A", 3), ("B", 2)])).failureFor files
      (.lines inputName [".set C 4", ".word D"]) 3).isSome = true := by decide +kernel
  obtain ⟨f, hf⟩ := Option.isSome_iff_exists.mp hsecond
  have herror := assemble_eq_error_of_failureFor hf
  have hdefine (s : Session) (name : String) (value : Int) : s.perform (.define name value) =
      ({ s with assembler := { s.assembler with
        defines := s.assembler.defines.insert name value } }, ⟨[], .ok .done⟩) := rfl
  -- the answers of the two assemblies are known, whatever they have noted
  have hsteps : ∃ log log', ((Session.mk (new [] (.ofList [])) files).performAll requests).1 =
      [⟨files, .define "A" 1, ⟨[], .ok .done⟩⟩,
        ⟨files, .assemble (.lines inputName [".word A"]), ⟨log, .ok (.program p)⟩⟩,
        ⟨files, .define "B" 2, ⟨[], .ok .done⟩⟩, ⟨files, .define "A" 3, ⟨[], .ok .done⟩⟩,
        ⟨files, .assemble (.lines inputName [".set C 4", ".word D"]), ⟨log', .error f⟩⟩] := by
    have hone : (Bindings.ofList []).insert "A" (1 : Int) = .ofList [("A", 1)] := rfl
    have htwo : ((Bindings.ofList [("A", (1 : Int))]).insert "B" 2).insert "A" 3 =
        .ofList [("A", 3), ("B", 2)] := rfl
    rw [new] at hok herror
    simp only [requests, performAll, hdefine, perform_assemble, new, hone, htwo, hok, herror]
    exact ⟨_, _, rfl⟩
  obtain ⟨log, log', hsteps⟩ := hsteps
  have h := performAll_isolated [] [] files requests .words
  rw [hsteps] at h
  obtain ⟨-, hassembler, -, -, hshown, -⟩ := h
  refine ⟨?_, ?_⟩
  · rw [hassembler]
    change (Bindings.latest [("A", (1 : Int)), ("B", 2), ("A", 3)]).toList = _
    decide +kernel
  · rw [(hshown p rfl).1 _ rfl, hwords]

end Session

end Assembler

end NibbleAsm
