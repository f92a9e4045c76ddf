import NibbleAsm.Assembler
import NibbleAsm.Proofs.Effect
import NibbleAsm.Proofs.Place

/-!
# Writing files

A file is written at the place of its name. Its name then leads to it, every path that leads to a
file at this place leads to what was written, and nothing else in the tree changes. A new file does
not stand in the way of another name either, because only directories are passed and no directory
is overwritten. So files that are written one after the other at different places are all there at
the end. The files of a program are its image, its listing and its symbols.

## Main definitions

* `FileSystem.Written`: the tree after files are written one after the other

## Main results

* `FileSystem.read_of_write`: a file that was written is read back
* `FileSystem.entry_write_self`, `FileSystem.entry_write_of_ne`: where names lead after a write
* `FileSystem.Written.lookup?_of_not_mem`: writing changes nothing at other places
* `FileSystem.Written.read_eq_ok`: files written at different places are read back
* `Assembler.writeBinary_eq_ok_iff`, `Assembler.writeListing_eq_ok_iff`,
  `Assembler.writeSymbols_eq_ok_iff`: when the files of a program are written
* `Assembler.atomic_writeFile`, `Assembler.atomic_writeBinary`: what cannot be written changes
  nothing
-/

namespace NibbleAsm

namespace FileSystem

variable {fs fs' : FileSystem} {p : FilePath} {name other : String} {start goal q : List String}
  {names : List String} {content : List UInt8} {e : Entry}

/-! ## Entries -/

theorem lookup_setEntries (place : List String) (e : Entry)
    (entries : List (List String × Entry)) :
    (setEntries place e entries).lookup place = some e := by
  induction entries with
  | nil => simp [setEntries]
  | cons pair rest ih =>
    obtain ⟨q, old⟩ := pair
    by_cases h : q = place
    · simp [setEntries, h]
    · simp [setEntries, h, List.lookup_cons, beq_eq_false_iff_ne.mpr (Ne.symm h), ih]

theorem lookup_setEntries_of_ne (h : q ≠ goal) (e : Entry)
    (entries : List (List String × Entry)) :
    (setEntries goal e entries).lookup q = entries.lookup q := by
  induction entries with
  | nil => simp [setEntries, List.lookup_cons, beq_eq_false_iff_ne.mpr h]
  | cons pair rest ih =>
    obtain ⟨r, old⟩ := pair
    by_cases hr : r = goal
    · simp [setEntries, hr, List.lookup_cons, beq_eq_false_iff_ne.mpr h]
    · simp [setEntries, hr, List.lookup_cons, ih]

theorem lookup?_set (fs : FileSystem) (e : Entry) (hne : goal ≠ []) :
    lookup? (fs.set goal e) goal = some e := by
  simp [lookup?, hne, set, lookup_setEntries]

theorem lookup?_set_of_ne (fs : FileSystem) (e : Entry) (h : q ≠ goal) :
    lookup? (fs.set goal e) q = fs.lookup? q := by
  simp only [lookup?, set, lookup_setEntries_of_ne h]

/-- A place that is not free is not free after an entry is set. -/
theorem isNone_lookup?_set (h : (fs.lookup? q).isNone = false) :
    (lookup? (fs.set goal e) q).isNone = false := by
  by_cases hq : q = goal
  · subst hq
    by_cases hne : q = []
    · simp [lookup?, hne]
    · rw [lookup?_set fs e hne]
      rfl
  · rwa [lookup?_set_of_ne fs e hq]

/-! ## Names -/

theorem follow_append (fs : FileSystem) (start names more : List String) :
    fs.follow start (names ++ more) = fs.follow start names >>= (fs.follow · more) := by
  induction names generalizing start with
  | nil => rfl
  | cons name rest ih =>
    rw [List.cons_append, follow, follow]
    cases fs.lookup? start with
    | none => rfl
    | some e =>
      cases e with
      | file => rfl
      | directory =>
        dsimp only
        split_ifs
        · exact ih _
        · exact ih _
        · rfl
        · rfl
        · exact ih _

/-- A file that is set where no directory was does not stand in the way. -/
theorem follow_set (free : fs.lookup? q ≠ some .directory)
    (h : fs.follow start names = .ok goal) :
    (fs.set q (.file content)).follow start names = .ok goal := by
  induction names generalizing start with
  | nil => exact h
  | cons name rest ih =>
    rw [follow] at h ⊢
    cases hstart : fs.lookup? start with
    | none => simp [hstart] at h
    | some e =>
      cases e with
      | file => simp [hstart] at h
      | directory =>
        have hq : start ≠ q := fun heq => free (heq ▸ hstart)
        rw [lookup?_set_of_ne fs _ hq, hstart]
        rw [hstart] at h
        dsimp only at h ⊢
        split_ifs at h with hdot hup hlong hnone
        · rw [if_pos hdot]
          exact ih h
        · rw [if_neg hdot, if_pos hup]
          exact ih h
        · have hsome : (lookup? (fs.set q (.file content)) (start ++ [name])).isNone = false :=
            isNone_lookup?_set (Bool.eq_false_iff.mpr hnone)
          rw [if_neg hdot, if_neg hup, if_neg hlong, if_neg (Bool.eq_false_iff.mp hsome)]
          exact ih h

theorem entry_eq_ok_iff : fs.entry name = .ok e ↔ checkName name = .ok () ∧
    ∃ goal, fs.follow (fs.start name) (steps name) = .ok goal ∧ fs.lookup? goal = some e := by
  constructor
  · intro h
    obtain ⟨_, hcheck, h⟩ := bind_eq_ok.mp (mapError_eq_ok.mp h)
    obtain ⟨goal, hfollow, h⟩ := bind_eq_ok.mp h
    refine ⟨hcheck, goal, hfollow, ?_⟩
    split at h
    · next hentry =>
      cases h
      exact hentry
    · cases h
  · rintro ⟨hcheck, goal, hfollow, hentry⟩
    refine mapError_eq_ok.mpr (bind_eq_ok.mpr ⟨(), hcheck, bind_eq_ok.mpr ⟨goal, hfollow, ?_⟩⟩)
    rw [hentry]

/-- The name of a file that can be written leads to its directory, and ends with its name there. -/
theorem writePlace_eq_ok (h : fs.writePlace name = .ok goal) :
    checkName name = .ok () ∧ ∃ names directory last,
      steps name = names ++ [last] ∧ fs.follow (fs.start name) names = .ok directory ∧
      fs.lookup? directory = some .directory ∧ (last ≠ "." ∧ last ≠ "..") ∧
      ¬last.utf8ByteSize > maxNameBytes ∧ goal = directory ++ [last] := by
  obtain ⟨_, hcheck, h⟩ := bind_eq_ok.mp h
  obtain ⟨directory, hfollow, h⟩ := bind_eq_ok.mp h
  refine ⟨hcheck, ((slashParts name).filter (· ≠ "")).dropLast, directory, ?_⟩
  split at h
  · next last hdirectory hlast =>
    split at h
    · cases h
    · next hnamed =>
      split at h
      · cases h
      · next hlong =>
        cases h
        obtain ⟨hdot, hup, hfile⟩ := by simpa only [not_or] using hnamed
        refine ⟨last, ?_, hfollow, hdirectory, ⟨hdot, hup⟩, hlong, rfl⟩
        rw [List.dropLast_append_getLast? _ hlast, steps]
        rw [if_neg hfile]
  · cases h
  · cases h
  · cases h

/-- A file is written at the place of its name, which is not the root. -/
theorem writePlace_eq_place (h : fs.writePlace name = .ok goal) :
    goal = fs.place name ∧ goal ≠ [] := by
  obtain ⟨-, names, directory, last, hsteps, hfollow, -, ⟨hdot, hup⟩, -, rfl⟩ := writePlace_eq_ok h
  refine ⟨?_, by simp⟩
  -- the last part is the name of the file, and the parts before it lead to its directory
  have hlast : [last].filter (· ≠ ".") = [last] := by simp [hdot]
  rw [place, canonical, ← filter_steps, hsteps, List.filter_append, hlast, List.foldl_append,
    List.foldl_cons, List.foldl_nil, if_neg hup, follow_eq_ok hfollow]
  rfl

/-- A file is written where no directory stands, and it is all that changes. -/
theorem write_eq_ok (h : fs.write name content = .ok fs') :
    fs.writePlace name = .ok (fs.place name) ∧ fs.lookup? (fs.place name) ≠ some .directory ∧
      fs' = fs.set (fs.place name) (.file content) := by
  unfold write at h
  split at h
  · cases h
  · next goal hgoal =>
    obtain ⟨rfl, -⟩ := writePlace_eq_place hgoal
    split at h
    · cases h
    · next hfree =>
      cases h
      exact ⟨hgoal, hfree, rfl⟩

theorem cwd_write (h : fs.write name content = .ok fs') : fs'.cwd = fs.cwd := by
  obtain ⟨-, -, rfl⟩ := write_eq_ok h
  rfl

theorem place_congr (h : fs'.cwd = fs.cwd) (name : String) : fs'.place name = fs.place name := by
  simp only [place, canonical, h]

theorem start_congr (h : fs'.cwd = fs.cwd) (name : String) : fs'.start name = fs.start name := by
  simp only [FileSystem.start, h]

/-- **The name of a file that was written leads to it.** -/
theorem entry_write_self (h : fs.write name content = .ok fs') :
    fs'.entry name = .ok (.file content) := by
  have hcwd := cwd_write h
  obtain ⟨hgoal, hfree, rfl⟩ := write_eq_ok h
  obtain ⟨hcheck, names, directory, last, hsteps, hfollow, hdirectory, ⟨hdot, hup⟩, hlong,
    hplace⟩ := writePlace_eq_ok hgoal
  have hentry := lookup?_set fs (.file content) (writePlace_eq_place hgoal).2
  have hne : directory ≠ fs.place name := fun heq => hfree (heq ▸ hdirectory)
  refine entry_eq_ok_iff.mpr ⟨hcheck, fs.place name, ?_, hentry⟩
  rw [hsteps, follow_append, start_congr hcwd, follow_set hfree hfollow]
  change (fs.set _ _).follow directory [last] = _
  rw [follow, lookup?_set_of_ne fs _ hne, hdirectory]
  dsimp only
  rw [if_neg hdot, if_neg hup, if_neg hlong, ← hplace, hentry]
  rfl

/-- **A name that leads to an entry at another place still leads to it.** -/
theorem entry_write_of_ne (h : fs.write name content = .ok fs')
    (hne : fs.place other ≠ fs.place name) (found : fs.entry other = .ok e) :
    fs'.entry other = .ok e := by
  have hcwd := cwd_write h
  obtain ⟨-, hfree, rfl⟩ := write_eq_ok h
  obtain ⟨hcheck, goal, hfollow, hentry⟩ := entry_eq_ok_iff.mp found
  have hgoal : goal = fs.place other := by
    rw [follow_eq_ok hfollow, filter_steps]
    rfl
  refine entry_eq_ok_iff.mpr ⟨hcheck, goal, ?_, ?_⟩
  · rw [start_congr hcwd]
    exact follow_set hfree hfollow
  · rwa [lookup?_set_of_ne fs _ (hgoal ▸ hne)]

theorem read_eq_ok_iff : fs.read name = .ok content ↔ fs.entry name = .ok (.file content) := by
  unfold read
  split
  · next h => simp [h]
  · next h => simp [h]
  · next h => simp [h]

/-- **A file that was written is read back**, by every path that leads to a file at its place. -/
theorem read_of_write (written : fs.write name content = .ok fs') (found : fs'.isFile p = .ok true)
    (same : fs'.place p.text = fs'.place name) : fs'.read p.text = .ok content := by
  obtain ⟨content', hfile⟩ := exists_entry_of_isFile found
  have hfound := lookup?_place hfile
  have hwritten := lookup?_place (entry_write_self written)
  rw [same, hwritten] at hfound
  cases hfound
  exact read_eq_ok_iff.mpr hfile

/-! ## Several files -/

/-- The tree after files are written one after the other. What a file is to hold may have failed to
be found, and then it is not written. -/
inductive Written : FileSystem → List (String × Except Failure (List UInt8)) → FileSystem → Prop
  | nil (fs : FileSystem) : Written fs [] fs
  | cons {fs fs₁ fs₂ : FileSystem} {name : String} {bytes : List UInt8}
      {files : List (String × Except Failure (List UInt8))}
      (write : fs.write name bytes = .ok fs₁) (rest : Written fs₁ files fs₂) :
      Written fs ((name, .ok bytes) :: files) fs₂

namespace Written

variable {files more : List (String × Except Failure (List UInt8))} {fs'' : FileSystem}

theorem singleton_iff {content : Except Failure (List UInt8)} :
    Written fs [(name, content)] fs' ↔
      ∃ bytes, content = .ok bytes ∧ fs.write name bytes = .ok fs' := by
  constructor
  · intro h
    cases h with
    | cons write rest =>
      cases rest
      exact ⟨_, rfl, write⟩
  · rintro ⟨bytes, rfl, write⟩
    exact .cons write (.nil fs')

theorem append_iff : Written fs (files ++ more) fs'' ↔
    ∃ fs', Written fs files fs' ∧ Written fs' more fs'' := by
  constructor
  · intro h
    induction files generalizing fs with
    | nil => exact ⟨fs, .nil fs, h⟩
    | cons file rest ih =>
      cases h with
      | cons write h =>
        obtain ⟨fs', first, second⟩ := ih h
        exact ⟨fs', .cons write first, second⟩
  · rintro ⟨fs', first, second⟩
    induction first with
    | nil => exact second
    | cons write _ ih => exact .cons write (ih second)

theorem unique (h : Written fs files fs') (h' : Written fs files fs'') : fs' = fs'' := by
  induction h with
  | nil =>
    cases h'
    rfl
  | cons write _ ih =>
    cases h' with
    | cons write' rest' =>
      cases write.symm.trans write'
      exact ih rest'

/-- **Writing files changes nothing at other places.** -/
theorem lookup?_of_not_mem (h : Written fs files fs')
    (hq : q ∉ files.map fun file => fs.place file.1) : fs'.lookup? q = fs.lookup? q := by
  induction h with
  | nil => rfl
  | cons write _ ih =>
    rw [List.map_cons, List.mem_cons, not_or] at hq
    simp only [place_congr (cwd_write write)] at ih
    rw [ih hq.2]
    obtain ⟨-, -, rfl⟩ := write_eq_ok write
    exact lookup?_set_of_ne _ _ hq.1

/-- A name that leads to an entry at another place leads to it in the end. -/
theorem entry_of_not_mem (h : Written fs files fs')
    (hother : fs.place other ∉ files.map fun file => fs.place file.1)
    (found : fs.entry other = .ok e) : fs'.entry other = .ok e := by
  induction h with
  | nil => exact found
  | cons write _ ih =>
    rw [List.map_cons, List.mem_cons, not_or] at hother
    simp only [place_congr (cwd_write write)] at ih
    exact ih hother.2 (entry_write_of_ne write hother.1 found)

/-- **Files that are written at different places are read back.** -/
theorem read_eq_ok (h : Written fs files fs')
    (distinct : (files.map fun file => fs.place file.1).Nodup) :
    ∀ file ∈ files, ∃ bytes, file.2 = .ok bytes ∧ fs'.read file.1 = .ok bytes := by
  induction h with
  | nil => exact List.forall_mem_nil _
  | @cons fs fs₁ fs₂ name bytes files write rest ih =>
    rw [List.map_cons, List.nodup_cons] at distinct
    have hplace := place_congr (cwd_write write)
    simp only [hplace] at ih
    refine List.forall_mem_cons.mpr ⟨⟨bytes, rfl, ?_⟩, ih distinct.2⟩
    -- the files behind it are written elsewhere
    refine read_eq_ok_iff.mpr (rest.entry_of_not_mem ?_ (entry_write_self write))
    simpa only [hplace] using distinct.1

end Written

end FileSystem

/-! ## The files of a program -/

namespace Assembler

open FileSystem (Written)

variable {fs fs' : FileSystem} {name : String} {p : Program}

theorem writeFile_of_ok {bytes : List UInt8} (h : fs.write name bytes = .ok fs') :
    writeFile name bytes fs = (fs', ⟨[], .ok ()⟩) := by
  rw [writeFile, Effect.get_bind, h]
  rfl

theorem writeFile_of_error {bytes : List UInt8} {e : FileError}
    (h : fs.write name bytes = .error e) :
    writeFile name bytes fs = (fs, ⟨[], .error (.fault (.file e))⟩) := by
  rw [writeFile, Effect.get_bind, h]
  rfl

theorem writeImage_of_ok {words : List Int} {bytes : List UInt8}
    (h : Image.pack words = .ok bytes) :
    writeImage name words = writeFile (FilePath.ofString name).text bytes := by
  rw [writeImage, h, Effect.ofExcept_ok_bind]

theorem writeImage_of_error {words : List Int} {f : Failure} (h : Image.pack words = .error f) :
    writeImage name words fs = (fs, ⟨[], .error f⟩) := by
  rw [writeImage, h, Effect.ofExcept_error_bind]
  rfl

theorem writeFile_eq_ok_iff {bytes : List UInt8} :
    ((writeFile name bytes).exec fs).result = .ok fs' ↔ Written fs [(name, .ok bytes)] fs' := by
  rw [Written.singleton_iff, Effect.exec]
  cases h : fs.write name bytes with
  | error e =>
    rw [writeFile_of_error h]
    constructor
    · intro hexec
      cases hexec
    · rintro ⟨_, ⟨⟩, hwrite⟩
      cases h.symm.trans hwrite
  | ok files =>
    rw [writeFile_of_ok h]
    constructor
    · rintro ⟨⟩
      exact ⟨bytes, rfl, h⟩
    · rintro ⟨_, ⟨⟩, hwrite⟩
      cases h.symm.trans hwrite
      rfl

theorem writeImage_eq_ok_iff {words : List Int} :
    ((writeImage name words).exec fs).result = .ok fs' ↔
      Written fs [((FilePath.ofString name).text, Image.pack words)] fs' := by
  cases h : Image.pack words with
  | error f =>
    rw [Effect.exec, writeImage_of_error h, Written.singleton_iff]
    constructor
    · intro hexec
      cases hexec
    · rintro ⟨_, ⟨⟩, _⟩
  | ok bytes => rw [writeImage_of_ok h, writeFile_eq_ok_iff]

theorem writeBinary_eq_ok_iff : ((writeBinary name p).exec fs).result = .ok fs' ↔
    Written fs [((FilePath.ofString name).text, Image.pack p.words)] fs' := by
  rw [writeBinary, Effect.exec_bind_result, bind_eq_ok, ← writeImage_eq_ok_iff]
  constructor
  · rintro ⟨_, himage, h⟩
    cases h
    exact himage
  · exact fun himage => ⟨fs', himage, rfl⟩

theorem writeListing_eq_ok_iff : ((writeListing name p).exec fs).result = .ok fs' ↔
    Written fs [((FilePath.ofString name).text, .ok (textBytes p.listingFile))] fs' :=
  writeFile_eq_ok_iff

theorem writeSymbols_eq_ok_iff : ((writeSymbols name p).exec fs).result = .ok fs' ↔
    Written fs [(name, .ok (textBytes p.symbolFile))] fs' :=
  writeFile_eq_ok_iff

/-- A file that cannot be written changes nothing. -/
theorem atomic_writeFile (name : String) (bytes : List UInt8) :
    (writeFile name bytes).Atomic := by
  refine Effect.Reads.bind_atomic Effect.reads_get fun fs => ?_
  exact Effect.Reads.bind_atomic (Effect.reads_lift _) fun files =>
    (Effect.succeeds_set files).atomic

/-- **An image that cannot be written changes nothing**: its words are packed before the file is
touched. -/
theorem atomic_writeImage (name : String) (words : List Int) : (writeImage name words).Atomic :=
  Effect.Reads.bind_atomic (Effect.reads_lift _) fun _ => atomic_writeFile _ _

theorem atomic_writeBinary (name : String) (p : Program) : (writeBinary name p).Atomic :=
  (atomic_writeImage name p.words).bind_succeeds fun _ => Effect.succeeds_notes _

end Assembler

end NibbleAsm
