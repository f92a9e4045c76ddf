import NibbleAsm.Proofs.SymbolName
import Mathlib.Data.Finset.Card

/-!
# Paths and places

Files are compared by places, which are found from the parts of a path alone, and they are read by
following the text of a path through the tree. Both agree: the text of a path has the parts of the
path, and a text that leads to a file leads to the place that its parts name. So a file has one
place, whatever the spelling of its path.

## Main definitions

* `FileSystem.place`: the place that a name leads to
* `FileSystem.isFileAt`, `FileSystem.filePlaces`: the places of files

## Main results

* `FilePath.ofString_text`: a path is read back from its text
* `FileSystem.follow_eq_ok`: following names leads to the place that they name
* `FileSystem.lookup?_place`: a name that leads to an entry leads to the entry at its place
* `FileSystem.isFileAt_canonical`: a path with a file behind it names the place of a file
* `FileSystem.isPseudoFile_text`: when the path of a file does not read like a pseudo-file
* `Search.place_mem_filePlaces`: a file that is found is one of the files at their places
-/

namespace NibbleAsm

/-! ## Texts of paths -/

/-- A slash in front makes an empty piece in front. -/
theorem slashParts_of_slash {s t : String} (h : s.toList = '/' :: t.toList) :
    slashParts s = "" :: slashParts t := by
  have hsplit := List.splitOn_append_cons_self (a := '/') [] t.toList
  rw [List.nil_append, List.splitOn_nil] at hsplit
  rw [slashParts, h, hsplit]
  rfl

/-- Pieces without a slash are read back from the text that joins them. -/
theorem slashParts_join {parts : List String} (hne : parts ≠ [])
    (hparts : ∀ part ∈ parts, '/' ∉ part.toList) :
    slashParts (Text.join "/" parts) = parts := by
  have hsplit : (['/'].intercalate (parts.map String.toList)).splitOn '/' =
      parts.map String.toList :=
    List.splitOn_intercalate '/' (by simpa using hparts) (by simpa using hne)
  rw [slashParts, Text.join, String.toList_intercalate]
  exact (congrArg (List.map String.ofList) hsplit).trans (by simp)

/-- Joined pieces start with the character that the first piece starts with. -/
theorem head?_join {part : String} (rest : List String) (hne : part ≠ "") :
    (Text.join "/" (part :: rest)).toList.head? = part.toList.head? := by
  have hcs : part.toList ≠ [] := fun h => hne (String.toList_eq_nil_iff.mp h)
  obtain ⟨c, cs, hcs⟩ := List.exists_cons_of_ne_nil hcs
  rw [Text.join, String.toList_intercalate]
  cases rest <;> simp [List.intercalate, hcs]

namespace FilePath

section Text

variable {p : FilePath}

/-- The joined parts of a path do not start with a slash. -/
theorem takeWhile_join (p : FilePath) :
    (Text.join "/" p.parts).toList.takeWhile (· = '/') = [] := by
  cases hp : p.parts with
  | nil => rfl
  | cons part rest =>
    have hpart : part ∈ p.parts := hp ▸ List.mem_cons_self
    have hslash := p.undivided part hpart
    have hhead := head?_join rest (p.named part hpart).1
    cases hcs : (Text.join "/" (part :: rest)).toList with
    | nil => rfl
    | cons c cs =>
      rw [hcs, List.head?_cons] at hhead
      have hc : c ≠ '/' := fun heq => hslash (heq ▸ List.mem_of_head? hhead.symm)
      simp [hc]

/-- The pieces of the text of a path with parts are the parts, behind an empty piece for each slash
that the path starts with. -/
theorem slashParts_text (hne : p.parts ≠ []) :
    ∃ n, slashParts p.text = List.replicate n "" ++ p.parts := by
  have hjoin := slashParts_join hne p.undivided
  unfold FilePath.text
  rw [if_neg fun hp => hne hp.2]
  cases p.anchor with
  | relative => exact ⟨0, by simpa [Anchor.text] using hjoin⟩
  | root =>
    refine ⟨1, ?_⟩
    rw [slashParts_of_slash (t := Text.join "/" p.parts) (by simp [Anchor.text]), hjoin]
    rfl
  | doubleRoot =>
    refine ⟨2, ?_⟩
    rw [slashParts_of_slash (t := "/" ++ Text.join "/" p.parts) (by simp [Anchor.text]),
      slashParts_of_slash (t := Text.join "/" p.parts) (by simp), hjoin]
    rfl

theorem anchor_text (hne : p.parts ≠ []) :
    Anchor.ofString p.text = p.anchor := by
  have hjoin := p.takeWhile_join
  unfold FilePath.text Anchor.ofString
  rw [if_neg fun hp => hne hp.2, String.toList_append]
  cases p.anchor with
  | relative => simp [Anchor.text, hjoin]
  | root => simp [Anchor.text, hjoin]
  | doubleRoot => simp [Anchor.text, hjoin]

theorem text_of_parts_eq_nil (h : p.parts = []) :
    p.text = if p.anchor = .relative then "." else p.anchor.text := by
  simp [text, h, Text.join]

/-- **A path is read back from its text.** -/
theorem ofString_text (p : FilePath) : ofString p.text = p := by
  by_cases hne : p.parts = []
  · have hread : ∀ a : Anchor, (ofString (if a = .relative then "." else a.text)).anchor = a ∧
        (ofString (if a = .relative then "." else a.text)).parts = [] := by
      intro a
      cases a <;> decide +kernel
    obtain ⟨hanchor, hparts⟩ := hread p.anchor
    rw [← text_of_parts_eq_nil hne] at hanchor hparts
    exact FilePath.ext hanchor (hparts.trans hne.symm)
  · obtain ⟨n, hparts⟩ := slashParts_text hne
    have hkeep : p.parts.filter (fun part => part ≠ "" ∧ part ≠ ".") = p.parts :=
      List.filter_eq_self.mpr fun part hpart => by simpa using p.named part hpart
    refine FilePath.ext (anchor_text hne) ?_
    show (slashParts p.text).filter (fun part => part ≠ "" ∧ part ≠ ".") = p.parts
    rw [hparts, List.filter_append, hkeep, List.filter_replicate]
    simp

end Text

end FilePath

/-! ## Places -/

namespace FileSystem

/-- The place that a name leads to, whatever its spelling. -/
def place (fs : FileSystem) (name : String) : List String :=
  fs.canonical (.ofString name)

/-- Whether a file stands at a place. -/
def isFileAt (fs : FileSystem) (place : List String) : Bool :=
  match fs.lookup? place with
  | some (.file _) => true
  | _ => false

/-- The places of all files. -/
def filePlaces (fs : FileSystem) : Finset (List String) :=
  (fs.entries.map Prod.fst).toFinset.filter fun place => fs.isFileAt place = true

variable {fs : FileSystem} {p : FilePath} {name : String} {names start goal : List String}

/-- An entry other than the root is one of the list. -/
theorem mem_entries {e : Entry} (hne : goal ≠ []) (h : fs.lookup? goal = some e) :
    (goal, e) ∈ fs.entries := by
  rw [lookup?, if_neg hne] at h
  obtain ⟨before, after, hentries, -⟩ := List.lookup_eq_some_iff.mp h
  exact hentries ▸ List.mem_append_right _ List.mem_cons_self

theorem mem_filePlaces : goal ∈ fs.filePlaces ↔ fs.isFileAt goal = true := by
  rw [filePlaces, Finset.mem_filter, List.mem_toFinset, and_iff_right_iff_imp]
  unfold isFileAt
  split
  · next hentry =>
    -- the root is a directory
    have hne : goal ≠ [] := by
      rintro rfl
      cases hentry
    exact fun _ => List.mem_map_of_mem (mem_entries hne hentry)
  · exact nofun

/-- A name that leads to an entry can be followed to it, and has no character that no access
accepts. -/
theorem entry_eq_ok {e : Entry} (h : fs.entry name = .ok e) :
    '\x00' ∉ name.toList ∧
      ∃ place, fs.follow (fs.start name) (steps name) = .ok place ∧ fs.lookup? place = some e := by
  obtain ⟨_, hcheck, h⟩ := bind_eq_ok.mp (mapError_eq_ok.mp h)
  obtain ⟨place, hfollow, h⟩ := bind_eq_ok.mp h
  refine ⟨?_, place, hfollow, ?_⟩
  · unfold checkName at hcheck
    split at hcheck
    · cases hcheck
    · next hnull => simpa using hnull
  · split at h
    · next hentry =>
      cases h
      exact hentry
    · cases h

/-- **Following names leads to the place that they name**, if they can be followed at all. A dot
leads nowhere. -/
theorem follow_eq_ok (h : fs.follow start names = .ok goal) :
    goal = (names.filter (· ≠ ".")).foldl
      (fun place part => if part = ".." then place.dropLast else place ++ [part]) start := by
  induction names generalizing start with
  | nil =>
    cases h
    rfl
  | cons name rest ih =>
    unfold follow at h
    -- a name is passed from a directory only, and to its parent or to an entry of it
    split at h
    · cases h
    · cases h
    · split at h
      · next hdot => simpa [hdot] using ih h
      · next hdot =>
        split at h
        · next hup => simpa [hdot, hup] using ih h
        · next hdown =>
          split at h
          · cases h
          · split at h
            · cases h
            · simpa [hdot, hdown] using ih h

/-- The names to follow for a text are the parts of its path, but for dots. -/
theorem filter_steps (name : String) :
    (steps name).filter (· ≠ ".") = (FilePath.ofString name).parts := by
  have hparts : ((slashParts name).filter (· ≠ "")).filter (· ≠ ".") =
      (FilePath.ofString name).parts := by
    simp [FilePath.ofString, List.filter_filter, Bool.and_comm]
  unfold steps
  dsimp only
  split
  · rw [List.filter_append, hparts]
    simp
  · exact hparts

/-- **A name that leads to an entry leads to the entry at its place.** -/
theorem lookup?_place {e : Entry} (h : fs.entry name = .ok e) :
    fs.lookup? (fs.place name) = some e := by
  obtain ⟨-, goal, hfollow, hgoal⟩ := entry_eq_ok h
  have hplace := follow_eq_ok hfollow
  rw [filter_steps] at hplace
  rwa [hplace] at hgoal

/-- The names to follow for the text of a path are its parts. -/
theorem steps_text (hne : p.parts ≠ []) : steps p.text = p.parts := by
  obtain ⟨n, hparts⟩ := FilePath.slashParts_text hne
  have hkeep : p.parts.filter (· ≠ "") = p.parts :=
    List.filter_eq_self.mpr fun part hpart => by simpa using (p.named part hpart).1
  have hlast : (List.replicate n "" ++ p.parts).getLast? ≠ some "" := by
    intro hlast
    rw [List.getLast?_append_of_ne_nil _ hne] at hlast
    exact (p.named "" (List.mem_of_getLast? hlast)).1 rfl
  unfold steps
  rw [hparts]
  dsimp only
  rw [if_neg hlast, List.filter_append, hkeep, List.filter_replicate]
  simp

theorem start_text (p : FilePath) :
    fs.start p.text = if p.anchor = .relative then fs.cwd else [] := by
  have hanchor := congrArg FilePath.anchor p.ofString_text
  unfold FileSystem.start
  exact hanchor ▸ rfl

/-- A path with a file behind it has a text that leads to the file. -/
theorem exists_entry_of_isFile (h : fs.isFile p = .ok true) :
    ∃ content, fs.entry p.text = .ok (.file content) := by
  unfold isFile entryIs at h
  split at h
  · next e hentry =>
    cases e with
    | directory => cases h
    | file content => exact ⟨content, hentry⟩
  · split at h <;> cases h

/-- **A path with a file behind it names the place of a file.** -/
theorem isFileAt_canonical (h : fs.isFile p = .ok true) :
    fs.isFileAt (fs.canonical p) = true := by
  obtain ⟨content, hentry⟩ := exists_entry_of_isFile h
  have hplace := lookup?_place hentry
  rw [place, FilePath.ofString_text] at hplace
  simp [isFileAt, hplace]

/-- The first name to be followed leads to an entry, unless it leads upwards. -/
theorem mem_entries_of_follow (hdot : name ≠ "." ∧ name ≠ "..")
    (h : fs.follow start (name :: names) = .ok goal) : ∃ e, (start ++ [name], e) ∈ fs.entries := by
  unfold follow at h
  split at h
  · cases h
  · cases h
  · rw [if_neg hdot.1, if_neg hdot.2] at h
    split at h
    · cases h
    · split at h
      · cases h
      · next hsome =>
        obtain ⟨e, he⟩ := Option.ne_none_iff_exists'.mp (mt Option.isNone_iff_eq_none.mpr hsome)
        exact ⟨e, mem_entries (by simp) he⟩

/-- The path of a file does not read like the name of a pseudo-file, if no entry of the working
directory does. -/
theorem isPseudoFile_text (plain : ∀ e ∈ fs.entries, e.1.dropLast = fs.cwd →
    ∀ name ∈ e.1.getLast?, isPseudoFile name = false)
    (h : fs.isFile p = .ok true) : isPseudoFile p.text = false := by
  by_contra hpseudo
  have hhead : p.text.toList.head? = some '<' := by
    simpa [isPseudoFile, Text.startsWith] using hpseudo
  obtain ⟨content, hentry⟩ := exists_entry_of_isFile h
  obtain ⟨-, goal, hfollow, -⟩ := entry_eq_ok hentry
  cases hparts : p.parts with
  | nil =>
    rw [FilePath.text_of_parts_eq_nil hparts] at hhead
    cases hanchor : p.anchor <;> rw [hanchor] at hhead <;> exact absurd hhead (by decide +kernel)
  | cons part rest =>
    have hpart := (p.named part (hparts ▸ List.mem_cons_self)).1
    rw [steps_text (hparts ▸ List.cons_ne_nil _ _), start_text, hparts] at hfollow
    cases hanchor : p.anchor with
    | relative =>
      rw [hanchor] at hfollow
      -- then the first part does, and it is followed from the working directory
      have hname : part.toList.head? = some '<' := by
        rw [← head?_join rest hpart]
        simpa [FilePath.text, Anchor.text, hanchor, hparts] using hhead
      have hdot : part ≠ "." ∧ part ≠ ".." := by
        constructor <;> rintro rfl <;> exact absurd hname (by decide +kernel)
      obtain ⟨e, he⟩ := mem_entries_of_follow hdot hfollow
      have hplain := plain _ he (by simp) part (by simp)
      simp [isPseudoFile, Text.startsWith, hname] at hplain
    | root | doubleRoot => simp [FilePath.text, Anchor.text, hanchor] at hhead

end FileSystem

/-! ## Files that are found -/

namespace Search

variable {search : Search} {name : String} {location : Option Location} {path : FilePath}

theorem firstFile_eq_ok {fs : FileSystem} {paths : List FilePath}
    (h : firstFile fs paths = .ok (some path)) : path ∈ paths ∧ fs.isFile path = .ok true := by
  induction paths with
  | nil => cases h
  | cons first rest ih =>
    obtain ⟨isFile, hfile, h⟩ := bind_eq_ok.mp h
    cases isFile with
    | true =>
      cases h
      exact ⟨List.mem_cons_self, hfile⟩
    | false =>
      obtain ⟨hmem, hpath⟩ := ih h
      exact ⟨List.mem_cons_of_mem _ hmem, hpath⟩

theorem find_eq_ok (h : search.find name location = .ok path) :
    path ∈ search.candidates name location ∧ search.files.isFile path = .ok true :=
  firstFile_eq_ok ((proper_find _ _ _).of_ok h)

/-- The text of a path that is found leads to the place of a file. -/
theorem place_mem_filePlaces (h : search.find name location = .ok path) :
    search.files.place path.text = search.files.canonical path ∧
      search.files.canonical path ∈ search.files.filePlaces := by
  refine ⟨congrArg search.files.canonical path.ofString_text, ?_⟩
  exact FileSystem.mem_filePlaces.mpr (FileSystem.isFileAt_canonical (find_eq_ok h).2)

end Search

end NibbleAsm
