/-
TreebankGrammar/Proofs/FileAccess.lean

What an access can change in a file system.

Opening a path changes no file.  Writing to one changes at most the file that
the path leads to, or a place where nothing was.  So a file survives every
write whose path does not lead to it (`lookup_of_write`), and has the written
content after every other (`write_of_find`).

Where a path leads does not depend on what is in the files.  It may depend on
the open input, which has a number by which it can be named.  But a path that
leads to a file while no input is open leads there always.  Both are the
statement that one file system *sees* what another does (`Sees`).

Main results: `find_of_sees`, `write_of_find`, `lookup_of_write`.
-/
import TreebankGrammar.Command.FileSystem

namespace TreebankGrammar.Command.FileSystem

variable {fs fs' : FileSystem} {l k : Location} {path : Text}

/-! ### Files by location -/

/-- Looking in a list with a first pair, with the test as a proposition. -/
theorem lookup_cons_eq {α β : Type} [BEq α] [LawfulBEq α] [DecidableEq α]
    (key a : α) (b : β) (rest : List (α × β)) :
    ((a, b) :: rest).lookup key =
      if key = a then some b else rest.lookup key := by
  rw [List.lookup_cons]
  by_cases here : key = a
  · simp [here]
  · rw [if_neg here, beq_eq_false_iff_ne.2 here]

/-- After `setIn` the location has the content, and every other has what it
had. -/
theorem lookup_setIn (l k : Location) (content : Bytes)
    (files : List (Location × Bytes)) :
    (setIn l content files).lookup k =
      if k = l then some content else files.lookup k := by
  induction files with
  | nil => exact lookup_cons_eq k l content []
  | cons file files ih =>
    obtain ⟨other, old⟩ := file
    rw [setIn]
    split
    · -- the location is found here, so its old content goes
      rename_i same
      rw [lookup_cons_eq, lookup_cons_eq, same]
      by_cases here : k = l <;> simp [here]
    · rename_i ne
      rw [lookup_cons_eq, lookup_cons_eq, ih]
      by_cases here : k = other
      · simp [here, ne]
      · simp [here]

theorem lookup_setFile (fs : FileSystem) (l k : Location) (content : Bytes) :
    (fs.setFile l content).files.lookup k =
      if k = l then some content else fs.files.lookup k :=
  lookup_setIn l k content fs.files

theorem fileIn?_eq_some_iff {folder : Location} {file : Location × Bytes}
    {name : Text} {content : Bytes} :
    fileIn? folder file = some (name, content) ↔
      file = (folder ++ [name], content) := by
  obtain ⟨place, old⟩ := file
  rcases List.eq_nil_or_concat place with rfl | ⟨names, last, rfl⟩
  · simp [fileIn?]
  · rw [fileIn?, List.concat_eq_append, List.getLast?_append]
    simp only [List.getLast?_singleton, Option.some_or, List.dropLast_concat]
    split
    · rename_i here
      simp [here]
    · rename_i ne
      simp [ne]

/-- A file of the working folder by its name is the file at its location. -/
theorem lookup_workingFiles (fs : FileSystem) (name : Text) :
    fs.workingFiles.lookup name = fs.files.lookup (fs.working ++ [name]) := by
  rw [workingFiles]
  induction fs.files with
  | nil => rfl
  | cons file files ih =>
    rcases found : fileIn? fs.working file with - | ⟨other, content⟩
    · -- a file that lies elsewhere is not found under the location either
      obtain ⟨place, content⟩ := file
      have ne : fs.working ++ [name] ≠ place := by
        rintro rfl
        rw [fileIn?_eq_some_iff.2 rfl] at found
        cases found
      rw [List.filterMap_cons_none found, ih, lookup_cons_eq, if_neg ne]
    · obtain rfl := fileIn?_eq_some_iff.1 found
      rw [List.filterMap_cons_some found, lookup_cons_eq, lookup_cons_eq, ih]
      simp

/-- The files that a file system is made with are those of its working
folder. -/
theorem workingFiles_ofFiles (files : List (Text × Bytes)) :
    (ofFiles files).workingFiles = files := by
  show (files.map _).filterMap (fileIn? usualWorking) = files
  rw [List.filterMap_map]
  -- each of them is found there under its own name
  exact List.filterMap_some

/-! ### What is at a location -/

theorem entry?_eq_folder_iff :
    fs.entry? l = some .folder ↔ l = [] ∨ l ∈ fs.folders := by
  unfold entry?
  split
  · rename_i here
    simp [here]
  · rename_i away
    rcases fs.devices.lookup l with - | d <;> simp [away]

theorem entry?_eq_file_iff {content : Bytes} :
    fs.entry? l = some (.file content) ↔
      ¬ (l = [] ∨ l ∈ fs.folders) ∧ fs.devices.lookup l = none ∧
        fs.files.lookup l = some content := by
  unfold entry?
  split
  · rename_i here
    simp [here]
  · rename_i away
    rcases fs.devices.lookup l with - | d <;> simp [away]

/-- A write changes what is at no other location. -/
theorem entry?_setFile_of_ne (content : Bytes) (ne : k ≠ l) :
    entry? (fs.setFile l content) k = fs.entry? k := by
  unfold entry?
  rw [lookup_setFile, if_neg ne]
  rfl

/-! ### Seeing what another file system does -/

/-- A file system has the surroundings of another and the same input open,
unless in the other none is open and nothing stands in its place. -/
structure Sees (fs fs' : FileSystem) : Prop where
  folders : fs'.folders = fs.folders
  links : fs'.links = fs.links
  devices : fs'.devices = fs.devices
  working : fs'.working = fs.working
  opened : fs'.opened = fs.opened ∨
    fs.opened = none ∧ fs.entry? inputNumber = none

/-- What is somewhere is reached in the same way. -/
theorem Sees.resolve_eq (h : fs.Sees fs') {e : Entry}
    (found : fs.entry? (fs.resolve l) = some e) :
    fs'.resolve l = fs.resolve l := by
  unfold resolve at *
  split
  · -- the number of the open input
    rename_i number
    rw [if_pos number] at found
    rcases h.opened with same | ⟨none, nothing⟩
    · rw [same]
    · rw [none, Option.getD_none, number, nothing] at found
      cases found
  · rw [h.links]

theorem Sees.entry?_folder (h : fs.Sees fs')
    (found : fs.entry? l = some .folder) : fs'.entry? l = some .folder := by
  rw [entry?_eq_folder_iff] at found ⊢
  rw [h.folders]
  exact found

theorem Sees.entry?_file (h : fs.Sees fs') {content content' : Bytes}
    (found : fs.entry? l = some (.file content))
    (now : fs'.files.lookup l = some content') :
    fs'.entry? l = some (.file content') := by
  rw [entry?_eq_file_iff] at found ⊢
  rw [h.folders, h.devices]
  exact ⟨found.1, found.2.1, now⟩

/-- A folder that is entered is entered in the other file system too. -/
theorem Sees.enter (h : fs.Sees fs') {part : Text}
    (ok : fs.enter l part = .ok k) : fs'.enter l part = .ok k := by
  unfold FileSystem.enter at *
  rcases up : moved? l part with - | place
  · rw [up] at ok
    simp only at ok ⊢
    split at ok
    · cases ok
    · rename_i short
      rw [if_neg short]
      rcases found : fs.entry? (fs.resolve (l ++ [part])) with - | e
      · rw [found] at ok
        cases ok
      · have same := h.resolve_eq found
        rw [found] at ok
        cases e with
        | folder =>
          rw [same, h.entry?_folder found]
          exact ok
        | device d => cases ok
        | file content => cases ok
  · rw [up] at ok
    exact ok

theorem Sees.foldlM_enter (h : fs.Sees fs') {parts : List Text}
    (ok : parts.foldlM fs.enter l = .ok k) :
    parts.foldlM fs'.enter l = .ok k := by
  induction parts generalizing l with
  | nil => exact ok
  | cons part parts ih =>
    rw [List.foldlM_cons] at ok ⊢
    rcases entered : fs.enter l part with fault | next
    · rw [entered] at ok
      cases ok
    · rw [entered] at ok
      rw [h.enter entered]
      exact ih ok

/-- A path that is followed is followed to the same goal. -/
theorem Sees.goal (h : fs.Sees fs') {g : Goal}
    (ok : fs.goal path = .ok g) : fs'.goal path = .ok g := by
  unfold FileSystem.goal at *
  rw [h.working]
  split at ok
  · cases ok
  · rename_i short
    rw [if_neg short]
    rcases last : (Path.ofText path).parts.getLast? with - | part
    · simpa only [last] using ok
    · simp only [last] at ok ⊢
      rcases followed : (Path.ofText path).parts.dropLast.foldlM fs.enter
        (if (Path.ofText path).fromRoot = true then [] else fs.working)
        with fault | place
      · rw [followed] at ok
        cases ok
      · rw [followed] at ok
        rw [h.foldlM_enter followed]
        exact ok

/-! ### Paths that lead to files -/

/-- A path leads to a file if its last part names the file, without a slash
behind it. -/
theorem find_eq_file_iff {content : Bytes} :
    fs.find path = .ok (l, .file content) ↔
      ∃ folder name, fs.goal path = .ok (.named folder name false) ∧
        Path.isLongerThan Path.longestName name = false ∧
        fs.resolve (folder ++ [name]) = l ∧
        fs.entry? l = some (.file content) := by
  constructor
  · intro ok
    unfold find at ok
    split at ok
    · cases ok
    · cases ok
    · rename_i folder name closed reached
      split at ok
      · cases ok
      · rename_i short
        rw [Bool.not_eq_true] at short
        -- of what may be there, only a file without a slash behind it is left
        simp only at ok
        split at ok
        · cases ok
        · cases ok
        · rename_i found
          split at ok
          · cases ok
          · rename_i unclosed
            rw [Bool.not_eq_true] at unclosed
            split at ok
            · cases ok
            · cases ok
              exact ⟨folder, name, unclosed ▸ reached, short, rfl, found⟩
  · rintro ⟨folder, name, reached, short, rfl, found⟩
    simp [find, reached, short, found]

/-- Whether a path leads to the file at a location. -/
def LeadsTo (fs : FileSystem) (path : Text) (l : Location) : Prop :=
  ∃ content, fs.find path = .ok (l, .file content)

/-- **Where paths lead.**  A path that leads to a file leads there in every
file system that sees it, if a file is there at all. -/
theorem find_of_sees (h : fs.Sees fs') {content content' : Bytes}
    (found : fs.find path = .ok (l, .file content))
    (now : fs'.files.lookup l = some content') :
    fs'.find path = .ok (l, .file content') := by
  obtain ⟨folder, name, reached, short, here, entry⟩ :=
    find_eq_file_iff.1 found
  have same : fs'.resolve (folder ++ [name]) = l := by
    rw [h.resolve_eq (here.symm ▸ entry), here]
  exact find_eq_file_iff.2
    ⟨folder, name, h.goal reached, short, same, h.entry?_file entry now⟩

theorem lookup_of_find {content : Bytes}
    (found : fs.find path = .ok (l, .file content)) :
    fs.files.lookup l = some content := by
  obtain ⟨-, -, -, -, -, entry⟩ := find_eq_file_iff.1 found
  exact (entry?_eq_file_iff.1 entry).2.2

/-! ### Opening and reading -/

/-- A file system with what is at a location open as the input. -/
def withInput (fs : FileSystem) (l : Location) : FileSystem :=
  { fs with opened := some l }

theorem openInput_of_find {e : Entry} (found : fs.find path = .ok (l, e)) :
    fs.openInput path = .ok (fs.withInput l) := by
  rw [openInput, found]
  rfl

/-- Opening only changes what is open. -/
theorem exists_withInput_of_openInput (ok : fs.openInput path = .ok fs') :
    ∃ l, fs' = fs.withInput l := by
  rw [openInput] at ok
  rcases e : fs.find path with fault | found
  · rw [e] at ok
    cases ok
  · rw [e] at ok
    cases ok
    exact ⟨found.1, rfl⟩

/-- Where no input is open, nothing is hidden by one. -/
theorem sees_of_withInput (unopened : fs.opened = none)
    (nothing : fs.entry? inputNumber = none)
    (h : (fs.withInput l).Sees fs') : fs.Sees fs' where
  folders := h.folders
  links := h.links
  devices := h.devices
  working := h.working
  opened := .inr ⟨unopened, nothing⟩

theorem content_of_find {content : Bytes}
    (found : fs.find path = .ok (l, .file content)) :
    fs.content path = .ok content := by
  rw [FileSystem.content, found]

/-! ### Writing -/

/-- **Writing to a file** replaces its content. -/
theorem write_of_find {old : Bytes} (content : Bytes)
    (found : fs.find path = .ok (l, .file old)) :
    fs.write path content = .ok (fs.setFile l content) := by
  obtain ⟨folder, name, reached, short, rfl, entry⟩ :=
    find_eq_file_iff.1 found
  simp [write, reached, short, entry]

/-- What is written to a device changes at most the standard streams. -/
theorem writeDevice_cases {content : Bytes} {d : Device}
    (ok : fs.writeDevice content d = .ok fs') :
    ∃ output errors, fs' = { fs with output, errors } := by
  cases d with
  | null => cases ok; exact ⟨_, _, rfl⟩
  | full =>
    rw [writeDevice] at ok
    split at ok
    · cases ok; exact ⟨_, _, rfl⟩
    · cases ok
  | noise => cases ok; exact ⟨_, _, rfl⟩
  | output => cases ok; exact ⟨_, _, rfl⟩
  | errors => cases ok; exact ⟨_, _, rfl⟩
  | detached => cases ok

/-- What a successful write does: it replaces the content of the file that
the path leads to, or makes a file where nothing is, or goes to a device. -/
theorem write_cases {content : Bytes}
    (ok : fs.write path content = .ok fs') :
    (∃ l, fs.LeadsTo path l ∧ fs' = fs.setFile l content) ∨
      (∃ l, fs.entry? l = none ∧ fs' = fs.setFile l content) ∨
      ∃ output errors, fs' = { fs with output, errors } := by
  unfold write at ok
  split at ok
  · cases ok
  · cases ok
  · rename_i folder name closed reached
    split at ok
    · cases ok
    · rename_i unclosed
      rw [Bool.not_eq_true] at unclosed
      split at ok
      · cases ok
      · rename_i short
        rw [Bool.not_eq_true] at short
        simp only at ok
        split at ok
        · cases ok
        · exact .inr (.inr (writeDevice_cases ok))
        · rename_i old found
          cases ok
          refine .inl ⟨_, ⟨old, find_eq_file_iff.2 ?_⟩, rfl⟩
          exact ⟨folder, name, unclosed ▸ reached, short, rfl, found⟩
        · -- nothing is there, so a file is made unless the folder is sealed
          rename_i found
          split at ok
          · cases ok
          · cases ok
            exact .inr (.inl ⟨_, found, rfl⟩)

/-- A write changes nothing about the surroundings and the open input. -/
theorem sees_of_write {content : Bytes}
    (ok : fs.write path content = .ok fs') :
    fs.Sees fs' ∧ fs'.Sees fs := by
  rcases write_cases ok with ⟨l, -, rfl⟩ | ⟨l, -, rfl⟩ | ⟨_, _, rfl⟩ <;>
    exact ⟨⟨rfl, rfl, rfl, rfl, .inl rfl⟩, ⟨rfl, rfl, rfl, rfl, .inl rfl⟩⟩

/-- **A file survives** every write whose path does not lead to it. -/
theorem lookup_of_write {content old : Bytes}
    (ok : fs.write path content = .ok fs')
    (there : fs.entry? l = some (.file old)) (other : ¬ fs.LeadsTo path l) :
    fs'.files.lookup l = some old := by
  have was : fs.files.lookup l = some old := (entry?_eq_file_iff.1 there).2.2
  rcases write_cases ok with ⟨k, leads, rfl⟩ | ⟨k, nothing, rfl⟩ | ⟨_, _, rfl⟩
  · have ne : l ≠ k := fun eq => other (eq ▸ leads)
    rw [lookup_setFile, if_neg ne, was]
  · have ne : l ≠ k := by
      rintro rfl
      rw [there] at nothing
      cases nothing
    rw [lookup_setFile, if_neg ne, was]
  · exact was

/-! ### The number of the open input -/

/-- The number of the open input is no file of the working folder: that has
three names in its location. -/
theorem inputNumber_ne (name : Text) :
    inputNumber ≠ usualWorking ++ [name] := by
  intro eq
  cases congrArg List.length eq

/-- Nothing has the number of the open input before one is open. -/
theorem entry?_inputNumber (files : List (Text × Bytes)) :
    entry? (ofFiles files) inputNumber = none := by
  have away : ¬ (inputNumber = [] ∨ inputNumber ∈ usualFolders) := by
    decide +kernel
  have undeviced : usualDevices.lookup inputNumber = none := by
    decide +kernel
  have unnamed : (ofFiles files).files.lookup inputNumber = none := by
    rw [List.lookup_eq_none_iff]
    intro file m
    obtain ⟨⟨name, content⟩, -, rfl⟩ := List.mem_map.1 m
    exact bne_iff_ne.2 (inputNumber_ne name)
  have folders : (ofFiles files).folders = usualFolders := rfl
  have devices : (ofFiles files).devices = usualDevices := rfl
  unfold entry?
  rw [folders, devices, if_neg away, undeviced]
  show ((ofFiles files).files.lookup inputNumber).map Entry.file = none
  rw [unnamed]
  rfl

/-! ### After a conversion -/

/-- A file system after the file at one location is read and the one at
another is created and written. -/
def withOutput (fs : FileSystem) (l k : Location) (content : Bytes) :
    FileSystem :=
  (((fs.withInput l).setFile k []).setFile k content).closeInput

theorem lookup_withOutput (fs : FileSystem) (l k : Location)
    (content : Bytes) :
    (fs.withOutput l k content).files.lookup k = some content :=
  (lookup_setFile _ k k content).trans (if_pos rfl)

theorem lookup_withOutput_of_ne {m : Location} (content : Bytes) (ne : m ≠ k) :
    (fs.withOutput l k content).files.lookup m = fs.files.lookup m := by
  have first : ((fs.withInput l).setFile k []).files.lookup m =
      fs.files.lookup m := (lookup_setFile _ k m []).trans (if_neg ne)
  exact ((lookup_setFile _ k m content).trans (if_neg ne)).trans first

/-- Nothing has the number of the open input when it is closed again. -/
theorem entry?_withOutput (nothing : fs.entry? inputNumber = none)
    (l : Location) (name : Text) (content : Bytes) :
    entry? (fs.withOutput l (usualWorking ++ [name]) content) inputNumber =
      none := by
  have apart := inputNumber_ne name
  exact (entry?_setFile_of_ne content apart).trans
    ((entry?_setFile_of_ne [] apart).trans nothing)

end TreebankGrammar.Command.FileSystem
