/-
TreebankGrammar/Proofs/CommandRun.lean

Runs of the command in a file system.

A run opens the input, creates the output, reads the input, converts it and
writes the result; it may end at each of these steps (`Ending`).  Checking
the result afterwards changes no file.

What becomes of the input follows.  The output is created before the input is
read.  So if both paths lead to the same file, that file is empty when it is
read: an empty listing is converted, without an error, and nothing is written
back.  In all other cases no write leads to the input, and it stays as it is.

Design.  Ways in which a path leads to a file are compared once the input is
open, since the output may name the input by the number under which it is
open (`{ fs with opened := some l }`).

Main results: how a conversion of files ends (`processFiles_ending`), and
what it leaves of its input (`lookup_input_run`).
-/
import TreebankGrammar.Command.Run
import TreebankGrammar.Proofs.FileAccess

namespace TreebankGrammar.Command

open FileSystem

variable {fs final final' : FileSystem} {input output : Text} {l : Location}
  {listing : Bytes} {failure failure' : Option (Failure × String)}

/-! ### Steps -/

theorem bind_apply {α β : Type} (x : StateM FileSystem α)
    (f : α → StateM FileSystem β) (fs : FileSystem) :
    (x >>= f) fs = f (x fs).1 (x fs).2 := rfl

theorem openInput_apply (fs : FileSystem) (path : Text) :
    access.openInput path fs =
      match fs.openInput path with
      | .ok fs => (.ok (), fs)
      | .error fault => (.error fault, fs) := rfl

theorem create_apply (fs : FileSystem) (path : Text) :
    access.create path fs =
      match fs.write path [] with
      | .ok fs => (.ok (), fs)
      | .error fault => (.error fault, fs) := rfl

theorem content_apply (fs : FileSystem) (path : Text) :
    access.content path fs = (fs.content path, fs) := rfl

theorem write_apply (fs : FileSystem) (path : Text) (content : Bytes) :
    access.write path content fs =
      match fs.write path content with
      | .ok fs => (.ok (), fs.closeInput)
      | .error fault => (.error fault, fs) := by
  show FileSystem.attempt (fun fs => (fs.write path content).map closeInput)
    fs = _
  rw [FileSystem.attempt]
  rcases fs.write path content with fault | written <;> rfl

/-! ### Endings -/

/-- How the conversion of a file to another ends: the file system that is
left, and what failed. -/
inductive Ending (fs : FileSystem) (input output : Text) :
    FileSystem → Option (Failure × String) → Prop
  /-- The input cannot be opened. -/
  | notOpened {fault} :
      fs.openInput input = .error fault →
      Ending fs input output fs (some (.opening input, fault.message))
  /-- The output cannot be created. -/
  | notCreated {opened fault} :
      fs.openInput input = .ok opened →
      opened.write output [] = .error fault →
      Ending fs input output opened (some (.creating output, fault.message))
  /-- The input cannot be read. -/
  | notRead {opened created fault} :
      fs.openInput input = .ok opened →
      opened.write output [] = .ok created →
      created.content input = .error fault →
      Ending fs input output created
        (some (.converting input, fault.message))
  /-- The input is no listing. -/
  | notConverted {opened created listing error} :
      fs.openInput input = .ok opened →
      opened.write output [] = .ok created →
      created.content input = .ok listing →
      (convert listing none).result = .error error →
      Ending fs input output created
        (some (.converting input, error.message))
  /-- The output cannot be written. -/
  | notWritten {opened created listing n fault} :
      fs.openInput input = .ok opened →
      opened.write output [] = .ok created →
      created.content input = .ok listing →
      (convert listing none).result = .ok n →
      created.write output (convert listing none).output = .error fault →
      Ending fs input output created (some (.writing output, fault.message))
  /-- The rule file is written. -/
  | converted {opened created written listing n} :
      fs.openInput input = .ok opened →
      opened.write output [] = .ok created →
      created.content input = .ok listing →
      (convert listing none).result = .ok n →
      created.write output (convert listing none).output = .ok written →
      Ending fs input output written.closeInput none

/-- **Conversions of files** end in one of these ways. -/
theorem processFiles_ending (fs : FileSystem) (input output : Text) :
    Ending fs input output (processFiles access input output fs).2
      (processFiles access input output fs).1.failure := by
  rw [processFiles, bind_apply, openInput_apply]
  rcases opening : fs.openInput input with fault | opened
  · exact .notOpened opening
  simp only
  rw [bind_apply, create_apply]
  rcases creating : opened.write output [] with fault | created
  · exact .notCreated opening creating
  simp only
  rw [bind_apply, content_apply]
  rcases reading : created.content input with fault | listing
  · exact .notRead opening creating reading
  simp only
  rcases run : (Converter.start Converter.defaultInterval).read listing with
    ⟨- | error, converter⟩
  · -- the steps of the command are those of a conversion without a limit
    have converting : (convert listing none).result =
        .ok converter.finish.table.ruleLines.length := by
      rw [convert, run]
      rfl
    have written : (convert listing none).output =
        (converter.finish.table.write none).taken := by
      rw [convert, run]
      rfl
    simp only
    rw [bind_apply, write_apply, ← written]
    rcases writing : created.write output (convert listing none).output
      with fault | written
    · exact .notWritten opening creating reading converting writing
    · exact .converted opening creating reading converting writing
  · have converting : (convert listing none).result = .error error := by
      rw [convert, run]
    exact .notConverted opening creating reading converting

/-- A conversion ends in one way: the results of its steps decide which. -/
theorem Ending.unique (h : Ending fs input output final failure)
    (h' : Ending fs input output final' failure') :
    final = final' ∧ failure = failure' := by
  cases h <;> cases h' <;> simp_all

/-- Whichever way a conversion ends, the file system that is left comes from
the one before by at most the opening, the creation and the writing. -/
theorem Ending.left_cases (h : Ending fs input output final failure) :
    final = fs ∨ ∃ opened, fs.openInput input = .ok opened ∧
      (final = opened ∨ ∃ created, opened.write output [] = .ok created ∧
        (final = created ∨ ∃ content written,
          created.write output content = .ok written ∧
            final = written.closeInput)) := by
  cases h with
  | notOpened => exact .inl rfl
  | notCreated opening => exact .inr ⟨_, opening, .inl rfl⟩
  | notRead opening creating =>
    exact .inr ⟨_, opening, .inr ⟨_, creating, .inl rfl⟩⟩
  | notConverted opening creating =>
    exact .inr ⟨_, opening, .inr ⟨_, creating, .inl rfl⟩⟩
  | notWritten opening creating =>
    exact .inr ⟨_, opening, .inr ⟨_, creating, .inl rfl⟩⟩
  | converted opening creating _ _ writing =>
    exact .inr ⟨_, opening, .inr ⟨_, creating, .inr ⟨_, _, writing, rfl⟩⟩⟩

/-! ### Checks -/

/-- Whether a rule file can be read and its distributions are in order. -/
def Passes (file : Bytes) : Prop :=
  ∃ rules, readRules file = .ok rules ∧ verify rules = .ok ()

/-- A check changes nothing but which file is open. -/
theorem exists_opened_verifyFile (fs : FileSystem) (path : Text) :
    ∃ opened, (verifyFile access path fs).2 = { fs with opened } := by
  rw [verifyFile, bind_apply, openInput_apply, openInput]
  rcases fs.find path with fault | found
  · exact ⟨fs.opened, rfl⟩
  · refine ⟨some found.1, ?_⟩
    simp only [Except.map]
    rw [bind_apply, content_apply]
    rcases content { fs with opened := some found.1 } path with fault | file
    · rfl
    · simp only
      rcases readRules file with error | rules
      · rfl
      · simp only
        rcases verify rules with error | ok <;> rfl

/-- The check of a file succeeds just if the file passes. -/
theorem failure_verifyFile {path : Text} {file : Bytes}
    (unopened : fs.opened = none) (nothing : fs.entry? inputNumber = none)
    (found : fs.find path = .ok (l, .file file)) :
    (verifyFile access path fs).1.failure = none ↔ Passes file := by
  -- the path still leads to the file when it is open
  have sees : fs.Sees (fs.withInput l) :=
    ⟨rfl, rfl, rfl, rfl, .inr ⟨unopened, nothing⟩⟩
  have was : fs.files.lookup l = some file := lookup_of_find found
  have reading := content_of_find (find_of_sees sees found was)
  rw [verifyFile, bind_apply, openInput_apply, openInput_of_find found]
  simp only
  rw [bind_apply, content_apply, reading, Passes]
  simp only
  rcases readRules file with error | rules
  · show some _ = none ↔ _
    simp
  · simp only
    rcases checked : verify rules with error | ok
    · show some _ = none ↔ _
      simp [checked]
    · exact ⟨fun _ => ⟨rules, rfl, checked⟩, fun _ => rfl⟩

/-- An empty rule file passes. -/
theorem passes_nil : Passes [] := ⟨[], rfl, rfl⟩

/-! ### Jobs -/

/-- A job is its conversion and, if that succeeds and a check is asked for,
the check of the output. -/
theorem runJob_eq (fs : FileSystem) (job : Job) :
    ((runJob access job fs).1.failure, (runJob access job fs).2) =
      let conversion := processFiles access job.input job.output fs
      if conversion.1.failure = none ∧ job.verify = true then
        let check := verifyFile access job.output conversion.2
        (check.1.failure, check.2)
      else (conversion.1.failure, conversion.2) := by
  rw [runJob, bind_apply]
  rcases processFiles access job.input job.output fs with
    ⟨⟨reports, - | failure⟩, left⟩
  · rcases job.verify with - | - <;> rfl
  · rfl

/-- A job succeeds just if its conversion does, and the check if there is
one. -/
theorem failure_runJob (fs : FileSystem) (job : Job) :
    (runJob access job fs).1.failure = none ↔
      (processFiles access job.input job.output fs).1.failure = none ∧
        (job.verify = true → (verifyFile access job.output
          (processFiles access job.input job.output fs).2).1.failure =
            none) := by
  have eq := congrArg Prod.fst (runJob_eq fs job)
  simp only at eq
  rw [eq]
  split
  · rename_i checked
    simp [checked.1, checked.2]
  · rename_i unchecked
    constructor
    · intro ok
      exact ⟨ok, fun asked => absurd ⟨ok, asked⟩ unchecked⟩
    · exact And.left

/-- The files that a job leaves are those that its conversion leaves. -/
theorem workingFiles_runJob (fs : FileSystem) (job : Job) :
    (runJob access job fs).2.workingFiles =
      (processFiles access job.input job.output fs).2.workingFiles := by
  have eq := congrArg (fun ended => ended.2.workingFiles) (runJob_eq fs job)
  refine eq.trans ?_
  simp only
  split
  · -- a check only opens the output
    obtain ⟨opened, same⟩ := exists_opened_verifyFile
      (processFiles access job.input job.output fs).2 job.output
    show (verifyFile access job.output _).2.workingFiles = _
    rw [same]
    rfl
  · rfl

/-- A run is the run of the job that it is asked for. -/
theorem run_eq {arguments : List Text} {job : Job}
    (asked : request? arguments = some (.convert job)) (fs : FileSystem) :
    run access arguments fs =
      ((runJob access job fs).1.transcript job.debug,
        (runJob access job fs).2) := by
  rw [run, asked]
  rfl

theorem code_transcript (outcome : Outcome) (debug : Bool) :
    (outcome.transcript debug).code =
      if outcome.failure = none then 0 else 1 := by
  rw [Outcome.transcript]
  rcases outcome.failure with - | failure <;> rfl

/-- The exit code of a job. -/
theorem code_run {arguments : List Text} {job : Job}
    (asked : request? arguments = some (.convert job)) (fs : FileSystem) :
    (run access arguments fs).1.code =
      if (runJob access job fs).1.failure = none then 0 else 1 := by
  rw [run_eq asked, code_transcript]

/-! ### The input -/

/-- A conversion does not move the working folder. -/
theorem Ending.working_eq (h : Ending fs input output final failure) :
    final.working = fs.working := by
  rcases h.left_cases with rfl | ⟨opened, opening, rest⟩
  · rfl
  obtain ⟨l, rfl⟩ := exists_withInput_of_openInput opening
  rcases rest with rfl | ⟨created, creating, rest⟩
  · rfl
  have same : created.working = fs.working :=
    (sees_of_write creating).1.working
  rcases rest with rfl | ⟨content, written, writing, rfl⟩
  · exact same
  · show written.working = fs.working
    rw [(sees_of_write writing).1.working, same]

/-- **An input survives** a conversion whose output does not lead to it. -/
theorem Ending.lookup_input (h : Ending fs input output final failure)
    (named : fs.find input = .ok (l, .file listing))
    (other : ¬ (fs.withInput l).LeadsTo output l) :
    final.files.lookup l = some listing := by
  have was : fs.files.lookup l = some listing := lookup_of_find named
  rcases h.left_cases with rfl | ⟨opened, opening, rest⟩
  · exact was
  obtain rfl := Except.ok.inj ((openInput_of_find named).symm.trans opening)
  rcases rest with rfl | ⟨created, creating, rest⟩
  · exact was
  have there : entry? (fs.withInput l) l = some (.file listing) := by
    obtain ⟨-, -, -, -, -, entry⟩ := find_eq_file_iff.1 named
    exact entry
  have kept := lookup_of_write creating there other
  rcases rest with rfl | ⟨content, written, writing, rfl⟩
  · exact kept
  · -- creating the output does not make it lead to the input
    obtain ⟨sees, seen⟩ := sees_of_write creating
    have away : ¬ created.LeadsTo output l := by
      rintro ⟨content, found⟩
      exact other ⟨listing, find_of_sees seen found was⟩
    show written.files.lookup l = some listing
    exact lookup_of_write writing (sees.entry?_file there kept) away

/-- An empty listing is converted to an empty rule file. -/
theorem convert_nil :
    (convert [] none).result = .ok 0 ∧ (convert [] none).output = [] :=
  ⟨rfl, rfl⟩

/-- **An input is emptied**, without a failure, by a conversion whose output
leads to it. -/
theorem Ending.lookup_input_same (h : Ending fs input output final failure)
    (unopened : fs.opened = none) (nothing : fs.entry? inputNumber = none)
    (named : fs.find input = .ok (l, .file listing))
    (same : (fs.withInput l).LeadsTo output l) :
    failure = none ∧ final = fs.withOutput l l [] := by
  obtain ⟨old, leads⟩ := same
  have creates := write_of_find [] leads
  obtain ⟨sees, -⟩ := sees_of_write creates
  have empty : ((fs.withInput l).setFile l []).files.lookup l = some [] := by
    rw [lookup_setFile, if_pos rfl]
  -- both paths still lead to the file, which is empty by now
  have reads := content_of_find
    (find_of_sees (sees_of_withInput unopened nothing sees) named empty)
  have writes := write_of_find [] (find_of_sees sees leads empty)
  rw [← convert_nil.2] at writes
  obtain ⟨rfl, rfl⟩ := h.unique
    (.converted (openInput_of_find named) creates reads convert_nil.1 writes)
  exact ⟨rfl, rfl⟩

/-- The file of a name after a run is what the conversion leaves at its
location. -/
theorem lookup_run {arguments : List Text} {job : Job}
    (asked : request? arguments = some (.convert job))
    (files : List (Text × Bytes)) (name : Text) :
    (run access arguments (ofFiles files)).2.workingFiles.lookup name =
      (processFiles access job.input job.output
        (ofFiles files)).2.files.lookup (usualWorking ++ [name]) := by
  rw [run_eq asked, workingFiles_runJob, lookup_workingFiles,
    (processFiles_ending _ _ _).working_eq]
  rfl

/-- A check of the empty file finds nothing wrong. -/
theorem failure_verifyFile_emptied {files : List (Text × Bytes)} {name : Text}
    (leads : (ofFiles files).LeadsTo output (usualWorking ++ [name])) :
    (verifyFile access output ((ofFiles files).withOutput
      (usualWorking ++ [name]) (usualWorking ++ [name]) [])).1.failure =
        none := by
  obtain ⟨old, leads⟩ := leads
  have sees : (ofFiles files).Sees ((ofFiles files).withOutput
      (usualWorking ++ [name]) (usualWorking ++ [name]) []) :=
    ⟨rfl, rfl, rfl, rfl, .inl rfl⟩
  have found := find_of_sees sees leads (lookup_withOutput _ _ _ _)
  have nothing := entry?_withOutput (entry?_inputNumber files)
    (usualWorking ++ [name]) name []
  exact (failure_verifyFile rfl nothing found).2 passes_nil

/-- **What a run leaves of its input.**  Let the first path of a job lead to
a file of the working folder.  If the second does not lead to the same file,
not even by way of the open input, then this file is as it was when the run
is over.  If it does, the file is empty, and the run reports success; even a
check does, unless the second path leads nowhere without the input. -/
theorem lookup_input_run {files : List (Text × Bytes)}
    {arguments : List Text} {job : Job}
    (asked : request? arguments = some (.convert job)) {name : Text}
    (named : (ofFiles files).find job.input =
      .ok (usualWorking ++ [name], .file listing)) :
    (¬ ((ofFiles files).withInput (usualWorking ++ [name])).LeadsTo job.output
        (usualWorking ++ [name]) →
      (run access arguments (ofFiles files)).2.workingFiles.lookup name =
        some listing) ∧
    (((ofFiles files).withInput (usualWorking ++ [name])).LeadsTo job.output
        (usualWorking ++ [name]) →
      (run access arguments (ofFiles files)).2.workingFiles.lookup name =
        some [] ∧
      (job.verify = false ∨
          (ofFiles files).LeadsTo job.output (usualWorking ++ [name]) →
        (run access arguments (ofFiles files)).1.code = 0)) := by
  have ending := processFiles_ending (ofFiles files) job.input job.output
  have nothing := entry?_inputNumber files
  rw [lookup_run asked]
  constructor
  · exact ending.lookup_input named
  · intro same
    obtain ⟨ok, final⟩ := ending.lookup_input_same rfl nothing named same
    constructor
    · rw [final]
      exact lookup_withOutput _ _ _ _
    · intro reached
      rw [code_run asked]
      refine if_pos ((failure_runJob _ _).2 ⟨ok, fun checked => ?_⟩)
      rw [final]
      rcases reached with unchecked | leads
      · rw [unchecked] at checked
        cases checked
      · exact failure_verifyFile_emptied leads

/-- The listing survives beside its output.  It is lost when the output is
another path to it, and a check finds nothing wrong. -/
theorem lookup_input_run_in :
    (run access ["in".toList, "out".toList]
        (ofFiles [("in".toList, Text.encode "S --> A\n".toList)])
      ).2.workingFiles.lookup "in".toList =
        some (Text.encode "S --> A\n".toList) ∧
    (run access ["--verify".toList, "in".toList, "./in".toList]
        (ofFiles [("in".toList, Text.encode "S --> A\n".toList)])
      ).2.workingFiles.lookup "in".toList = some [] ∧
    (run access ["--verify".toList, "in".toList, "./in".toList]
      (ofFiles [("in".toList, Text.encode "S --> A\n".toList)])).1.code =
        0 := by
  have named : (ofFiles [("in".toList, Text.encode "S --> A\n".toList)]).find
      "in".toList = .ok (usualWorking ++ ["in".toList],
        .file (Text.encode "S --> A\n".toList)) := rfl
  constructor
  · have asked : request? ["in".toList, "out".toList] =
        some (.convert ⟨"in".toList, "out".toList, 0, false, false⟩) := by
      decide +kernel
    refine (lookup_input_run asked named).1 ?_
    rintro ⟨content, found⟩
    have nothing : ((ofFiles
        [("in".toList, Text.encode "S --> A\n".toList)]).withInput
          (usualWorking ++ ["in".toList])).find "out".toList =
        .error .notFound := rfl
    cases nothing.symm.trans found
  · have asked : request? ["--verify".toList, "in".toList, "./in".toList] =
        some (.convert ⟨"in".toList, "./in".toList, 0, false, true⟩) := by
      decide +kernel
    have leads : (ofFiles
        [("in".toList, Text.encode "S --> A\n".toList)]).LeadsTo
          "./in".toList (usualWorking ++ ["in".toList]) :=
      ⟨Text.encode "S --> A\n".toList, rfl⟩
    obtain ⟨emptied, code⟩ := (lookup_input_run asked named).2
      ⟨Text.encode "S --> A\n".toList, rfl⟩
    exact ⟨emptied, code (.inr leads)⟩

/-- **Inputs are not safe.**  Not every listing in the working folder is kept
by a run, though both paths lead to files there: one that is named as the
output too is emptied. -/
theorem not_lookup_input_run :
    ¬ ∀ (files : List (Text × Bytes)) (arguments : List Text) (job : Job),
      request? arguments = some (.convert job) →
      ∀ (name other : Text) (listing old : Bytes),
        (ofFiles files).find job.input =
          .ok (usualWorking ++ [name], .file listing) →
        (ofFiles files).find job.output =
          .ok (usualWorking ++ [other], .file old) →
        (run access arguments (ofFiles files)).2.workingFiles.lookup name =
          some listing := by
  intro kept
  have still := kept [("in".toList, Text.encode "S --> A\n".toList)]
    ["in".toList, "in".toList] ⟨"in".toList, "in".toList, 0, false, false⟩
    (by decide +kernel) "in".toList "in".toList
    (Text.encode "S --> A\n".toList) (Text.encode "S --> A\n".toList)
    rfl rfl
  have emptied : (run access ["in".toList, "in".toList]
      (ofFiles [("in".toList, Text.encode "S --> A\n".toList)])
      ).2.workingFiles.lookup "in".toList = some [] := by
    decide +kernel
  cases emptied.symm.trans still

end TreebankGrammar.Command
