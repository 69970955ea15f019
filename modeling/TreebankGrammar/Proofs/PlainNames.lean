/-
TreebankGrammar/Proofs/PlainNames.lean

Runs of the command with plain names.

A plain name is a name that a file can have.  As a path it leads to the file
of this name in the working folder: nothing else has its location there.  So
reading the path comes down to a look-up of the name, and a write to the path
sets the file and cannot fail.

With two different plain names, a run then comes to a conversion of the one
file to the other.  The input is read as it was before the output is created,
since it is another file.  What becomes of the files depends on the two names
and on the input only, and not on the options.

Main results: where plain names lead (`find_plain`, `write_plain`), and the
files and the exit code after a run (`run_plain`).
-/
import TreebankGrammar.Proofs.CommandRun
import TreebankGrammar.Proofs.Conversion
import TreebankGrammar.Proofs.Words

namespace TreebankGrammar.Command

open FileSystem

/-! ### Plain names -/

/-- Whether a text is a name that a file can have: a part of a path that
does not move, and that is not too long. -/
structure IsPlainName (t : Text) : Prop where
  ne_nil : t ≠ []
  slashless : '/' ∉ t
  ne_same : t ≠ Path.same
  ne_above : t ≠ Path.above
  short : Path.isLongerThan Path.longestName t = false

instance (t : Text) : Decidable (IsPlainName t) :=
  decidable_of_iff
    (t ≠ [] ∧ '/' ∉ t ∧ t ≠ Path.same ∧ t ≠ Path.above ∧
      Path.isLongerThan Path.longestName t = false)
    ⟨fun ⟨full, slashless, same, above, short⟩ =>
        ⟨full, slashless, same, above, short⟩,
      fun h => ⟨h.ne_nil, h.slashless, h.ne_same, h.ne_above, h.short⟩⟩

variable {fs final : FileSystem} {name input output : Text}

/-- A plain name is a path with itself as the only part. -/
theorem IsPlainName.path_eq (h : IsPlainName name) :
    Path.ofText name = ⟨false, [name], false⟩ := by
  have uncut : cutAll (· == '/') name = (name, []) := by
    refine cutAll_eq_self fun c m => ?_
    rw [beq_eq_false_iff_ne]
    rintro rfl
    exact h.slashless m
  have relative : (name.head? == some '/') = false := by
    rw [beq_eq_false_iff_ne]
    exact fun eq => h.slashless (List.mem_of_head? eq)
  have unclosed : (name.getLast? == some '/') = false := by
    rw [beq_eq_false_iff_ne]
    exact fun eq => h.slashless (List.mem_of_getLast? eq)
  have full : name.isEmpty = false := List.isEmpty_eq_false_iff.2 h.ne_nil
  simp [Path.ofText, uncut, relative, unclosed, full]

/-- A plain name leads to the name in the working folder. -/
theorem IsPlainName.goal_eq (h : IsPlainName name) (fs : FileSystem) :
    fs.goal name = .ok (.named fs.working name false) := by
  have short : Path.isLongerThan Path.longest name = false := by
    have fits : ¬ Path.longestName < (Text.encode name).length :=
      of_decide_eq_false h.short
    refine decide_eq_false ?_
    rw [Path.longestName] at fits
    rw [Path.longest]
    omega
  have still : moved? fs.working name = none := by
    rw [moved?, if_neg h.ne_same, if_neg h.ne_above]
  simp only [goal, short, h.path_eq, List.getLast?_singleton,
    List.dropLast_singleton, List.foldlM_nil, pure, Except.pure, still,
    Bool.false_eq_true, if_false]

namespace FileSystem

/-! ### The working folder -/

/-- Whether the surroundings of the working folder are the usual ones. -/
structure IsUsual (fs : FileSystem) : Prop where
  folders : fs.folders = usualFolders
  sealed : fs.sealed = usualSealed
  links : fs.links = usualLinks
  devices : fs.devices = usualDevices
  working : fs.working = usualWorking

theorem isUsual_ofFiles (files : List (Text × Bytes)) :
    (ofFiles files).IsUsual := ⟨rfl, rfl, rfl, rfl, rfl⟩

theorem IsUsual.withInput (h : fs.IsUsual) (l : Location) :
    (fs.withInput l).IsUsual :=
  ⟨h.folders, h.sealed, h.links, h.devices, h.working⟩

theorem IsUsual.setFile (h : fs.IsUsual) (l : Location) (content : Bytes) :
    (fs.setFile l content).IsUsual :=
  ⟨h.folders, h.sealed, h.links, h.devices, h.working⟩

/-- Nothing of the surroundings has its location in the working folder. -/
theorem ne_of_dropLast_ne {l : Location} (away : l.dropLast ≠ usualWorking)
    (name : Text) : usualWorking ++ [name] ≠ l := by
  rintro rfl
  exact away List.dropLast_concat

theorem lookup_working {α : Type} {things : List (Location × α)}
    (away : ∀ thing ∈ things, thing.1.dropLast ≠ usualWorking)
    (name : Text) : things.lookup (usualWorking ++ [name]) = none := by
  rw [List.lookup_eq_none_iff]
  intro thing m
  exact bne_iff_ne.2 (ne_of_dropLast_ne (away thing m) name)

/-- No name in the working folder is a link. -/
theorem IsUsual.resolve_eq (h : fs.IsUsual) (name : Text) :
    fs.resolve (usualWorking ++ [name]) = usualWorking ++ [name] := by
  have unlinked : usualLinks.lookup (usualWorking ++ [name]) = none :=
    lookup_working (by decide +kernel) name
  rw [resolve, if_neg (inputNumber_ne name).symm, h.links, unlinked,
    Option.getD_none]

/-- Names in the working folder are those of files. -/
theorem IsUsual.entry?_eq (h : fs.IsUsual) (name : Text) :
    fs.entry? (usualWorking ++ [name]) =
      (fs.files.lookup (usualWorking ++ [name])).map .file := by
  have undeviced : usualDevices.lookup (usualWorking ++ [name]) = none :=
    lookup_working (by decide +kernel) name
  have elsewhere : ∀ l ∈ usualFolders, l.dropLast ≠ usualWorking := by
    decide +kernel
  have away : ¬ (usualWorking ++ [name] = [] ∨
      usualWorking ++ [name] ∈ usualFolders) := by
    rintro (root | m)
    · exact List.append_ne_nil_of_right_ne_nil _ (List.cons_ne_nil _ _) root
    · exact ne_of_dropLast_ne (elsewhere _ m) name rfl
  unfold entry?
  rw [h.folders, h.devices, if_neg away, undeviced]

/-- **Reading a plain name** is looking it up. -/
theorem find_plain (h : fs.IsUsual) (plain : IsPlainName name) :
    fs.find name =
      match fs.files.lookup (usualWorking ++ [name]) with
      | none => .error .notFound
      | some content => .ok (usualWorking ++ [name], .file content) := by
  simp only [find, plain.goal_eq, plain.short, h.working, h.resolve_eq,
    h.entry?_eq, Bool.false_eq_true, if_false]
  rcases fs.files.lookup (usualWorking ++ [name]) with - | content <;> rfl

/-- **Writing to a plain name** sets the file. -/
theorem write_plain (h : fs.IsUsual) (plain : IsPlainName name)
    (content : Bytes) :
    fs.write name content =
      .ok (fs.setFile (usualWorking ++ [name]) content) := by
  have unsealed : usualSealed.lookup usualWorking = none := by
    decide +kernel
  simp only [write, plain.goal_eq, plain.short, h.working, h.resolve_eq,
    h.entry?_eq, h.sealed, unsealed, Bool.false_eq_true, if_false]
  rcases fs.files.lookup (usualWorking ++ [name]) with - | old <;> rfl

end FileSystem

/-! ### Conversions -/

section Plain

variable {failure : Option (Failure × String)} {listing : Bytes}

/-- Without an input, nothing happens. -/
theorem Ending.eq_of_missing (h : Ending fs input output final failure)
    (usual : fs.IsUsual) (plain : IsPlainName input)
    (missing : fs.files.lookup (usualWorking ++ [input]) = none) :
    final = fs ∧ failure ≠ none := by
  have opening : fs.openInput input = .error .notFound := by
    rw [openInput, find_plain usual plain, missing]
    rfl
  obtain ⟨rfl, rfl⟩ := h.unique (.notOpened opening)
  exact ⟨rfl, Option.some_ne_none _⟩

/-- With an input, the output is created beside it, and the input is read
as it was. -/
theorem reading_plain (usual : fs.IsUsual) (plain : IsPlainName input)
    (plain' : IsPlainName output) (apart : input ≠ output)
    (there : fs.files.lookup (usualWorking ++ [input]) = some listing) :
    ∃ opened created, fs.openInput input = .ok opened ∧
      opened.write output [] = .ok created ∧
      created.content input = .ok listing ∧ created.IsUsual ∧
      created = (fs.withInput (usualWorking ++ [input])).setFile
        (usualWorking ++ [output]) [] := by
  have named : fs.find input =
      .ok (usualWorking ++ [input], .file listing) := by
    rw [find_plain usual plain, there]
  have opened := usual.withInput (usualWorking ++ [input])
  have created := opened.setFile (usualWorking ++ [output]) []
  have ne : usualWorking ++ [input] ≠ usualWorking ++ [output] := by
    simpa using apart
  have still : ((fs.withInput (usualWorking ++ [input])).setFile
      (usualWorking ++ [output]) []).files.lookup (usualWorking ++ [input]) =
        some listing := by
    rw [lookup_setFile, if_neg ne]
    exact there
  have found := find_plain created plain
  rw [still] at found
  exact ⟨_, _, openInput_of_find named, write_plain opened plain' [],
    content_of_find found, created, rfl⟩

/-- If the input is rejected, the output is empty. -/
theorem Ending.eq_of_rejected (h : Ending fs input output final failure)
    (usual : fs.IsUsual) (plain : IsPlainName input)
    (plain' : IsPlainName output) (apart : input ≠ output)
    (there : fs.files.lookup (usualWorking ++ [input]) = some listing)
    (rejected : ¬ Accepts listing) :
    failure ≠ none ∧ final = (fs.withInput (usualWorking ++ [input])).setFile
      (usualWorking ++ [output]) [] := by
  obtain ⟨opened, created, opening, creating, reading, -, rfl⟩ :=
    reading_plain usual plain plain' apart there
  rcases converting : (convert listing none).result with error | n
  · obtain ⟨rfl, rfl⟩ :=
      h.unique (.notConverted opening creating reading converting)
    exact ⟨Option.some_ne_none _, rfl⟩
  · exact absurd ⟨n, converting⟩ rejected

/-- If the input is accepted, the output is what it is converted to. -/
theorem Ending.eq_of_accepted (h : Ending fs input output final failure)
    (usual : fs.IsUsual) (plain : IsPlainName input)
    (plain' : IsPlainName output) (apart : input ≠ output)
    (there : fs.files.lookup (usualWorking ++ [input]) = some listing)
    (accepted : Accepts listing) :
    failure = none ∧ final = fs.withOutput (usualWorking ++ [input])
      (usualWorking ++ [output]) (convert listing none).output := by
  obtain ⟨opened, created, opening, creating, reading, ready, rfl⟩ :=
    reading_plain usual plain plain' apart there
  obtain ⟨n, converting⟩ := accepted
  obtain ⟨rfl, rfl⟩ := h.unique (.converted opening creating reading
    converting (write_plain ready plain' _))
  exact ⟨rfl, rfl⟩

end Plain

/-! ### Runs -/

theorem lookup_ofFiles (files : List (Text × Bytes)) (name : Text) :
    (ofFiles files).files.lookup (usualWorking ++ [name]) =
      files.lookup name := by
  have same := lookup_workingFiles (ofFiles files) name
  rw [workingFiles_ofFiles] at same
  exact same.symm

section Runs

variable {files : List (Text × Bytes)} {arguments : List Text} {job : Job}

/-- A run changes no file but the output. -/
theorem lookup_run_of_ne (asked : request? arguments = some (.convert job))
    (plain : IsPlainName job.input) (plain' : IsPlainName job.output)
    (apart : job.input ≠ job.output) (ne : name ≠ job.output) :
    (run access arguments (ofFiles files)).2.workingFiles.lookup name =
      files.lookup name := by
  have usual := isUsual_ofFiles files
  have ending := processFiles_ending (ofFiles files) job.input job.output
  have other : usualWorking ++ [name] ≠ usualWorking ++ [job.output] := by
    simpa using ne
  rw [lookup_run asked, ← lookup_ofFiles]
  rcases there : (ofFiles files).files.lookup (usualWorking ++ [job.input])
    with - | listing
  · rw [(ending.eq_of_missing usual plain there).1]
  · by_cases accepted : Accepts listing
    · rw [(ending.eq_of_accepted usual plain plain' apart there accepted).2]
      exact lookup_withOutput_of_ne _ other
    · rw [(ending.eq_of_rejected usual plain plain' apart there accepted).2]
      exact (lookup_setFile _ _ _ _).trans (if_neg other)

/-- A run that fails to convert exits with 1. -/
theorem code_run_of_failed (asked : request? arguments = some (.convert job))
    (failed : (processFiles access job.input job.output
      (ofFiles files)).1.failure ≠ none) :
    (run access arguments (ofFiles files)).1.code = 1 := by
  rw [code_run asked, if_neg]
  intro ok
  exact failed ((failure_runJob _ _).1 ok).1

/-- A run without an input fails, and changes nothing at all. -/
theorem run_of_missing (asked : request? arguments = some (.convert job))
    (plain : IsPlainName job.input) (missing : files.lookup job.input = none) :
    (run access arguments (ofFiles files)).1.code = 1 ∧
      (run access arguments (ofFiles files)).2 = ofFiles files := by
  have ending := processFiles_ending (ofFiles files) job.input job.output
  rw [← lookup_ofFiles] at missing
  obtain ⟨same, failed⟩ :=
    ending.eq_of_missing (isUsual_ofFiles files) plain missing
  refine ⟨code_run_of_failed asked failed, ?_⟩
  have left := congrArg Prod.snd (runJob_eq (ofFiles files) job)
  simp only [failed, false_and, if_false] at left
  rw [run_eq asked, left, same]

/-- A run whose input is rejected fails, and leaves an empty output. -/
theorem run_of_rejected (asked : request? arguments = some (.convert job))
    (plain : IsPlainName job.input) (plain' : IsPlainName job.output)
    (apart : job.input ≠ job.output) {listing : Bytes}
    (there : files.lookup job.input = some listing)
    (rejected : ¬ Accepts listing) :
    (run access arguments (ofFiles files)).1.code = 1 ∧
      (run access arguments (ofFiles files)).2.workingFiles.lookup
        job.output = some [] := by
  have ending := processFiles_ending (ofFiles files) job.input job.output
  rw [← lookup_ofFiles] at there
  obtain ⟨failed, left⟩ := ending.eq_of_rejected (isUsual_ofFiles files) plain
    plain' apart there rejected
  refine ⟨code_run_of_failed asked failed, ?_⟩
  rw [lookup_run asked, left, lookup_setFile, if_pos rfl]

/-- A check of the output reads what was written. -/
theorem failure_verifyFile_plain (files : List (Text × Bytes))
    (plain : IsPlainName output) (l : Location) (content : Bytes) :
    (verifyFile access output ((ofFiles files).withOutput l
      (usualWorking ++ [output]) content)).1.failure = none ↔
        Passes content := by
  have usual : ((ofFiles files).withOutput l (usualWorking ++ [output])
      content).IsUsual := ⟨rfl, rfl, rfl, rfl, rfl⟩
  have nothing := entry?_withOutput (entry?_inputNumber files) l output content
  have found := find_plain usual plain
  rw [lookup_withOutput] at found
  exact failure_verifyFile rfl nothing found

/-- A run whose input is accepted writes what it is converted to, and
succeeds just if the check that may be asked for does. -/
theorem run_of_accepted (asked : request? arguments = some (.convert job))
    (plain : IsPlainName job.input) (plain' : IsPlainName job.output)
    (apart : job.input ≠ job.output) {listing : Bytes}
    (there : files.lookup job.input = some listing)
    (accepted : Accepts listing) :
    (run access arguments (ofFiles files)).2.workingFiles.lookup job.output =
        some (convert listing none).output ∧
      (job.verify = false ∨ Passes (convert listing none).output →
        (run access arguments (ofFiles files)).1.code = 0) ∧
      (job.verify = true → ¬ Passes (convert listing none).output →
        (run access arguments (ofFiles files)).1.code = 1) := by
  have ending := processFiles_ending (ofFiles files) job.input job.output
  rw [← lookup_ofFiles] at there
  obtain ⟨ok, left⟩ := ending.eq_of_accepted (isUsual_ofFiles files) plain
    plain' apart there accepted
  have check := failure_verifyFile_plain files plain'
    (usualWorking ++ [job.input]) (convert listing none).output
  rw [← left] at check
  rw [lookup_run asked, code_run asked]
  refine ⟨?_, fun passes => if_pos ?_, fun checked fails => if_neg ?_⟩
  · rw [left]
    exact lookup_withOutput _ _ _ _
  · refine (failure_runJob _ _).2 ⟨ok, fun checked => check.2 ?_⟩
    rcases passes with unchecked | passes
    · rw [unchecked] at checked
      cases checked
    · exact passes
  · intro done
    exact fails (check.1 (((failure_runJob _ _).1 done).2 checked))

/-- The files after a run depend on the two paths and the files before. -/
theorem workingFiles_run_congr {arguments' : List Text} {job' : Job}
    (asked : request? arguments = some (.convert job))
    (asked' : request? arguments' = some (.convert job'))
    (input : job'.input = job.input) (output : job'.output = job.output)
    (fs : FileSystem) :
    (run access arguments' fs).2.workingFiles =
      (run access arguments fs).2.workingFiles := by
  rw [run_eq asked, run_eq asked', workingFiles_runJob, workingFiles_runJob,
    input, output]

/-- **Runs with plain names.**  Let the paths of a job be two different plain
names.  A run changes no file but the output.

* If the input is accepted, the output holds what it is converted to.  The
  exit code is 0; but if a check is asked for and the output does not pass,
  it is 1.
* If the input is rejected, the output is empty and the exit code is 1.
* If there is no input, nothing is changed and the exit code is 1.

So the options do not matter for the files. -/
theorem run_plain (files : List (Text × Bytes))
    (asked : request? arguments = some (.convert job))
    (plain : IsPlainName job.input) (plain' : IsPlainName job.output)
    (apart : job.input ≠ job.output) :
    (∀ name, name ≠ job.output →
      (run access arguments (ofFiles files)).2.workingFiles.lookup name =
        files.lookup name) ∧
    (∀ listing n, files.lookup job.input = some listing →
      (convert listing none).result = .ok n →
      (run access arguments (ofFiles files)).2.workingFiles.lookup
          job.output = some (convert listing none).output ∧
        (job.verify = false ∨ Passes (convert listing none).output →
          (run access arguments (ofFiles files)).1.code = 0) ∧
        (job.verify = true → ¬ Passes (convert listing none).output →
          (run access arguments (ofFiles files)).1.code = 1)) ∧
    (∀ listing error, files.lookup job.input = some listing →
      (convert listing none).result = .error error →
      (run access arguments (ofFiles files)).1.code = 1 ∧
        (run access arguments (ofFiles files)).2.workingFiles.lookup
          job.output = some []) ∧
    (files.lookup job.input = none →
      (run access arguments (ofFiles files)).1.code = 1 ∧
        (run access arguments (ofFiles files)).2 = ofFiles files) ∧
    ∀ arguments' job', request? arguments' = some (.convert job') →
      job'.input = job.input → job'.output = job.output →
      (run access arguments' (ofFiles files)).2.workingFiles =
        (run access arguments (ofFiles files)).2.workingFiles := by
  refine ⟨?_, ?_, ?_, run_of_missing asked plain, ?_⟩
  · intro name ne
    exact lookup_run_of_ne asked plain plain' apart ne
  · intro listing n there accepted
    exact run_of_accepted asked plain plain' apart there ⟨n, accepted⟩
  · intro listing error there rejected
    refine run_of_rejected asked plain plain' apart there ?_
    rintro ⟨n, accepted⟩
    cases accepted.symm.trans rejected
  · intro arguments' job' asked' input output
    exact workingFiles_run_congr asked asked' input output _

/-- A listing is converted to a file that replaces an older one, and the
check finds this file in order. -/
theorem run_plain_checked :
    (run access ["-d".toList, "in".toList, "out".toList, "--verify".toList]
        (ofFiles [("in".toList, Text.encode "S --> A\n".toList),
          ("out".toList, Text.encode "old".toList)])
      ).2.workingFiles.lookup "out".toList =
        some (Text.encode "S->[A] : 1.000000e+00\n".toList) ∧
    (run access ["-d".toList, "in".toList, "out".toList, "--verify".toList]
        (ofFiles [("in".toList, Text.encode "S --> A\n".toList),
          ("out".toList, Text.encode "old".toList)])).1.code = 0 := by
  have asked : request?
      ["-d".toList, "in".toList, "out".toList, "--verify".toList] =
        some (.convert ⟨"in".toList, "out".toList, 0, true, true⟩) := by
    decide +kernel
  have output : (convert (Text.encode "S --> A\n".toList) none).output =
      Text.encode "S->[A] : 1.000000e+00\n".toList := by
    decide +kernel
  have passes : Passes (Text.encode "S->[A] : 1.000000e+00\n".toList) :=
    ⟨[⟨⟨"S".toList, [.nonterminal "A".toList]⟩, uniformProbability 1⟩],
      by decide +kernel, by decide +kernel⟩
  have run := run_plain [("in".toList, Text.encode "S --> A\n".toList),
      ("out".toList, Text.encode "old".toList)] asked (by decide +kernel)
    (by decide +kernel) (by decide +kernel)
  obtain ⟨written, code, -⟩ := run.2.1 (Text.encode "S --> A\n".toList) 1
    rfl (by decide +kernel)
  rw [output] at written code
  exact ⟨written, code (.inr passes)⟩

end Runs

end TreebankGrammar.Command
