/-
TreebankGrammar/Proofs/BlankLines.lean

Blank lines in a rule file.

A blank line is skipped when a rule file is read, but it is counted.  So a
file with blank lines inserted (`PaddedFile`) holds the same rules as the file
without them, and if a line of it is not a rule, that line is reported as it
stands, only with a higher number: the number of the line in the file that is
read.

What is a blank line is a matter of text, while lines are cut and lose their
carriage returns on bytes.  A blank line may itself contain a carriage return,
or end with one; what is left of it is blank all the same
(`BlankLine.exists_read`).

Design.  The line numbers of the two readings drift apart by one at every
inserted line.  The induction goes along the lines of the original, each with
the blank lines in front of it, and two readings that differ in the numbers of
their lines only are related by `Renumbered`.

Main result: `readRules_padded`.
-/
import TreebankGrammar.Proofs.FileLines
import TreebankGrammar.Proofs.LineForms
import TreebankGrammar.RuleFile.Reader

namespace TreebankGrammar

open Text (IsBlanks)

/-! ### Lines as bytes -/

/-- A line of a file, without the newline that ends it. -/
structure FileLine where
  bytes : Bytes
  whole : newline ∉ bytes

namespace FileLine

/-- The line with the given text. -/
def ofText (t : Text) (whole : '\n' ∉ t) : FileLine :=
  ⟨Text.encode t, Text.newline_not_mem_encode whole⟩

/-- The file of lines, each ended by a newline. -/
def file (lines : List FileLine) : Bytes :=
  lines.flatMap fun line => line.bytes ++ [newline]

/-- The text that is read from a line, if it is valid. -/
def read? (line : FileLine) : Option Text :=
  Bytes.decode? (Bytes.withoutReturn line.bytes)

/-- The lines of a file are read one by one. -/
theorem lines_file (lines : List FileLine) :
    (file lines).lines = lines.map read? := by
  induction lines with
  | nil => rfl
  | cons line lines ih =>
    have cut : file (line :: lines) = line.bytes ++ newline :: file lines := by
      simp [file]
    rw [cut, Bytes.lines_line_append line.whole, ih]
    rfl

end FileLine

/-! ### Blank lines -/

/-- A line of blanks only, or of nothing. -/
structure BlankLine where
  text : Text
  blank : IsBlanks text
  whole : '\n' ∉ text

namespace BlankLine

/-- A blank line as bytes. -/
def line (b : BlankLine) : FileLine := .ofText b.text b.whole

/-- A blank line is read as blanks, though one of them may be taken for the
end of the line. -/
theorem exists_read (b : BlankLine) :
    ∃ t, b.line.read? = some t ∧ IsBlanks t := by
  by_cases last : b.text.getLast? = some '\r'
  · obtain ⟨t, eq⟩ := List.getLast?_eq_some_iff.1 last
    refine ⟨t, ?_, fun c m => b.blank c ?_⟩
    · have cut : Bytes.withoutReturn (Text.encode (t ++ ['\r'])) =
          Text.encode t := by
        have bytes : Text.encode (t ++ ['\r']) =
            Text.encode t ++ [carriageReturn] := by
          rw [Text.encode_append]
          rfl
        rw [bytes, Bytes.withoutReturn, List.getLast?_concat, if_pos rfl,
          List.dropLast_concat]
      show Bytes.decode? (Bytes.withoutReturn (Text.encode b.text)) = _
      rw [eq, cut, Bytes.decode?_encode]
    · rw [eq]
      exact List.mem_append_left _ m
  · refine ⟨b.text, ?_, b.blank⟩
    show Bytes.decode? (Bytes.withoutReturn (Text.encode b.text)) = _
    rw [Text.withoutReturn_encode last, Bytes.decode?_encode]

end BlankLine

/-- Of blanks, nothing is left by trimming. -/
theorem Text.IsBlanks.trim_eq {t : Text} (h : t.IsBlanks) : trim t = [] := by
  have front : t.dropWhile isBlank = [] := List.dropWhile_eq_nil_iff.2 h
  rw [trim, front]
  rfl

/-- Blank lines are skipped and counted. -/
theorem readRuleLines_blanks (gap : List BlankLine)
    (lines : List (Option Text)) (n : Nat) :
    readRuleLines n (gap.map (fun b => b.line.read?) ++ lines) =
      readRuleLines (n + gap.length) lines := by
  induction gap generalizing n with
  | nil => rfl
  | cons b gap ih =>
    obtain ⟨t, read, blank⟩ := b.exists_read
    rw [List.map_cons, List.cons_append, read, readRuleLines, blank.trim_eq,
      List.isEmpty_nil, if_pos rfl, ih, List.length_cons, Nat.add_right_comm]
    rfl

/-! ### Readings that differ in line numbers -/

/-- The rules that are read from a file, or an error. -/
abbrev Reading := Except Error (List WeightedRule)

/-- Whether two readings are the same, but that a line which is not a rule and
has the number `k` in the first has the number `f k` in the second. -/
inductive Renumbered (f : Nat → Nat) : Reading → Reading → Prop
  | ok (rules) : Renumbered f (.ok rules) (.ok rules)
  | malformedRule (k line fault) :
      Renumbered f (.error (.malformedRule k line fault))
        (.error (.malformedRule (f k) line fault))
  | invalidText : Renumbered f (.error .invalidText) (.error .invalidText)

/-- A rule in front of two readings does not change how they differ. -/
theorem Renumbered.cons {f : Nat → Nat} {a b : Reading}
    (h : Renumbered f a b) (rule : WeightedRule) :
    Renumbered f (a.map (rule :: ·)) (b.map (rule :: ·)) := by
  cases h with
  | ok rules => exact .ok (rule :: rules)
  | malformedRule k line fault => exact .malformedRule k line fault
  | invalidText => exact .invalidText

/-! ### Files with blank lines -/

/-- A line of a file with the blank lines inserted before it. -/
structure PaddedLine where
  gap : List BlankLine
  line : FileLine

/-- A file with blank lines inserted: every line with those before it, and
those after the last one. -/
structure PaddedFile where
  lines : List PaddedLine
  last : List BlankLine

namespace PaddedFile

/-- The file without the inserted lines. -/
def original (f : PaddedFile) : Bytes :=
  FileLine.file (f.lines.map PaddedLine.line)

/-- The file with the inserted lines. -/
def padded (f : PaddedFile) : Bytes :=
  FileLine.file (f.lines.flatMap (fun l =>
    l.gap.map BlankLine.line ++ [l.line]) ++ f.last.map BlankLine.line)

/-- The number of blank lines inserted before the line that has the number `k`
in the file without them. -/
def insertedBefore (f : PaddedFile) (k : Nat) : Nat :=
  ((f.lines.take k).map fun l => l.gap.length).sum

end PaddedFile

/-- Two readings of lines, one with blank lines inserted, are the same except
for the numbers of lines.  At place `i` the numbers differ by what was
inserted so far, and by what they differed at the beginning. -/
theorem renumbered_readRuleLines {f : Nat → Nat} (last : List BlankLine)
    (lines : List PaddedLine) {n m : Nat}
    (numbers : ∀ i, f (n + i) =
      m + i + ((lines.take (i + 1)).map fun l => l.gap.length).sum) :
    Renumbered f
      (readRuleLines n (lines.map fun l => l.line.read?))
      (readRuleLines m (lines.flatMap (fun l =>
          l.gap.map (fun b => b.line.read?) ++ [l.line.read?]) ++
        last.map fun b => b.line.read?)) := by
  induction lines generalizing n m with
  | nil =>
    have skipped := readRuleLines_blanks last [] m
    rw [List.append_nil] at skipped
    rw [List.flatMap_nil, List.nil_append, skipped]
    exact .ok []
  | cons l lines ih =>
    have here : f n = m + l.gap.length := by simpa using numbers 0
    have later := @ih (n + 1) (m + l.gap.length + 1) fun i => by
      have next := numbers (i + 1)
      simp only [List.take_succ_cons, List.map_cons, List.sum_cons] at next
      rw [Nat.add_assoc n 1 i, Nat.add_comm 1 i, next]
      omega
    rw [List.map_cons, List.flatMap_cons, List.append_assoc,
      List.append_assoc, readRuleLines_blanks, List.singleton_append]
    rcases l.line.read? with - | text
    · exact .invalidText
    · rw [readRuleLines, readRuleLines]
      split
      · -- a blank line of the file itself is skipped in both
        exact later
      · rcases WeightedRule.parse text with fault | rule
        · rw [← here]
          exact .malformedRule n text fault
        · exact later.cons rule

/-- Reading a file with blank lines inserted. -/
theorem PaddedFile.renumbered (f : PaddedFile) :
    Renumbered (fun k => k + f.insertedBefore k) (readRules f.original)
      (readRules f.padded) := by
  have step := renumbered_readRuleLines f.last f.lines
    (f := fun k => k + f.insertedBefore k) (n := 1) (m := 1)
    fun i => by rw [insertedBefore, Nat.add_comm 1 i]
  rw [readRules, readRules, original, padded, FileLine.lines_file,
    FileLine.lines_file, List.map_map, List.map_append, List.map_flatMap,
    List.map_map]
  simpa only [List.map_append, List.map_map, List.map_singleton,
    Function.comp_def] using step

/-- **Blank lines are transparent.**  Let blank lines be inserted into a file
whose lines all end with a newline, anywhere and as many as one likes.  Then
the same rules are read from the file as before, in the same order, or none.
If before it failed at line `k` as that is not a rule, it fails at this line
for the same reason, and the number of the line is higher by the number of
blank lines inserted before it.  If before it failed at a line that is not
valid text, it fails in this way again. -/
theorem readRules_padded (f : PaddedFile) :
    (∀ rules, readRules f.padded = .ok rules ↔
      readRules f.original = .ok rules) ∧
    (∀ k line fault,
      readRules f.original = .error (.malformedRule k line fault) →
      readRules f.padded =
        .error (.malformedRule (k + f.insertedBefore k) line fault)) ∧
    (readRules f.padded = .error .invalidText ↔
      readRules f.original = .error .invalidText) := by
  have same := f.renumbered
  generalize readRules f.original = a at same ⊢
  generalize readRules f.padded = b at same ⊢
  cases same with
  | ok rules => simp
  | malformedRule k line fault => simp
  | invalidText => simp

/-- Three lines, the second of them blank and the third one no rule, with
blank lines before the first, before the third and at the end.  One of these
lines has a carriage return among its blanks and one at its end. -/
theorem readRules_padded_third :
    let ideographic : BlankLine :=
      ⟨"\r\u3000\r".toList, List.all_eq_true.1 (by decide), by decide⟩
    let empty : BlankLine := ⟨[], Text.isBlanks_nil, by decide⟩
    let f : PaddedFile :=
      { lines :=
          [⟨[ideographic], .ofText "S->[NP VP] : 1.0".toList (by decide)⟩,
            ⟨[], .ofText [] (by decide)⟩,
            ⟨[empty, ideographic],
              .ofText "NP->[DT _the] : 1.0".toList (by decide)⟩]
        last := [empty] }
    f.original =
        Text.encode "S->[NP VP] : 1.0\n\nNP->[DT _the] : 1.0\n".toList ∧
      f.padded = Text.encode ("\r\u3000\r\nS->[NP VP] : 1.0\n\n\n" ++
        "\r\u3000\r\nNP->[DT _the] : 1.0\n\n").toList ∧
      readRules f.original = .error (.malformedRule 3
        "NP->[DT _the] : 1.0".toList .mixedChildren) ∧
      readRules f.padded = .error (.malformedRule 6
        "NP->[DT _the] : 1.0".toList .mixedChildren) := by
  intro ideographic empty f
  have failed : readRules f.original = .error (.malformedRule 3
      "NP->[DT _the] : 1.0".toList .mixedChildren) := by decide +kernel
  exact ⟨by decide +kernel, by decide +kernel, failed,
    (readRules_padded f).2.1 _ _ _ failed⟩

end TreebankGrammar
