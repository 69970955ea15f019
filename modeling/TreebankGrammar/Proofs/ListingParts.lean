/-
TreebankGrammar/Proofs/ListingParts.lean

Reading a listing in parts.

A listing that is cut where a line ends has the lines of its first part, then
those of its second.  Reading takes in lines one by one and keeps all that it
knows in the converter, so reading the whole is reading the first part and, if
that went well, the second, whatever the converter has seen before and
whatever the bytes are.

Reading stops at the first line that cannot be taken in.  The lines before it
are texts that the converter takes in one after the other (`Takes`), and what
comes after it plays no part (`FailsFirst`).  A line that is not valid text is
seen only when it is reached (`ReachesInvalid`).

Main result: `read_in_parts`.
-/
import TreebankGrammar.Proofs.FileLines

namespace TreebankGrammar

/-! ### Lines of parts -/

namespace Bytes

/-- Whether a part of a file ends where a line ends. -/
def EndsLine (part : Bytes) : Prop :=
  part = [] ∨ part.getLast? = some newline

theorem rawLines_append {front : Bytes} (h : front.EndsLine) (rest : Bytes) :
    rawLines (front ++ rest) = rawLines front ++ rawLines rest := by
  rcases h with rfl | last
  · rfl
  · obtain ⟨before, rfl⟩ := List.getLast?_eq_some_iff.1 last
    rw [List.append_assoc, List.singleton_append, rawLines_append_newline]

/-- **The lines of a file** are those of its parts. -/
theorem lines_append {front : Bytes} (h : front.EndsLine) (rest : Bytes) :
    lines (front ++ rest) = lines front ++ lines rest := by
  rw [lines, rawLines_append h, List.map_append]
  rfl

end Bytes

/-! ### Lines after lines -/

/-- Whether an error is about the line with a number. -/
inductive Error.OnLine : Error → Nat → Prop
  | malformedLine {lineNo line fault} :
      OnLine (.malformedLine lineNo line fault) lineNo
  | preterminalConflict {lineNo conflict} :
      OnLine (.preterminalConflict lineNo conflict) lineNo

/-- An error is about one line at most. -/
theorem Error.OnLine.unique {error : Error} {j k : Nat} (h : error.OnLine j)
    (h' : error.OnLine k) : j = k := by
  cases h with
  | malformedLine =>
    cases h'
    rfl
  | preterminalConflict =>
    cases h'
    rfl

namespace Converter

/-- Taking in texts one after the other, each without an error. -/
inductive Takes : Converter → List Text → Converter → Prop
  | nil {c : Converter} : Takes c [] c
  | cons {c c' d : Converter} {text : Text} {texts : List Text} :
      c.processLine text = (none, c') → Takes c' texts d →
      Takes c (text :: texts) d

variable {c d after : Converter} {texts : List Text} {text : Text}
  {error : Error}

theorem processLines_append (lines others : List (Option Text))
    (c : Converter) :
    c.processLines (lines ++ others) =
      match c.processLines lines with
      | (some error, d) => (some error, d)
      | (none, d) => d.processLines others := by
  induction lines generalizing c with
  | nil => rfl
  | cons line lines ih =>
    rcases line with - | text
    · rfl
    · rw [List.cons_append, processLines, processLines]
      rcases c.processLine text with ⟨- | error, d⟩
      · exact ih d
      · rfl

/-- Every text that is taken in is counted. -/
theorem Takes.lines_eq (h : c.Takes texts d) :
    d.lines = c.lines + texts.length := by
  induction h with
  | nil => rfl
  | @cons c c' d text texts step _ ih =>
    have counted := (c.lines_processLine text).1
    rw [step] at counted
    rw [ih, counted rfl, List.length_cons]
    omega

theorem Takes.processLines_append (h : c.Takes texts d)
    (lines : List (Option Text)) :
    c.processLines (texts.map some ++ lines) = d.processLines lines := by
  induction h with
  | nil => rfl
  | cons step _ ih =>
    rw [List.map_cons, List.cons_append, processLines, step]
    exact ih

/-! ### The first line that fails -/

/-- A line that fails is not counted, and its error is about the number that
it would have. -/
theorem onLine_of_processLine (h : c.processLine text = (some error, after)) :
    error.OnLine (c.lines + 1) ∧ after.lines = c.lines := by
  have counted := (c.lines_processLine text).2
  rw [h] at counted
  refine ⟨?_, counted (Option.some_ne_none error)⟩
  rcases parsed : Line.parse text with fault | line
  · rw [processLine_malformed parsed] at h
    cases h
    exact .malformedLine
  · rcases c.processLine_cases parsed with ⟨c', e, -⟩ | ⟨conflict, c', e, -⟩
    · rw [e] at h
      cases h
    · rw [e] at h
      cases h
      exact .preterminalConflict

/-- The line with a number, counted from one, is the first that a converter
fails on: the lines before it are texts that are taken in, and it is a text
that is not.  What comes after it may be anything. -/
def FailsFirst (c : Converter) (lines : List (Option Text)) (k : Nat)
    (error : Error) (after : Converter) : Prop :=
  ∃ texts text rest d, lines = texts.map some ++ some text :: rest ∧
    k = texts.length + 1 ∧ c.Takes texts d ∧
    d.processLine text = (some error, after)

/-- The first line that is not valid text is reached: the lines before it are
texts that are taken in. -/
def ReachesInvalid (c : Converter) (lines : List (Option Text))
    (after : Converter) : Prop :=
  ∃ texts rest, lines = texts.map some ++ none :: rest ∧
    c.Takes texts after

/-- **Where lines end**: taking them in stops at the first one that fails, or
at the first one that is not valid text, whichever comes first. -/
theorem processLines_eq_some_iff {lines : List (Option Text)} :
    c.processLines lines = (some error, after) ↔
      (∃ k, c.FailsFirst lines k error after) ∨
        error = .invalidText ∧ c.ReachesInvalid lines after := by
  constructor
  · intro h
    induction lines generalizing c with
    | nil => cases h
    | cons line lines ih =>
      rcases line with - | text
      · cases h
        exact .inr ⟨rfl, [], lines, rfl, .nil⟩
      · rw [processLines] at h
        rcases step : c.processLine text with ⟨- | failure, c'⟩
        · -- the line is taken in, and the others stop
          rw [step] at h
          rcases ih h with ⟨k, texts, u, rest, d, rfl, rfl, takes, fails⟩ |
            ⟨rfl, texts, rest, rfl, takes⟩
          · exact .inl ⟨_, text :: texts, u, rest, d, rfl, rfl,
              .cons step takes, fails⟩
          · exact .inr ⟨rfl, text :: texts, rest, rfl, .cons step takes⟩
        · rw [step] at h
          exact .inl ⟨1, [], text, lines, c, rfl, rfl, .nil, step.trans h⟩
  · rintro (⟨k, texts, text, rest, d, rfl, rfl, takes, fails⟩ |
      ⟨rfl, texts, rest, rfl, takes⟩)
    · rw [takes.processLines_append, processLines, fails]
    · rw [takes.processLines_append, processLines]

/-- The error of the first line that fails has its number, and the lines
before it are counted. -/
theorem FailsFirst.onLine {interval k : Nat} {lines : List (Option Text)}
    (h : (start interval).FailsFirst lines k error after) :
    error.OnLine k ∧ after.lines + 1 = k := by
  obtain ⟨texts, text, rest, d, -, rfl, takes, fails⟩ := h
  obtain ⟨onLine, lines⟩ := onLine_of_processLine fails
  have counted : d.lines = texts.length := by
    rw [takes.lines_eq, start, Nat.zero_add]
  rw [counted] at onLine lines
  exact ⟨onLine, by rw [lines]⟩

/-- **Reading in parts.**  If a listing is cut where a line ends, reading it
is reading the first part and, unless that fails, the second one; the error,
the table, the number of lines and the events are the same.

A new converter stops with an error about line `k` just if line `k` is the
first that fails, whatever comes after it, and has counted the lines before
it.  It stops with any other error just if a line that is not valid text is
reached. -/
theorem read_in_parts :
    (∀ (c : Converter) (front rest : Bytes), front.EndsLine →
      c.read (front ++ rest) =
        match c.read front with
        | (some error, d) => (some error, d)
        | (none, d) => d.read rest) ∧
    ∀ (interval : Nat) (listing : Bytes) (error : Error)
      (after : Converter),
      (∀ k, (start interval).read listing = (some error, after) ∧
          error.OnLine k ↔
        (start interval).FailsFirst listing.lines k error after) ∧
      (∀ k, (start interval).read listing = (some error, after) →
        error.OnLine k → after.lines + 1 = k) ∧
      ((start interval).read listing = (some error, after) →
        (¬ ∃ k, error.OnLine k) → error = .invalidText ∧
          (start interval).ReachesInvalid listing.lines after) := by
  refine ⟨fun c front rest h => ?_, fun interval listing error after => ?_⟩
  · rw [read, Bytes.lines_append h, processLines_append]
    rfl
  · have fails (k : Nat)
        (h : (start interval).read listing = (some error, after) ∧
          error.OnLine k) :
        (start interval).FailsFirst listing.lines k error after := by
      obtain ⟨stops, onLine⟩ := h
      rcases processLines_eq_some_iff.1 stops with ⟨j, first⟩ | ⟨rfl, -⟩
      · -- the error has one number
        obtain rfl := first.onLine.1.unique onLine
        exact first
      · cases onLine
    refine ⟨fun k => ⟨fails k, fun first =>
      ⟨processLines_eq_some_iff.2 (.inl ⟨k, first⟩), first.onLine.1⟩⟩,
      fun k stops onLine => (fails k ⟨stops, onLine⟩).onLine.2, ?_⟩
    intro stops none
    rcases processLines_eq_some_iff.1 stops with ⟨k, first⟩ | invalid
    · exact absurd ⟨k, first.onLine.1⟩ none
    · exact invalid

/-- A part that ends with both bytes of a line's end, before an empty line and
one that is not valid text. -/
theorem read_in_parts_empty_line :
    let front := Text.encode "S --> A\r\n".toList
    let rest : Bytes := [newline, 255, newline]
    front.EndsLine ∧
      (start 0).read (front ++ rest) = ((start 0).read front).2.read rest ∧
      ((start 0).read (front ++ rest)).1 =
        some (.malformedLine 2 [] .wordCount) ∧
      ((start 0).read (front ++ rest)).2.lines = 1 ∧
      (start 0).FailsFirst (front ++ rest).lines 2
        (.malformedLine 2 [] .wordCount) ((start 0).read (front ++ rest)).2 := by
  intro front rest
  have ends : front.EndsLine := .inr (by decide +kernel)
  have passes : ((start 0).read front).1 = none := by decide +kernel
  have stops : (start 0).read (front ++ rest) =
      (some (.malformedLine 2 [] .wordCount),
        ((start 0).read (front ++ rest)).2) :=
    Prod.ext (by decide +kernel) rfl
  obtain ⟨fails_iff, counted, -⟩ := read_in_parts.2 0 (front ++ rest) _ _
  refine ⟨ends, ?_, congrArg Prod.fst stops, ?_,
    (fails_iff 2).1 ⟨stops, .malformedLine⟩⟩
  · have parts := read_in_parts.1 (start 0) front rest ends
    rwa [show (start 0).read front = (none, ((start 0).read front).2) from
      Prod.ext passes rfl] at parts
  · exact Nat.succ.inj (counted 2 stops .malformedLine)

end Converter

end TreebankGrammar
