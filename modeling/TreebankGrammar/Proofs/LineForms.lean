/-
TreebankGrammar/Proofs/LineForms.lean

The forms of a line.

A line is its words with blanks around and between them, and how many blanks
there are makes no difference to how it is read.  `Spaced ts line` says that
a line is written in this way from the tokens `ts`; it is the relation that
cutting a text into words inverts (`spaced_iff`), so every line is written
from exactly one list of tokens.

What the line comes to is then a matter of the tokens' number and of which of
the first two look numeric.  The conditions are stated with the places of the
tokens, so they also say that the places exist.

Main result: `parse_spaced`.
-/
import TreebankGrammar.Listing.Line
import TreebankGrammar.Proofs.Words

namespace TreebankGrammar

namespace Text

/-! ### Tokens with blanks -/

/-- A text of blanks only, maybe none. -/
def IsBlanks (t : Text) : Prop := ∀ c ∈ t, isBlank c = true

/-- Tokens written in order, with at least one blank between neighbours and
any blanks in front and behind. -/
inductive Spaced : List Text → Text → Prop
  /-- Without a token there are blanks only. -/
  | blanks {gap} : IsBlanks gap → Spaced [] gap
  /-- The last token may end the text. -/
  | last {gap token} : IsBlanks gap → IsToken token →
      Spaced [token] (gap ++ token)
  /-- After a token there is a blank, and whatever the others make. -/
  | next {gap token c ts t} : IsBlanks gap → IsToken token →
      isBlank c = true → Spaced ts t →
      Spaced (token :: ts) (gap ++ token ++ c :: t)

variable {ts : List Text} {t : Text} {c : Char}

theorem IsBlanks.cons (h : IsBlanks t) (hc : isBlank c = true) :
    IsBlanks (c :: t) :=
  List.forall_mem_cons.2 ⟨hc, h⟩

theorem isBlanks_nil : IsBlanks [] := fun _ m => by cases m

theorem isToken_singleton (hc : isBlank c = false) : IsToken [c] where
  ne_nil := List.cons_ne_nil c []
  not_blank d m := by rwa [List.mem_singleton.1 m]

theorem IsToken.cons (h : IsToken t) (hc : isBlank c = false) :
    IsToken (c :: t) where
  ne_nil := List.cons_ne_nil c t
  not_blank := List.forall_mem_cons.2 ⟨hc, h.not_blank⟩

theorem words_cons_blank (hc : isBlank c = true) (t : Text) :
    words (c :: t) = words t :=
  words_append_blank hc [] t

/-- Blanks in front of a text belong to no word. -/
theorem IsBlanks.words_append {gap : Text} (h : IsBlanks gap) (t : Text) :
    words (gap ++ t) = words t := by
  induction gap with
  | nil => rfl
  | cons c gap ih =>
    obtain ⟨hc, tail⟩ := List.forall_mem_cons.1 h
    rw [List.cons_append, words_cons_blank hc, ih tail]

/-- Tokens are the words of every text that is written from them. -/
theorem Spaced.words_eq (h : Spaced ts t) : words t = ts := by
  induction h with
  | @blanks gap blanks =>
    have none := blanks.words_append []
    rwa [List.append_nil] at none
  | last gap token => rw [gap.words_append, token.words_eq]
  | next gap token hc _ ih =>
    rw [List.append_assoc, gap.words_append, words_append_blank hc,
      token.words_eq, ih]
    rfl

/-- A blank in front of a text is one of the first gap. -/
theorem Spaced.cons_blank (h : Spaced ts t) (hc : isBlank c = true) :
    Spaced ts (c :: t) := by
  cases h with
  | blanks gap => exact .blanks (gap.cons hc)
  | last gap token => exact .last (gap.cons hc) token
  | next gap token hd rest => exact .next (gap.cons hc) token hd rest

/-- Any other character in front of a text makes the first token longer, or
is a token of its own. -/
theorem Spaced.exists_cons (h : Spaced ts t) (hc : isBlank c = false) :
    ∃ us, Spaced us (c :: t) := by
  have single : IsToken [c] := isToken_singleton hc
  cases h with
  | blanks blanks =>
    rcases t with - | ⟨d, gap⟩
    · exact ⟨_, .last isBlanks_nil single⟩
    · obtain ⟨hd, tail⟩ := List.forall_mem_cons.1 blanks
      exact ⟨_, .next isBlanks_nil single hd (.blanks tail)⟩
  | @last gap token blanks first =>
    rcases gap with - | ⟨d, gap⟩
    · exact ⟨_, .last isBlanks_nil (first.cons hc)⟩
    · obtain ⟨hd, tail⟩ := List.forall_mem_cons.1 blanks
      exact ⟨_, .next isBlanks_nil single hd (.last tail first)⟩
  | @next gap token e ts t blanks first he rest =>
    rcases gap with - | ⟨d, gap⟩
    · exact ⟨_, .next isBlanks_nil (first.cons hc) he rest⟩
    · obtain ⟨hd, tail⟩ := List.forall_mem_cons.1 blanks
      exact ⟨_, .next isBlanks_nil single hd (.next tail first he rest)⟩

/-- Every text is written from tokens. -/
theorem exists_spaced (t : Text) : ∃ ts, Spaced ts t := by
  induction t with
  | nil => exact ⟨[], .blanks isBlanks_nil⟩
  | cons c t ih =>
    obtain ⟨ts, h⟩ := ih
    rcases hc : isBlank c with - | -
    · exact h.exists_cons hc
    · exact ⟨ts, h.cons_blank hc⟩

/-- **Cutting into words** undoes writing tokens with blanks. -/
theorem spaced_iff : Spaced ts t ↔ words t = ts := by
  constructor
  · exact Spaced.words_eq
  · rintro rfl
    obtain ⟨ts, h⟩ := exists_spaced t
    rwa [h.words_eq]

end Text

/-! ### Numeric tokens -/

/-- Whether a text is made of the characters `[0-9.eE+-]` only. -/
def MadeOfNumeralChars (t : Text) : Prop :=
  ∀ c ∈ t, ('0' ≤ c ∧ c ≤ '9') ∨ c ∈ ['.', 'e', 'E', '+', '-']

/-- Whether the token at a place, counted from zero, is there and looks like
a number. -/
def NumericAt (ts : List Text) (i : Nat) : Prop :=
  ∃ t, ts[i]? = some t ∧ MadeOfNumeralChars t

theorem isNumeralChar_iff {c : Char} :
    isNumeralChar c = true ↔
      ('0' ≤ c ∧ c ≤ '9') ∨ c ∈ ['.', 'e', 'E', '+', '-'] := by
  simp [isNumeralChar, Char.isDigit, Char.le_def, or_assoc]

theorem looksNumeric_iff {t : Text} (ne : t ≠ []) :
    looksNumeric t = true ↔ MadeOfNumeralChars t := by
  simp only [looksNumeric, MadeOfNumeralChars, Bool.and_eq_true,
    List.all_eq_true, isNumeralChar_iff]
  simp [ne]

namespace Line

open Text (IsToken Spaced)

/-! ### Fields -/

variable {form : LineForm} {ts : List Text}

/-- A tag, a separator and children make a line if there are three tokens at
least. -/
theorem ofFields_eq_ok_iff {line : Line} :
    ofFields form ts = .ok line ↔
      3 ≤ ts.length ∧ form = line.form ∧ ts[0]? = some line.tag ∧
        ts.drop 2 = line.children := by
  obtain ⟨form', tag, children⟩ := line
  rcases ts with - | ⟨t, - | ⟨u, - | ⟨v, ts⟩⟩⟩ <;> simp [ofFields]

theorem ofFields_eq_error_iff {fault : LineFault} :
    ofFields form ts = .error fault ↔
      ts.length < 3 ∧ fault = .wordCount := by
  rcases ts with - | ⟨t, - | ⟨u, - | ⟨v, ts⟩⟩⟩
  · simp [ofFields, eq_comm]
  · simp [ofFields, eq_comm]
  · simp [ofFields, eq_comm]
  · have long : ¬ (t :: u :: v :: ts).length < 3 := by simp
    simp only [ofFields, reduceCtorEq, long, false_and]

/-! ### Forms -/

theorem numericAt_cons_zero {t : Text} (h : t.IsToken) :
    NumericAt (t :: ts) 0 ↔ looksNumeric t = true := by
  simp [NumericAt, looksNumeric_iff h.ne_nil]

theorem numericAt_cons_succ {t : Text} {i : Nat} :
    NumericAt (t :: ts) (i + 1) ↔ NumericAt ts i := Iff.rfl

theorem not_numericAt_nil {i : Nat} : ¬ NumericAt [] i := by
  simp [NumericAt]

section Forms

variable (tokens : ∀ t ∈ ts, IsToken t)

include tokens

/-- Tokens of which the first does not look numeric are the fields of a plain
line. -/
theorem ofWords_plain (first : ¬ NumericAt ts 0) :
    ofWords ts = ofFields .plain ts := by
  rcases ts with - | ⟨t, - | ⟨u, ts⟩⟩
  · rfl
  · rw [numericAt_cons_zero (tokens t List.mem_cons_self)] at first
    simp [ofWords, first, ofFields]
  · rw [numericAt_cons_zero (tokens t List.mem_cons_self)] at first
    simp [ofWords, first]

theorem ofWords_secondParameter (first : NumericAt ts 0)
    (second : ¬ NumericAt ts 1) :
    ofWords ts = .error .secondParameter := by
  rcases ts with - | ⟨t, - | ⟨u, ts⟩⟩
  · exact absurd first not_numericAt_nil
  · rw [numericAt_cons_zero (tokens t List.mem_cons_self)] at first
    simp [ofWords, first]
  · rw [numericAt_cons_zero (tokens t List.mem_cons_self)] at first
    rw [numericAt_cons_succ, numericAt_cons_zero (tokens u (by simp))]
      at second
    simp [ofWords, first, second]

/-- Tokens after two that look numeric are the fields of a line with
parameters. -/
theorem ofWords_dirichlet (first : NumericAt ts 0)
    (second : NumericAt ts 1) :
    ofWords ts = ofFields .dirichlet (ts.drop 2) := by
  rcases ts with - | ⟨t, - | ⟨u, ts⟩⟩
  · exact absurd first not_numericAt_nil
  · exact absurd (numericAt_cons_succ.1 second) not_numericAt_nil
  · rw [numericAt_cons_zero (tokens t List.mem_cons_self)] at first
    rw [numericAt_cons_succ, numericAt_cons_zero (tokens u (by simp))]
      at second
    simp [ofWords, first, second]

end Forms

/-- What tokens come to as a line: when they are of either form, and with
which tag and which children; when the second parameter is at fault; when
their number is; and that a line has children. -/
structure FormSpec (ts : List Text) (result : Except LineFault Line) :
    Prop where
  dirichlet_iff : ∀ tag children, result = .ok ⟨.dirichlet, tag, children⟩ ↔
    (NumericAt ts 0 ∧ NumericAt ts 1 ∧ 5 ≤ ts.length) ∧
      ts[2]? = some tag ∧ ts.drop 4 = children
  plain_iff : ∀ tag children, result = .ok ⟨.plain, tag, children⟩ ↔
    (¬ NumericAt ts 0 ∧ 3 ≤ ts.length) ∧
      ts[0]? = some tag ∧ ts.drop 2 = children
  secondParameter_iff : result = .error .secondParameter ↔
    NumericAt ts 0 ∧ ¬ NumericAt ts 1
  wordCount_iff : result = .error .wordCount ↔
    NumericAt ts 0 ∧ NumericAt ts 1 ∧ ts.length < 5 ∨
      ¬ NumericAt ts 0 ∧ ts.length < 3
  children_ne_nil : ∀ line, result = .ok line → line.children ≠ []

theorem children_ne_nil_of_ofFields {line : Line}
    (h : ofFields form ts = .ok line) : line.children ≠ [] := by
  obtain ⟨length, -, -, children⟩ := ofFields_eq_ok_iff.1 h
  rw [← children, ne_eq, List.drop_eq_nil_iff]
  omega

theorem formSpec_ofWords (tokens : ∀ t ∈ ts, IsToken t) :
    FormSpec ts (ofWords ts) := by
  by_cases first : NumericAt ts 0
  · by_cases second : NumericAt ts 1
    · rw [ofWords_dirichlet tokens first second]
      refine ⟨fun tag children => ?_, fun tag children => ?_, ?_, ?_,
        fun line => children_ne_nil_of_ofFields⟩
      · rw [ofFields_eq_ok_iff]
        simp [first, second]
        omega
      · simp [ofFields_eq_ok_iff, first]
      · simp [ofFields_eq_error_iff, second]
      · simp [ofFields_eq_error_iff, first, second]
        omega
    · rw [ofWords_secondParameter tokens first second]
      exact ⟨by simp [second], by simp [first], by simp [first, second],
        by simp [first, second], nofun⟩
  · rw [ofWords_plain tokens first]
    refine ⟨fun tag children => ?_, fun tag children => ?_, ?_, ?_,
      fun line => children_ne_nil_of_ofFields⟩
    · simp [ofFields_eq_ok_iff, first]
    · simp [ofFields_eq_ok_iff, first]
    · simp [ofFields_eq_error_iff, first]
    · simp [ofFields_eq_error_iff, first]

/-- **The forms of a line.**  Every line is written from exactly one list of
tokens, with blanks around and between them.  The tokens alone decide, by
their number and by which of the first two look numeric, whether it is of
either form or what is wrong with it. -/
theorem parse_spaced (text : Text) :
    (∃! ts, Spaced ts text) ∧
      ∀ ts, Spaced ts text → FormSpec ts (parse text) := by
  refine ⟨⟨Text.words text, Text.spaced_iff.2 rfl, fun ts h =>
    h.words_eq.symm⟩, fun ts h => ?_⟩
  obtain rfl := h.words_eq
  exact formSpec_ofWords fun t => Text.isToken_of_mem_words

/-- Two parameters, one of them a single letter, blanks of six kinds, and a
tag that looks numeric itself. -/
theorem parse_spaced_parameters :
    Spaced ["1e-05".toList, "E".toList, "-".toList, "X".toList, "dog".toList]
        "\t1e-05\u2003E \u3000- X\u00A0dog\r".toList ∧
      parse "\t1e-05\u2003E \u3000- X\u00A0dog\r".toList =
        .ok ⟨.dirichlet, "-".toList, ["dog".toList]⟩ := by
  have spaced : Spaced
      ["1e-05".toList, "E".toList, "-".toList, "X".toList, "dog".toList]
      "\t1e-05\u2003E \u3000- X\u00A0dog\r".toList := by
    rw [Text.spaced_iff]
    rfl
  refine ⟨spaced, (((parse_spaced _).2 _ spaced).dirichlet_iff _ _).2 ?_⟩
  have first : NumericAt ["1e-05".toList, "E".toList, "-".toList,
      "X".toList, "dog".toList] 0 :=
    ⟨_, rfl, (looksNumeric_iff (by decide)).1 (by decide)⟩
  have second : NumericAt ["1e-05".toList, "E".toList, "-".toList,
      "X".toList, "dog".toList] 1 :=
    ⟨_, rfl, (looksNumeric_iff (by decide)).1 (by decide)⟩
  exact ⟨⟨first, second, by decide⟩, rfl, rfl⟩

end Line

end TreebankGrammar
