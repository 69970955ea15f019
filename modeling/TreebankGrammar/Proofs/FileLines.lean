/-
TreebankGrammar/Proofs/FileLines.lean

The lines of a written file.

A file is cut into lines on bytes, and a line is decoded after that.  This
undoes writing texts with a newline after each, if none of them contains a
newline or ends with a carriage return (`Text.IsLine`): in UTF-8 no byte of
another character is mistaken for one of these two.

The texts that a rule file is made of are of this sort, since they are made
of words, spaces and marks.

Main result: the lines of the rule file of an accepted listing are the rules
of its table (`lines_output`).
-/
import TreebankGrammar.Proofs.ProbabilityText
import TreebankGrammar.Proofs.Reachable

namespace TreebankGrammar

open Text (IsToken)

/-! ### Bytes of characters -/

/-- A byte of the first half is the encoding of its own character only. -/
theorem toNat_eq_of_mem_utf8EncodeChar {c : Char} {b : UInt8}
    (m : b ∈ String.utf8EncodeChar c) (low : b.toNat < 128) :
    c.toNat = b.toNat := by
  have cast : ∀ n : Nat, (UInt8.ofNat n).toNat = n % 256 := fun n => rfl
  -- all bytes of a longer encoding are of the second half
  have high : ∀ n, b = UInt8.ofNat n → ¬ (128 ≤ n ∧ n < 256) := by
    rintro n rfl ⟨le, lt⟩
    rw [cast] at low
    omega
  rw [String.utf8EncodeChar] at m
  show c.val.toNat = b.toNat
  split at m
  · rw [List.mem_singleton.1 m, cast]
    omega
  · exfalso
    split at m
    · simp only [List.mem_cons, List.not_mem_nil, or_false] at m
      rcases m with e | e <;> exact high _ e (by omega)
    · split at m
      · simp only [List.mem_cons, List.not_mem_nil, or_false] at m
        rcases m with e | e | e <;> exact high _ e (by omega)
      · simp only [List.mem_cons, List.not_mem_nil, or_false] at m
        rcases m with e | e | e | e <;> exact high _ e (by omega)

theorem eq_of_mem_utf8EncodeChar {c d : Char}
    (m : UInt8.ofNat d.toNat ∈ String.utf8EncodeChar c)
    (low : d.toNat < 128) : c = d := by
  have byte : (UInt8.ofNat d.toNat).toNat = d.toNat :=
    Nat.mod_eq_of_lt (by omega)
  have code := toNat_eq_of_mem_utf8EncodeChar m (byte.symm ▸ low)
  rw [byte] at code
  exact Char.toNat_inj.1 code

theorem Text.encode_flatten (ts : List Text) :
    Text.encode ts.flatten = (ts.map Text.encode).flatten := by
  induction ts with
  | nil => rfl
  | cons t ts ih =>
    rw [List.flatten_cons, Text.encode_append, ih, List.map_cons,
      List.flatten_cons]

/-! ### Lines -/

namespace Bytes

/-- Lines that are completed one after the other. -/
theorem linesOfPieces_append (piece : Bytes) (pieces : List Bytes)
    (last : Bytes) (others : List Bytes) :
    linesOfPieces piece (pieces ++ last :: others) =
      (piece :: pieces).map withoutReturn ++ linesOfPieces last others := by
  induction pieces generalizing piece with
  | nil => rfl
  | cons next pieces ih =>
    rw [List.cons_append, linesOfPieces, ih]
    rfl

/-- **Files come apart at a newline.** -/
theorem rawLines_append_newline (front rest : Bytes) :
    rawLines (front ++ newline :: rest) =
      rawLines (front ++ [newline]) ++ rawLines rest := by
  have cut (b : Bytes) := cutAll_append_cons (p := (· == newline))
    (beq_self_eq_true newline) front b
  simp only [rawLines]
  rw [cut rest, cut [], linesOfPieces_append, linesOfPieces_append,
    cutAll_nil, linesOfPieces, List.append_assoc]
  rfl

theorem rawLines_line {line : Bytes} (h : newline ∉ line) :
    rawLines (line ++ [newline]) = [withoutReturn line] := by
  have whole : cutAll (· == newline) line = (line, []) := by
    refine cutAll_eq_self fun b m => ?_
    rw [beq_eq_false_iff_ne]
    rintro rfl
    exact h m
  simp only [rawLines]
  rw [cutAll_append_cons (p := (· == newline)) (beq_self_eq_true newline),
    whole]
  rfl

/-- A line is read before whatever comes after it. -/
theorem lines_line_append {line : Bytes} (h : newline ∉ line)
    (rest : Bytes) :
    lines (line ++ newline :: rest) =
      decode? (withoutReturn line) :: lines rest := by
  rw [lines, rawLines_append_newline, rawLines_line h,
    List.singleton_append, List.map_cons]
  rfl

end Bytes

/-- Whether a text is read back as one line if a newline is written after
it. -/
structure Text.IsLine (t : Text) : Prop where
  no_newline : '\n' ∉ t
  no_return : t.getLast? ≠ some '\r'

namespace Text

variable {t : Text}

theorem newline_not_mem_encode (h : '\n' ∉ t) : newline ∉ encode t := by
  intro m
  obtain ⟨c, mc, mb⟩ := List.mem_flatMap.1 m
  have eq : c = '\n' := eq_of_mem_utf8EncodeChar mb (by decide)
  exact h (eq ▸ mc)

theorem withoutReturn_encode (h : t.getLast? ≠ some '\r') :
    Bytes.withoutReturn (encode t) = encode t := by
  refine if_neg fun last => h ?_
  rcases List.eq_nil_or_concat t with rfl | ⟨front, c, rfl⟩
  · cases last
  · -- the last byte is one of the last character
    rw [List.concat_eq_append] at last ⊢
    have single : encode [c] = String.utf8EncodeChar c := by simp [encode]
    rw [encode_append, single,
      List.getLast?_append_of_ne_nil _ String.utf8EncodeChar_ne_nil] at last
    have eq : c = '\r' :=
      eq_of_mem_utf8EncodeChar (List.mem_of_getLast? last) (by decide)
    rw [eq, List.getLast?_append_of_ne_nil _ (List.cons_ne_nil _ _)]
    rfl

/-- A line is read back before whatever comes after it. -/
theorem IsLine.lines_encode_append (h : IsLine t) (rest : Bytes) :
    Bytes.lines (encode (t ++ ['\n']) ++ rest) =
      some t :: Bytes.lines rest := by
  have cut : encode (t ++ ['\n']) ++ rest = encode t ++ newline :: rest := by
    rw [encode_append, List.append_assoc]
    rfl
  rw [cut, Bytes.lines_line_append (newline_not_mem_encode h.no_newline),
    withoutReturn_encode h.no_return, Bytes.decode?_encode]

end Text

/-- Texts that are written with a newline after each are read back as
lines. -/
theorem lines_encode_flatten {ts : List Text} (h : ∀ t ∈ ts, t.IsLine) :
    Bytes.lines ((ts.map fun t => Text.encode (t ++ ['\n'])).flatten) =
      ts.map some := by
  induction ts with
  | nil => rfl
  | cons t ts ih =>
    have rest := ih fun u m => h u (List.mem_cons_of_mem _ m)
    rw [List.map_cons, List.flatten_cons,
      (h t List.mem_cons_self).lines_encode_append, rest, List.map_cons]

/-! ### Rule files -/

/-- The line of a production without its newline. -/
def ruleText (tag probability : Text) (e : Expansion) : Text :=
  tag ++ Production.openMark ++ e.written ++ closeMark ++ probability

/-- The line of one of a block's expansions without its newline. -/
def Block.ruleTextOf (b : Block) (e : Expansion) : Text :=
  ruleText b.tag (uniformProbability b.expansions.length).scientific e

/-- The lines of a block without their newlines. -/
def Block.ruleTexts (b : Block) : List Text := b.expansions.map b.ruleTextOf

/-- The lines of the rule file of a table without their newlines. -/
def RuleTable.ruleTexts (t : RuleTable) : List Text :=
  t.blocks.flatMap Block.ruleTexts

theorem RuleTable.mem_ruleTexts {t : RuleTable} {line : Text} :
    line ∈ t.ruleTexts ↔
      ∃ b ∈ t.blocks, ∃ e ∈ b.expansions, b.ruleTextOf e = line := by
  simp only [ruleTexts, Block.ruleTexts, List.mem_flatMap, List.mem_map]

theorem RuleTable.ruleLines_eq_map (t : RuleTable) :
    t.ruleLines = t.ruleTexts.map (· ++ ['\n']) := by
  rw [ruleLines, ruleTexts, List.map_flatMap]
  refine List.flatMap_congr fun b _ => ?_
  rw [Block.ruleLines, Block.ruleTexts, List.map_map]
  rfl

theorem mem_join {separator : Text} {ts : List Text} {c : Char}
    (m : c ∈ Text.join separator ts) : c ∈ separator ∨ ∃ t ∈ ts, c ∈ t := by
  induction ts with
  | nil => cases m
  | cons t ts ih =>
    rcases ts with - | ⟨u, ts⟩
    · exact .inr ⟨t, List.mem_cons_self, by
        simpa [Text.join, List.intercalate] using m⟩
    · rw [Text.join_cons_cons, List.mem_append, List.mem_append] at m
      rcases m with m | m | m
      · exact .inr ⟨t, List.mem_cons_self, m⟩
      · exact .inl m
      · rcases ih m with m | ⟨v, mv, m⟩
        · exact .inl m
        · exact .inr ⟨v, List.mem_cons_of_mem _ mv, m⟩

theorem newline_not_mem_token {t : Text} (h : IsToken t) : '\n' ∉ t :=
  fun m => absurd (h.not_blank _ m) (by decide)

/-- The rule of a writable production is a line. -/
theorem isLine_ruleText {tag probability : Text} {e : Expansion}
    (h : Production.IsWritable ⟨tag, e⟩) (token : IsToken probability) :
    (ruleText tag probability e).IsLine where
  no_newline m := by
    simp only [ruleText, List.mem_append] at m
    rcases m with (((m | m) | m) | m) | m
    · exact newline_not_mem_token h.tag m
    · exact absurd m (by decide)
    · rcases mem_join m with m | ⟨t, mt, m⟩
      · exact absurd m (by decide)
      · obtain ⟨s, ms, rfl⟩ := List.mem_map.1 mt
        exact newline_not_mem_token
          (h.expansion.symbols s ms).isToken_written m
    · exact absurd m (by decide)
    · exact newline_not_mem_token token m
  no_return last := by
    rw [ruleText, List.getLast?_append_of_ne_nil _ token.ne_nil] at last
    exact absurd (token.not_blank _ (List.mem_of_getLast? last)) (by decide)

/-- **The lines of the rule file** of an accepted listing. -/
theorem lines_output {listing : Bytes} (h : Accepts listing) :
    (convert listing none).output.lines =
      (finalTable listing).ruleTexts.map some := by
  rw [(convert_of_accepts h).2, RuleTable.ruleLines_eq_map, List.map_map]
  refine lines_encode_flatten fun t m => ?_
  obtain ⟨b, mb, e, me, rfl⟩ := RuleTable.mem_ruleTexts.1 m
  exact isLine_ruleText (isWritable_of_mem_finalTable h mb me)
    (probability?_scientific (List.length_pos_of_mem me)).1

/-- The count that a conversion returns is that of the lines of its file. -/
theorem length_ruleTexts {listing : Bytes} {n : Nat}
    (h : (convert listing none).result = .ok n) :
    (finalTable listing).ruleTexts.length = n := by
  have eq := h.symm.trans (convert_of_accepts ⟨n, h⟩).1
  rw [Except.ok.inj eq, RuleTable.ruleLines_eq_map, List.length_map]

end TreebankGrammar
