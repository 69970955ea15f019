/-
TreebankGrammar/Proofs/NumeralReading.lean

The grammar of numerals, and the numbers they are read as.

A numeral has an optional sign, digits with an optional point, and an optional
power of ten with a sign of its own:

    [+-]? (digits [. digits?] | . digits) ([eE] [+-]? digits)?

The grammar is given by the parts of a numeral (`Numeral.Parts`) and the texts
that spell them (`Parts.Spells`).  The reader takes exactly these texts, and
finds their parts (`parse?_eq_some_iff`); they all look numeric
(`Spells.looksNumeric`).

Design.  The two levels of the reader, runs of digits and the three pieces of
a numeral, are each shown to undo putting a text together, provided that what
follows cannot be taken for more of the same.
-/
import Mathlib.Data.List.TakeWhile
import TreebankGrammar.Number.Numeral

namespace TreebankGrammar

namespace Numeral

/-! ### The grammar -/

/-- The texts of an optional sign, and whether it is a minus. -/
inductive IsSign : Text → Bool → Prop
  | none : IsSign [] false
  | plus : IsSign ['+'] false
  | minus : IsSign ['-'] true

/-- At least one digit and nothing else. -/
structure IsDigits (t : Text) : Prop where
  ne_nil : t ≠ []
  digits : ∀ c ∈ t, c.isDigit = true

/-- The texts of the digits of a numeral: those before the point and those
after it.  There is at least one digit on one of its sides. -/
inductive IsMantissa : Text → Text → Text → Prop
  | whole {whole : Text} : IsDigits whole → IsMantissa whole whole []
  | point {whole fraction : Text} : IsDigits whole →
      (∀ c ∈ fraction, c.isDigit = true) →
      IsMantissa (whole ++ '.' :: fraction) whole fraction
  | fraction {fraction : Text} : IsDigits fraction →
      IsMantissa ('.' :: fraction) [] fraction

/-- The texts of an optional power of ten: whether its sign is a minus, and
its digits. -/
inductive IsPower : Text → Option (Bool × Text) → Prop
  | none : IsPower [] none
  | marked {mark : Char} {sign digits : Text} {negative : Bool} :
      mark = 'e' ∨ mark = 'E' → IsSign sign negative → IsDigits digits →
      IsPower (mark :: (sign ++ digits)) (some (negative, digits))

/-- The parts of a numeral: whether its sign is a minus, the digits before and
after the point, and the power of ten. -/
structure Parts where
  negative : Bool
  whole : Text
  fraction : Text
  power : Option (Bool × Text)

namespace Parts

/-- Whether a text is a numeral with these parts. -/
def Spells (n : Parts) (t : Text) : Prop :=
  ∃ sign mantissa power, t = sign ++ (mantissa ++ power) ∧
    IsSign sign n.negative ∧ IsMantissa mantissa n.whole n.fraction ∧
    IsPower power n.power

/-- The power of ten of a numeral, given the value of a text of digits. -/
def powerOf (valueOf : Text → Nat) : Option (Bool × Text) → Int
  | none => 0
  | some (negative, digits) =>
    if negative then -(valueOf digits : Int) else valueOf digits

/-- The decimal that a numeral denotes, given the value of the digits of a
power of ten. -/
def decimalOf (n : Parts) (valueOf : Text → Nat) : Decimal :=
  ⟨digitsValue (n.whole ++ n.fraction),
    powerOf valueOf n.power - n.fraction.length⟩

/-- The decimal that a numeral denotes. -/
def decimal (n : Parts) : Decimal := n.decimalOf digitsValue

/-- The decimal that a numeral is read as: not more of its power of ten is
read than the reader takes. -/
def decimalRead (n : Parts) : Decimal := n.decimalOf powerValue

end Parts

/-! ### Signs and runs of digits -/

/-- A sign is split off what does not begin with one. -/
theorem takeSign_append {sign : Text} {negative : Bool}
    (h : IsSign sign negative) {c : Char} (plus : c ≠ '+') (minus : c ≠ '-')
    (t : Text) : takeSign (sign ++ c :: t) = (negative, c :: t) := by
  cases h with
  | none =>
    rw [List.nil_append, takeSign.eq_def]
    split
    · rename_i e
      exact absurd (List.cons.inj e).1 plus
    · rename_i e
      exact absurd (List.cons.inj e).1 minus
    · rfl
  | plus => rfl
  | minus => rfl

theorem ne_sign_of_isDigit {c : Char} (h : c.isDigit = true) :
    c ≠ '+' ∧ c ≠ '-' := by
  constructor <;> rintro rfl <;> exact absurd h (by decide)

/-- A sign is split off digits. -/
theorem IsDigits.takeSign_append {digits : Text} (h : IsDigits digits)
    {sign : Text} {negative : Bool} (isSign : IsSign sign negative) :
    takeSign (sign ++ digits) = (negative, digits) := by
  obtain ⟨c, t, rfl⟩ := List.exists_cons_of_ne_nil h.ne_nil
  obtain ⟨plus, minus⟩ := ne_sign_of_isDigit (h.digits c List.mem_cons_self)
  exact Numeral.takeSign_append isSign plus minus t

/-- What is split off a text is a sign. -/
theorem isSign_of_takeSign {t rest : Text} {negative : Bool}
    (h : takeSign t = (negative, rest)) :
    ∃ sign, IsSign sign negative ∧ t = sign ++ rest := by
  rw [takeSign.eq_def] at h
  split at h
  · obtain ⟨rfl, rfl⟩ := Prod.mk.inj h
    exact ⟨_, .plus, rfl⟩
  · obtain ⟨rfl, rfl⟩ := Prod.mk.inj h
    exact ⟨_, .minus, rfl⟩
  · obtain ⟨rfl, rfl⟩ := Prod.mk.inj h
    exact ⟨_, .none, rfl⟩

theorem digits_takeWhile (t : Text) :
    ∀ c ∈ t.takeWhile Char.isDigit, c.isDigit = true :=
  List.all_eq_true.1 List.all_takeWhile

/-- A run of digits is taken to its end. -/
theorem span_digits {ds rest : Text} (h : ∀ d ∈ ds, d.isDigit = true)
    (stop : ∀ c ∈ rest.head?, c.isDigit = false) :
    (ds ++ rest).takeWhile Char.isDigit = ds ∧
      (ds ++ rest).dropWhile Char.isDigit = rest := by
  rcases rest with - | ⟨c, rest⟩
  · rw [List.append_nil]
    exact ⟨List.takeWhile_eq_self_iff.2 h, List.dropWhile_eq_nil_iff.2 h⟩
  · have none : c.isDigit = false := stop c rfl
    rw [List.takeWhile_append_of_pos h, List.dropWhile_append_of_pos h,
      List.takeWhile_cons, List.dropWhile_cons, none]
    simp

/-! ### Mantissas -/

/-- The digits of a mantissa are found in front of what is neither a digit
nor a point. -/
theorem IsMantissa.take {mantissa whole fraction rest : Text}
    (h : IsMantissa mantissa whole fraction)
    (stop : ∀ c ∈ rest.head?, c.isDigit = false ∧ c ≠ '.') :
    (mantissa ++ rest).takeWhile Char.isDigit = whole ∧
      takeFraction ((mantissa ++ rest).dropWhile Char.isDigit) =
        (fraction, rest) := by
  have after (ds : Text) (digits : ∀ c ∈ ds, c.isDigit = true) :
      takeFraction ('.' :: (ds ++ rest)) = (ds, rest) := by
    obtain ⟨taken, left⟩ := span_digits digits fun c m => (stop c m).1
    rw [takeFraction, taken, left]
  cases h with
  | whole digits =>
    obtain ⟨taken, left⟩ := span_digits digits.digits fun c m => (stop c m).1
    refine ⟨taken, ?_⟩
    rw [left, takeFraction.eq_def]
    split
    · exact absurd rfl (stop '.' rfl).2
    · rfl
  | point digits digits' =>
    have atPoint : ∀ c ∈ ('.' :: (fraction ++ rest)).head?,
        c.isDigit = false := by simp
    obtain ⟨taken, left⟩ := span_digits digits.digits atPoint
    rw [List.append_assoc, List.cons_append, taken, left]
    exact ⟨rfl, after fraction digits'⟩
  | fraction digits => exact ⟨rfl, after fraction digits.digits⟩

/-- What digits and a point are taken from a text are a mantissa, if there is
a digit among them. -/
theorem isMantissa_of_take {body fraction rest : Text}
    (h : takeFraction (body.dropWhile Char.isDigit) = (fraction, rest))
    (ne : body.takeWhile Char.isDigit ++ fraction ≠ []) :
    ∃ mantissa,
      IsMantissa mantissa (body.takeWhile Char.isDigit) fraction ∧
        body = mantissa ++ rest := by
  have whole := digits_takeWhile body
  have split_eq : body.takeWhile Char.isDigit ++
      body.dropWhile Char.isDigit = body := List.takeWhile_append_dropWhile
  rw [takeFraction.eq_def] at h
  split at h
  · rename_i tail e
    obtain ⟨rfl, rfl⟩ := Prod.mk.inj h
    have tail_eq : tail.takeWhile Char.isDigit ++
        tail.dropWhile Char.isDigit = tail := List.takeWhile_append_dropWhile
    rw [e] at split_eq
    by_cases none : body.takeWhile Char.isDigit = []
    · -- a point without digits before it
      rw [none] at ne split_eq ⊢
      refine ⟨_, .fraction ⟨ne, digits_takeWhile tail⟩, ?_⟩
      rw [List.cons_append, tail_eq]
      exact split_eq.symm
    · -- a point with digits before it, and maybe some after it
      refine ⟨_, .point ⟨none, whole⟩ (digits_takeWhile tail), ?_⟩
      rw [List.append_assoc, List.cons_append, tail_eq, split_eq]
  · obtain ⟨rfl, rfl⟩ := Prod.mk.inj h
    -- without a point nothing is taken after the digits
    rw [List.append_nil] at ne
    exact ⟨_, .whole ⟨ne, whole⟩, split_eq.symm⟩

/-- A mantissa begins with a digit or a point. -/
theorem IsMantissa.exists_cons {mantissa whole fraction : Text}
    (h : IsMantissa mantissa whole fraction) :
    ∃ c t, mantissa = c :: t ∧ c ≠ '+' ∧ c ≠ '-' := by
  have digit {t : Text} (digits : IsDigits t) (rest : Text) :
      ∃ c t', t ++ rest = c :: t' ∧ c ≠ '+' ∧ c ≠ '-' := by
    obtain ⟨c, t, rfl⟩ := List.exists_cons_of_ne_nil digits.ne_nil
    exact ⟨c, t ++ rest, rfl,
      ne_sign_of_isDigit (digits.digits c List.mem_cons_self)⟩
  cases h with
  | whole digits =>
    rw [← List.append_nil mantissa]
    exact digit digits []
  | point digits _ => exact digit digits _
  | fraction _ => exact ⟨_, _, rfl, by decide, by decide⟩

theorem IsMantissa.digits_ne_nil {mantissa whole fraction : Text}
    (h : IsMantissa mantissa whole fraction) : whole ++ fraction ≠ [] := by
  cases h with
  | whole digits => simpa using digits.ne_nil
  | point digits _ => simp [digits.ne_nil]
  | fraction digits => simpa using digits.ne_nil

theorem IsMantissa.forall_isDigit {mantissa whole fraction : Text}
    (h : IsMantissa mantissa whole fraction) :
    ∀ c ∈ whole ++ fraction, c.isDigit = true := by
  cases h with
  | whole digits => simpa using digits.digits
  | point digits digits' =>
    exact List.forall_mem_append.2 ⟨digits.digits, digits'⟩
  | fraction digits => exact digits.digits

theorem IsMantissa.length_le {mantissa whole fraction : Text}
    (h : IsMantissa mantissa whole fraction) :
    (whole ++ fraction).length ≤ mantissa.length := by
  cases h <;> simp

/-! ### Powers of ten -/

/-- An integer is read from an optional sign and digits. -/
theorem signed?_eq_some_iff {valueOf : Text → Nat} {t : Text} {k : Int} :
    signed? valueOf t = some k ↔
      ∃ sign digits negative, t = sign ++ digits ∧ IsSign sign negative ∧
        IsDigits digits ∧
        k = if negative then -(valueOf digits : Int) else valueOf digits := by
  constructor
  · intro h
    rcases split : takeSign t with ⟨negative, digits⟩
    obtain ⟨sign, isSign, rfl⟩ := isSign_of_takeSign split
    simp only [signed?, split] at h
    split at h
    · cases h
    · rename_i ok
      simp only [Bool.or_eq_true, List.isEmpty_iff, Bool.not_eq_true',
        not_or, Bool.not_eq_false, List.all_eq_true] at ok
      exact ⟨sign, digits, negative, rfl, isSign, ⟨ok.1, ok.2⟩,
        (Option.some.inj h).symm⟩
  · rintro ⟨sign, digits, negative, rfl, isSign, isDigits, rfl⟩
    have ok : (digits.isEmpty || !digits.all Char.isDigit) = false := by
      simpa [isDigits.ne_nil] using isDigits.digits
    simp only [signed?, isDigits.takeSign_append isSign, ok,
      Bool.false_eq_true, if_false]

/-- A power of ten is read from the text of one. -/
theorem exponent?_eq_some_iff {t : Text} {k : Int} :
    exponent? t = some k ↔
      ∃ power, IsPower t power ∧ k = Parts.powerOf powerValue power := by
  constructor
  · intro h
    rcases t with - | ⟨mark, rest⟩
    · exact ⟨none, .none, (Option.some.inj h).symm⟩
    · rw [exponent?] at h
      split at h
      · rename_i isMark
        obtain ⟨sign, digits, negative, rfl, isSign, isDigits, rfl⟩ :=
          signed?_eq_some_iff.1 h
        exact ⟨_, .marked isMark isSign isDigits, rfl⟩
      · cases h
  · rintro ⟨power, isPower, rfl⟩
    cases isPower with
    | none => rfl
    | marked isMark isSign isDigits =>
      rw [exponent?, if_pos isMark]
      exact signed?_eq_some_iff.2
        ⟨_, _, _, rfl, isSign, isDigits, rfl⟩

/-- A power of ten begins with its mark. -/
theorem IsPower.head {t : Text} {power : Option (Bool × Text)}
    (h : IsPower t power) :
    ∀ c ∈ t.head?, c.isDigit = false ∧ c ≠ '.' := by
  cases h with
  | none => nofun
  | marked isMark _ _ =>
    rintro c ⟨⟩
    rcases isMark with rfl | rfl <;> decide

/-- A power of ten has one sign and one sequence of digits. -/
theorem IsPower.unique {t : Text} {power power' : Option (Bool × Text)}
    (h : IsPower t power) (h' : IsPower t power') : power = power' := by
  cases h with
  | none =>
    cases h' with
    | none => rfl
  | marked _ isSign isDigits =>
    generalize e : _ :: _ = u at h'
    cases h' with
    | none => cases e
    | marked _ isSign' isDigits' =>
      have taken := isDigits.takeSign_append isSign
      rw [(List.cons.inj e).2, isDigits'.takeSign_append isSign'] at taken
      exact congrArg some taken.symm

/-! ### Numerals -/

/-- A piece of a numeral is split off where it ends, since the next one begins
otherwise. -/
theorem Parts.Spells.split {n : Parts} {t : Text} (h : n.Spells t) :
    ∃ body tail, takeSign t = (n.negative, body) ∧
      body.takeWhile Char.isDigit = n.whole ∧
      takeFraction (body.dropWhile Char.isDigit) = (n.fraction, tail) ∧
      IsPower tail n.power := by
  obtain ⟨sign, mantissa, tail, rfl, isSign, isMantissa, isPower⟩ := h
  obtain ⟨taken, left⟩ := isMantissa.take isPower.head
  obtain ⟨c, m, rfl, plus, minus⟩ := isMantissa.exists_cons
  exact ⟨_, tail, takeSign_append isSign plus minus _, taken, left, isPower⟩

/-- A numeral has one sign, one mantissa and one power of ten. -/
theorem Parts.Spells.unique {n n' : Parts} {t : Text} (h : n.Spells t)
    (h' : n'.Spells t) : n = n' := by
  obtain ⟨body, tail, sign, whole, fraction, power⟩ := h.split
  obtain ⟨body', tail', sign', whole', fraction', power'⟩ := h'.split
  obtain ⟨signs, rfl⟩ := Prod.mk.inj (sign.symm.trans sign')
  obtain ⟨fractions, rfl⟩ := Prod.mk.inj (fraction.symm.trans fraction')
  have powers := power.unique power'
  obtain ⟨negative, digits, rest, last⟩ := n
  obtain ⟨negative', digits', rest', last'⟩ := n'
  rw [Parts.mk.injEq]
  exact ⟨signs, whole.symm.trans whole', fractions, powers⟩

/-- **Which texts are numerals.**  The reader takes the texts that spell the
parts of a numeral, and finds its sign and its decimal. -/
theorem parse?_eq_some_iff {t : Text} {n : Numeral} :
    parse? t = some n ↔
      ∃ parts : Parts, parts.Spells t ∧
        n = ⟨parts.negative, parts.decimalRead⟩ := by
  constructor
  · intro h
    rcases split : takeSign t with ⟨negative, body⟩
    rcases tail : takeFraction (body.dropWhile Char.isDigit) with
      ⟨fraction, rest⟩
    simp only [parse?, split, tail] at h
    split at h
    · cases h
    · rename_i digits
      -- the three pieces that were split off spell the parts
      obtain ⟨k, exponent, rfl⟩ := Option.map_eq_some_iff.1 h
      obtain ⟨power, isPower, rfl⟩ := exponent?_eq_some_iff.1 exponent
      obtain ⟨sign, isSign, rfl⟩ := isSign_of_takeSign split
      obtain ⟨mantissa, isMantissa, rest_eq⟩ :=
        isMantissa_of_take tail (by simpa using digits)
      exact ⟨⟨negative, _, fraction, power⟩,
        ⟨sign, mantissa, rest, by rw [← rest_eq], isSign, isMantissa,
          isPower⟩, rfl⟩
  · rintro ⟨parts, spells, rfl⟩
    obtain ⟨body, tail, sign, whole, fraction, isPower⟩ := spells.split
    obtain ⟨_, _, _, -, -, isMantissa, -⟩ := spells
    have exponent := exponent?_eq_some_iff.2 ⟨parts.power, isPower, rfl⟩
    have digits := isMantissa.digits_ne_nil
    simp only [parse?, sign, whole, fraction, exponent]
    rw [if_neg (by simpa using digits)]
    rfl

/-! ### Characters of numerals -/

theorem isNumeralChar_of_isDigit {c : Char} (h : c.isDigit = true) :
    isNumeralChar c = true := by
  simp [isNumeralChar, h]

theorem IsSign.forall_isNumeralChar {sign : Text} {negative : Bool}
    (h : IsSign sign negative) : ∀ c ∈ sign, isNumeralChar c = true := by
  cases h with
  | none => simp
  | plus => simp [isNumeralChar]
  | minus => simp [isNumeralChar]

theorem IsMantissa.forall_isNumeralChar {mantissa whole fraction : Text}
    (h : IsMantissa mantissa whole fraction) :
    ∀ c ∈ mantissa, isNumeralChar c = true := by
  have point {ds : Text} (digits : ∀ c ∈ ds, c.isDigit = true) :
      ∀ c ∈ '.' :: ds, isNumeralChar c = true := by
    intro c m
    rcases List.mem_cons.1 m with rfl | m
    · decide
    · exact isNumeralChar_of_isDigit (digits c m)
  cases h with
  | whole digits =>
    exact fun c m => isNumeralChar_of_isDigit (digits.digits c m)
  | point digits digits' =>
    intro c m
    rcases List.mem_append.1 m with m | m
    · exact isNumeralChar_of_isDigit (digits.digits c m)
    · exact point digits' c m
  | fraction digits => exact point digits.digits

theorem IsPower.forall_isNumeralChar {t : Text} {power : Option (Bool × Text)}
    (h : IsPower t power) : ∀ c ∈ t, isNumeralChar c = true := by
  cases h with
  | none => simp
  | marked isMark isSign isDigits =>
    intro c m
    rcases List.mem_cons.1 m with rfl | m
    · rcases isMark with rfl | rfl <;> decide
    · rcases List.mem_append.1 m with m | m
      · exact isSign.forall_isNumeralChar c m
      · exact isNumeralChar_of_isDigit (isDigits.digits c m)

/-- Numerals are made of the characters of numerals. -/
theorem Parts.Spells.forall_isNumeralChar {n : Parts} {t : Text}
    (h : n.Spells t) : ∀ c ∈ t, isNumeralChar c = true := by
  obtain ⟨sign, mantissa, power, rfl, isSign, isMantissa, isPower⟩ := h
  intro c m
  simp only [List.mem_append] at m
  rcases m with m | m | m
  · exact isSign.forall_isNumeralChar c m
  · exact isMantissa.forall_isNumeralChar c m
  · exact isPower.forall_isNumeralChar c m

/-- The digits of a numeral are digits, and not more than its characters. -/
theorem Parts.Spells.digits {n : Parts} {t : Text} (h : n.Spells t) :
    (∀ c ∈ n.whole ++ n.fraction, c.isDigit = true) ∧
      (n.whole ++ n.fraction).length ≤ t.length := by
  obtain ⟨sign, mantissa, power, rfl, -, isMantissa, -⟩ := h
  refine ⟨isMantissa.forall_isDigit, isMantissa.length_le.trans ?_⟩
  simp only [List.length_append]
  omega

theorem Parts.Spells.ne_nil {n : Parts} {t : Text} (h : n.Spells t) :
    t ≠ [] := by
  obtain ⟨sign, mantissa, power, rfl, -, isMantissa, -⟩ := h
  obtain ⟨c, m, rfl, -⟩ := isMantissa.exists_cons
  simp

theorem Parts.Spells.looksNumeric {n : Parts} {t : Text} (h : n.Spells t) :
    looksNumeric t = true := by
  simpa [TreebankGrammar.looksNumeric, h.ne_nil] using h.forall_isNumeralChar

end Numeral

end TreebankGrammar
