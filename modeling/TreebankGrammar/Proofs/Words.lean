/-
TreebankGrammar/Proofs/Words.lean

Words, trimming and marks.

Cutting a text into words undoes joining words with spaces, and cutting it at
a mark undoes putting the mark between two texts.  The first holds of all
words (`words_join`).  The second has a condition, since the cut is made at
the first place where the mark occurs: the text before the mark must not
contain it, and the mark must not overlap itself, as it could then begin
before its place and end inside it (`breakOn_append`).  Both marks of a rule
file are of this sort.

Design.  A text that is one word is a token (`IsToken`).  Everything about
words follows from two facts: words come apart at any blank
(`words_append_blank`), and a token is its only word (`IsToken.words_eq`).
-/
import Mathlib.Data.List.Basic
import TreebankGrammar.RuleFile.Rule

namespace TreebankGrammar

/-! ### Cutting -/

section CutAll

variable {α : Type} {p : α → Bool}

/-- A list comes apart at every element that it is cut at. -/
theorem cutAll_append_cons {x : α} (h : p x = true) (xs ys : List α) :
    cutAll p (xs ++ x :: ys) =
      ((cutAll p xs).1,
        (cutAll p xs).2 ++ (cutAll p ys).1 :: (cutAll p ys).2) := by
  induction xs with
  | nil => simp [cutAll_cons, h]
  | cons y xs ih =>
    rw [List.cons_append, cutAll_cons, cutAll_cons, ih]
    by_cases hy : p y = true <;> simp [hy]

theorem cutAll_eq_self {xs : List α} (h : ∀ x ∈ xs, p x = false) :
    cutAll p xs = (xs, []) := by
  induction xs with
  | nil => rfl
  | cons x xs ih =>
    have rest := ih fun y m => h y (List.mem_cons_of_mem _ m)
    rw [cutAll_cons, h x List.mem_cons_self, rest]
    rfl

/-- No piece has an element that the list is cut at. -/
theorem not_of_mem_cutAll {xs piece : List α}
    (m : piece ∈ (cutAll p xs).1 :: (cutAll p xs).2) :
    ∀ x ∈ piece, p x = false := by
  induction xs generalizing piece with
  | nil =>
    obtain rfl : piece = [] := by simpa using m
    simp
  | cons x xs ih =>
    rw [cutAll_cons] at m
    rcases hx : p x with - | -
    · -- an element that stays belongs to the first piece
      simp only [hx, Bool.false_eq_true, if_false] at m
      rcases List.mem_cons.1 m with rfl | m
      · intro y my
        rcases List.mem_cons.1 my with rfl | my
        · exact hx
        · exact ih List.mem_cons_self y my
      · exact ih (List.mem_cons_of_mem _ m)
    · -- an element that is cut at begins a new piece before it
      simp only [hx, if_true] at m
      rcases List.mem_cons.1 m with rfl | m
      · simp
      · exact ih m

end CutAll

namespace Text

/-! ### Words -/

/-- A text that is one word. -/
structure IsToken (t : Text) : Prop where
  ne_nil : t ≠ []
  not_blank : ∀ c ∈ t, isBlank c = false

/-- **Words come apart at a blank.** -/
theorem words_append_blank {c : Char} (h : isBlank c = true) (s t : Text) :
    words (s ++ c :: t) = words s ++ words t := by
  simp only [words]
  rw [cutAll_append_cons h, ← List.cons_append, List.filter_append]

theorem IsToken.words_eq {t : Text} (h : IsToken t) : words t = [t] := by
  simp [words, cutAll_eq_self h.not_blank, h.ne_nil]

theorem isToken_of_mem_words {t w : Text} (m : w ∈ words t) : IsToken w := by
  obtain ⟨piece, ne⟩ := List.mem_filter.1 m
  exact ⟨by simpa using ne, not_of_mem_cutAll piece⟩

theorem join_cons_cons (separator t u : Text) (ts : List Text) :
    join separator (t :: u :: ts) =
      t ++ (separator ++ join separator (u :: ts)) := by
  simp [join, List.intercalate]

/-- Text before joined texts belongs to the first of them. -/
theorem append_join_cons (front separator t : Text) (ts : List Text) :
    front ++ join separator (t :: ts) =
      join separator ((front ++ t) :: ts) := by
  cases ts with
  | nil => simp [join, List.intercalate]
  | cons u ts => rw [join_cons_cons, join_cons_cons, List.append_assoc]

/-- Words joined with spaces are the words of the joined text. -/
theorem words_join {ts : List Text} (h : ∀ t ∈ ts, IsToken t) :
    words (join [' '] ts) = ts := by
  induction ts with
  | nil => rfl
  | cons t ts ih =>
    have head := (h t List.mem_cons_self).words_eq
    have tail := ih fun u m => h u (List.mem_cons_of_mem _ m)
    cases ts with
    | nil => simpa [join, List.intercalate] using head
    | cons u ts =>
      rw [join_cons_cons, List.singleton_append,
        words_append_blank (by decide), head, tail]
      rfl

/-! ### Trimming -/

/-- A text that begins and ends with a token has nothing to trim, apart from
blanks behind it. -/
theorem trim_append {s t blanks : Text} (hs : IsToken s) (ht : IsToken t)
    (mid : Text) (hb : ∀ c ∈ blanks, isBlank c = true) :
    trim (s ++ mid ++ t ++ blanks) = s ++ mid ++ t := by
  -- the first character of a token stops the trimming, from either side
  have stop : ∀ {u : Text} (v : Text), IsToken u →
      (u ++ v).dropWhile isBlank = u ++ v := by
    intro u v hu
    rcases u with - | ⟨c, u⟩
    · exact absurd rfl hu.ne_nil
    · simp [hu.not_blank c List.mem_cons_self]
  have reversed : IsToken t.reverse :=
    ⟨by simpa using ht.ne_nil, fun c m => ht.not_blank c (by simpa using m)⟩
  have front : (s ++ mid ++ t ++ blanks).dropWhile isBlank =
      s ++ mid ++ t ++ blanks := by
    simpa only [List.append_assoc] using stop (mid ++ (t ++ blanks)) hs
  have back : (s ++ mid ++ t ++ blanks).reverse.dropWhile isBlank =
      (s ++ mid ++ t).reverse := by
    rw [List.reverse_append, List.dropWhile_append_of_pos (by simpa using hb),
      List.reverse_append]
    exact stop _ reversed
  rw [trim, front, back, List.reverse_reverse]

theorem length_trim_le (t : Text) : (trim t).length ≤ t.length := by
  have shorter (u : Text) : (u.dropWhile isBlank).length ≤ u.length :=
    (List.dropWhile_sublist isBlank).length_le
  rw [trim, List.length_reverse]
  refine Nat.le_trans (shorter _) ?_
  rw [List.length_reverse]
  exact shorter t

/-! ### Marks -/

/-- Whether a mark has an end that it begins with, other than itself. -/
def Overlaps (mark : Text) : Prop :=
  ∃ n < mark.length, 0 < n ∧ mark.drop n <+: mark

instance (mark : Text) : Decidable (Overlaps mark) :=
  inferInstanceAs (Decidable (∃ n < mark.length, _))

/-- Where a text is cut, the part before the cut does not contain the
mark. -/
theorem breakOn_eq_some {mark t before after : Text} (ne : mark ≠ [])
    (h : breakOn mark t = some (before, after)) :
    t = before ++ mark ++ after ∧ ¬ mark <:+: before := by
  induction t generalizing before with
  | nil => simp [breakOn, ne] at h
  | cons c t ih =>
    rw [breakOn] at h
    rcases first : List.isPrefixOf? mark (c :: t) with - | rest
    · simp only [first, Option.map_eq_some_iff, Prod.mk.injEq] at h
      obtain ⟨⟨before', after'⟩, cut, rfl, rfl⟩ := h
      obtain ⟨eq, none⟩ := ih cut
      refine ⟨by simp [eq], ?_⟩
      rw [List.infix_cons_iff, not_or]
      refine ⟨?_, none⟩
      -- a mark right at the front would have been found
      rintro ⟨rest, e⟩
      have found : List.isPrefixOf? mark (c :: t) =
          some (rest ++ (mark ++ after')) := by
        rw [List.isPrefixOf?_eq_some_iff_append_eq, ← List.append_assoc, e]
        simp [eq]
      rw [first] at found
      cases found
    · simp only [first, Option.some.injEq, Prod.mk.injEq] at h
      obtain ⟨rfl, rfl⟩ := h
      refine ⟨(List.isPrefixOf?_eq_some_iff_append_eq.1 first).symm, ?_⟩
      simpa using ne

/-- A text that is not cut does not contain the mark. -/
theorem not_infix_of_breakOn_eq_none {mark t : Text} (ne : mark ≠ [])
    (h : breakOn mark t = none) : ¬ mark <:+: t := by
  induction t with
  | nil => simpa using ne
  | cons c t ih =>
    rw [breakOn] at h
    rcases first : List.isPrefixOf? mark (c :: t) with - | rest
    · simp only [first, Option.map_eq_none_iff] at h
      rw [List.infix_cons_iff, not_or]
      refine ⟨?_, ih h⟩
      rintro ⟨rest, e⟩
      rw [List.isPrefixOf?_eq_some_iff_append_eq.2 e] at first
      cases first
    · simp only [first, reduceCtorEq] at h

/-- A mark that does not overlap itself stands nowhere before its place, if
the text there does not contain it. -/
theorem not_prefix_append {mark front : Text} (ne : front ≠ [])
    (apart : ¬ Overlaps mark) (none : ¬ mark <:+: front) (after : Text) :
    ¬ mark <+: front ++ mark ++ after := by
  rintro ⟨rest, eq⟩
  have whole : mark <+: front ++ mark ++ after := ⟨rest, eq⟩
  have part : front <+: front ++ mark ++ after := by
    rw [List.append_assoc]
    exact List.prefix_append _ _
  rcases List.prefix_or_prefix_of_prefix whole part with inside | across
  · exact none inside.isInfix
  · -- the mark begins before its place and ends inside it
    obtain ⟨rear, rfl⟩ := across
    have rear_ne : rear ≠ [] := by
      rintro rfl
      exact none (by simp)
    have shifted : front ++ (rear ++ rest) =
        front ++ (front ++ rear ++ after) := by
      rw [← List.append_assoc, eq]
      simp only [List.append_assoc]
    have begins : rear <+: front ++ rear ++ after :=
      ⟨rest, List.append_cancel_left shifted⟩
    have overlap : rear <+: front ++ rear :=
      List.prefix_of_prefix_length_le begins (List.prefix_append _ _)
        (by rw [List.length_append]; omega)
    refine apart ⟨front.length, ?_, List.length_pos_of_ne_nil ne, ?_⟩
    · simpa using List.length_pos_of_ne_nil rear_ne
    · simpa using overlap

/-- **Cutting at a mark** undoes putting it between two texts, if it does not
overlap itself and the text before it does not contain it. -/
theorem breakOn_append {mark before : Text} (ne : mark ≠ [])
    (apart : ¬ Overlaps mark) (none : ¬ mark <:+: before) (after : Text) :
    breakOn mark (before ++ mark ++ after) = some (before, after) := by
  induction before with
  | nil =>
    obtain ⟨c, cs, rfl⟩ := List.exists_cons_of_ne_nil ne
    have first : List.isPrefixOf? (c :: cs) (c :: (cs ++ after)) =
        some after := by
      rw [List.isPrefixOf?_eq_some_iff_append_eq]
      rfl
    simp [breakOn, first]
  | cons c before ih =>
    have first : List.isPrefixOf? mark (c :: (before ++ mark ++ after)) =
        Option.none := by
      rw [Option.eq_none_iff_forall_not_mem]
      intro rest found
      have eq := List.isPrefixOf?_eq_some_iff_append_eq.1 found
      exact not_prefix_append (List.cons_ne_nil c before) apart none after
        ⟨rest, eq⟩
    -- so the cut is made further on
    have later : ¬ mark <:+: before := fun h => none (List.infix_cons h)
    rw [List.cons_append, List.cons_append, breakOn, first, ih later]
    rfl

end Text

end TreebankGrammar
