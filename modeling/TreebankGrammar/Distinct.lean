/-
TreebankGrammar/Distinct.lean

Lists without repetition, in the order of first occurrence.

The order of first occurrence is the order of everything that a listing
introduces: the preterminals of a line, the expansions of a tag.  `distinct`
keeps the first of every group of equal elements; `firstPlaces` tells for
every element where its group begins.

Main results: `distinct` keeps every element (`mem_distinct`) and repeats
none (`nodup_distinct`); it can be done element by element
(`distinct_append_singleton`).
-/

namespace TreebankGrammar

variable {α : Type} [DecidableEq α]

/-- The distinct elements of a list, each at its first occurrence. -/
def distinct : List α → List α
  | [] => []
  | x :: xs => x :: (distinct xs).filter (· ≠ x)

/-- For every element the place of the first element equal to it. -/
def firstPlaces (xs : List α) : List Nat := xs.map fun x => xs.idxOf x

@[simp] theorem mem_distinct {x : α} {xs : List α} :
    x ∈ distinct xs ↔ x ∈ xs := by
  induction xs with
  | nil => simp [distinct]
  | cons y ys ih =>
    by_cases h : x = y
    · simp [distinct, h]
    · simp [distinct, h, ih]

theorem nodup_distinct (xs : List α) : (distinct xs).Nodup := by
  induction xs with
  | nil => simp [distinct]
  | cons x xs ih =>
    rw [distinct, List.nodup_cons]
    exact ⟨by simp, ih.filter _⟩

/-- An element at the end of a list is a new one just if it does not occur
before. -/
theorem distinct_append_singleton (xs : List α) (x : α) :
    distinct (xs ++ [x]) =
      if x ∈ xs then distinct xs else distinct xs ++ [x] := by
  induction xs with
  | nil => simp [distinct]
  | cons y ys ih =>
    rw [List.cons_append, distinct, ih]
    by_cases h : x = y
    · by_cases m : x ∈ ys <;> simp [distinct, h, h ▸ m]
    · by_cases m : x ∈ ys <;> simp [distinct, h, m]

end TreebankGrammar
