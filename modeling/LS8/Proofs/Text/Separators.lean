/-!
# Text with separators

Pieces of text with a separator between them, as lists of characters: how long they
are together, what remains when some characters are dropped, and that cutting them at
the separator gives the pieces back.
-/

namespace LS8
namespace Separators

variable {α : Type}

/-- A separator stands between any two pieces. -/
theorem length_intercalate (separator : List α) (pieces : List (List α)) :
    (separator.intercalate pieces).length =
      pieces.flatten.length + separator.length * (pieces.length - 1) := by
  induction pieces with
  | nil => rfl
  | cons piece rest inductionHypothesis =>
      cases rest with
      | nil => simp
      | cons next rest =>
          rw [List.intercalate_cons_cons, List.length_append, List.length_append,
            inductionHypothesis, List.flatten_cons, List.flatten_cons,
            List.flatten_cons]
          simp only [List.length_append, List.length_cons, Nat.add_sub_cancel,
            Nat.mul_add, Nat.mul_one]
          omega

/-- What is kept of pieces with separators is what is kept of the pieces, with what is
kept of the separator between them. -/
theorem filter_intercalate
    (keep : α → Bool)
    (separator : List α)
    (pieces : List (List α)) :
    (separator.intercalate pieces).filter keep =
      (separator.filter keep).intercalate (pieces.map (List.filter keep)) := by
  induction pieces with
  | nil => rfl
  | cons piece rest inductionHypothesis =>
      cases rest with
      | nil => simp
      | cons next rest =>
          rw [List.intercalate_cons_cons, List.filter_append, List.filter_append,
            inductionHypothesis]
          exact List.intercalate_cons_cons.symm

/-- Pieces with nothing between them are joined. -/
theorem nil_intercalate (pieces : List (List α)) :
    [].intercalate pieces = pieces.flatten := by
  induction pieces with
  | nil => rfl
  | cons piece rest inductionHypothesis =>
      cases rest with
      | nil => simp
      | cons next rest =>
          rw [List.intercalate_cons_cons, inductionHypothesis, List.append_nil]
          exact List.flatten_cons.symm

variable [DecidableEq α]

/-- The pieces of a text between separators.  An empty text has none. -/
def cut (separator : α) (text : List α) : List (List α) :=
  if text = [] then [] else text.splitOn separator

/-- Pieces are given back as long as none is empty or contains the separator. -/
theorem cut_intercalate
    {separator : α}
    {pieces : List (List α)}
    (nonempty : ∀ piece ∈ pieces, piece ≠ [])
    (whole : ∀ piece ∈ pieces, separator ∉ piece) :
    cut separator ([separator].intercalate pieces) = pieces := by
  cases pieces with
  | nil => rfl
  | cons piece rest =>
      have text_ne_nil : [separator].intercalate (piece :: rest) ≠ [] := by
        cases rest with
        | nil =>
            rw [List.intercalate_singleton]
            exact nonempty piece List.mem_cons_self
        | cons next rest =>
            rw [List.intercalate_cons_cons]
            simp
      rw [cut, if_neg text_ne_nil]
      exact List.splitOn_intercalate separator whole (List.cons_ne_nil piece rest)

end Separators
end LS8
