import Mathlib.Data.List.Pairwise
import LS8.Proofs.CommandLine.LimitText
import LS8.Proofs.CommandLine.Report

/-!
# The order of items

The items that ask for a program are its path, the two flags and a limit, each given
at most once.  A draft takes them in any order, since each of them finds its place free
and fills no other.  Only the text of a limit can be refused then, and it is refused
wherever it stands.
-/

namespace LS8
namespace CommandLine

/-- What items can be about. -/
inductive Subject where
  | path
  | trace
  | strict
  | limit
  /-- Nothing that a draft has a place for. -/
  | other
  deriving DecidableEq, Repr

namespace Item

/-- What an item is about. -/
def subject : Item → Subject
  | .path _ => .path
  | .trace => .trace
  | .strict => .strict
  | .limit _ => .limit
  | .help | .refused _ => .other

/-- Two items are about different things. -/
def Apart (first second : Item) : Prop :=
  first.subject ≠ second.subject

instance : Std.Symm Apart where
  symm _ _ := Ne.symm

/-- A draft takes the item if the place for it is free. -/
def IsTakeable : Item → Prop
  | .path text => text ≠ ""
  | .trace | .strict => True
  | .limit text => (limitOfText? text).isSome
  | .help | .refused _ => False

/-- The text of the item cannot be mistaken for an option. -/
def IsPlain : Item → Prop
  | .path text | .limit text => isOptionLike text = false
  | _ => True

end Item

namespace Draft

/-- The place for an item is free. -/
def Lacks (draft : Draft) (item : Item) : Prop :=
  match item with
  | .path _ => draft.path = none
  | .trace => draft.tracing = false
  | .strict => draft.strict = false
  | .limit _ => draft.limit = none
  | .help | .refused _ => True

/-- The draft with an item in its place. -/
def add (draft : Draft) (item : Item) : Draft :=
  match item with
  | .path text => { draft with path := some text }
  | .trace => { draft with tracing := true }
  | .strict => { draft with strict := true }
  | .limit text => { draft with limit := limitOfText? text }
  | .help | .refused _ => draft

variable {draft : Draft} {item other : Item} {items rest : List Item}

theorem lacks_blank (item : Item) : blank.Lacks item := by
  cases item <;> trivial

/-- A free place is filled. -/
theorem take_cons
    (takeable : item.IsTakeable)
    (lacks : draft.Lacks item) :
    draft.take (item :: rest) = (draft.add item).take rest := by
  cases item with
  | path text =>
      have nonempty : text ≠ "" := takeable
      have free : draft.path = none := lacks
      simp only [take, takePath, free, if_neg nonempty]
      rfl
  | trace =>
      have free : draft.tracing = false := lacks
      simp only [take, takeTrace, free]
      rfl
  | strict =>
      have free : draft.strict = false := lacks
      simp only [take, takeStrict, free]
      rfl
  | limit text =>
      have free : draft.limit = none := lacks
      obtain ⟨number, read_eq⟩ := Option.isSome_iff_exists.mp takeable
      simp only [take, takeLimit, add, free, read_eq]
      rfl
  | help => exact absurd takeable not_false
  | refused error => exact absurd takeable not_false

/-- A limit that cannot be read is refused. -/
theorem take_cons_of_unreadable
    {text : String}
    (unreadable : limitOfText? text = none)
    (lacks : draft.Lacks (.limit text)) :
    draft.take (.limit text :: rest) = .error (.invalidLimit text) := by
  have free : draft.limit = none := lacks
  simp only [take, takeLimit, free, unreadable]
  rfl

/-- The places for other items stay free. -/
theorem lacks_add
    (lacks : draft.Lacks other)
    (apart : item.Apart other) :
    (draft.add item).Lacks other := by
  -- `apart` excludes the pairs of items for one place; the others do not meet.
  cases item <;> cases other <;>
    simp_all [Lacks, Draft.add, Item.Apart, Item.subject]

/-- Different places are filled in either order. -/
theorem add_comm (apart : item.Apart other) :
    (draft.add item).add other = (draft.add other).add item := by
  cases item <;> cases other <;>
    simp_all [Draft.add, Item.Apart, Item.subject]

theorem lacks_foldl_add
    (lacks : draft.Lacks other)
    (apart : ∀ item ∈ items, item.Apart other) :
    (items.foldl add draft).Lacks other := by
  induction items generalizing draft with
  | nil => exact lacks
  | cons item items inductionHypothesis =>
      rw [List.forall_mem_cons] at apart
      exact inductionHypothesis (lacks_add lacks apart.1) apart.2

/-- Items that are about different things are all taken, whatever follows them. -/
theorem take_append
    (takeable : ∀ item ∈ items, item.IsTakeable)
    (apart : items.Pairwise Item.Apart)
    (lacks : ∀ item ∈ items, draft.Lacks item) :
    draft.take (items ++ rest) = (items.foldl add draft).take rest := by
  induction items generalizing draft with
  | nil => rfl
  | cons item items inductionHypothesis =>
      rw [List.forall_mem_cons] at takeable lacks
      rw [List.pairwise_cons] at apart
      rw [List.cons_append, take_cons takeable.1 lacks.1, List.foldl_cons]
      exact inductionHypothesis takeable.2 apart.2 fun other member =>
        lacks_add (lacks.2 other member) (apart.1 other member)

/-- Behind items that are taken, a limit that cannot be read is refused. -/
theorem take_append_of_unreadable
    {text : String}
    (unreadable : limitOfText? text = none)
    (takeable : ∀ item ∈ items, item.IsTakeable)
    (apart : (items ++ .limit text :: rest).Pairwise Item.Apart) :
    blank.take (items ++ .limit text :: rest) = .error (.invalidLimit text) := by
  obtain ⟨apart, _, across⟩ := List.pairwise_append.mp apart
  have lacks : (items.foldl add blank).Lacks (.limit text) :=
    lacks_foldl_add (lacks_blank _) fun item member =>
      across item member _ List.mem_cons_self
  rw [take_append takeable apart fun item _ => lacks_blank item,
    take_cons_of_unreadable unreadable lacks]

/-- The order of items that are about different things makes no difference. -/
theorem foldl_add_eq_of_perm
    {order : List Item}
    (permuted : order.Perm items)
    (apart : order.Pairwise Item.Apart) :
    order.foldl add draft = items.foldl add draft := by
  refine permuted.foldl_eq' ?_ draft
  intro first first_mem second second_mem draft
  rcases eq_or_ne first second with rfl | different
  · rfl
  · exact add_comm (apart.forall first_mem second_mem different)

end Draft

/-- The items for a path, the flags that are set, and a limit if there is a text for
one. -/
def wantedItems
    (path : String)
    (tracing strict : Bool)
    (limit : Option String) : List Item :=
  .path path ::
    ((if tracing then [.trace] else []) ++ (if strict then [.strict] else []) ++
      limit.toList.map .limit)

section WantedItems

variable {path : String} {tracing strict : Bool} {limit : Option String}

theorem mem_wantedItems_cases
    {item : Item}
    (wanted : item ∈ wantedItems path tracing strict limit) :
    item = .path path ∨ item = .trace ∨ item = .strict ∨
      ∃ text ∈ limit, item = .limit text := by
  simp only [wantedItems, List.mem_cons, List.mem_append, List.mem_ite_nil_right,
    List.mem_map, List.not_mem_nil, or_false, Option.mem_toList] at wanted
  rcases wanted with rfl | (⟨_, rfl⟩ | ⟨_, rfl⟩) | ⟨text, given, rfl⟩
  · exact .inl rfl
  · exact .inr (.inl rfl)
  · exact .inr (.inr (.inl rfl))
  · exact .inr (.inr (.inr ⟨text, given, rfl⟩))

theorem limit_mem_wantedItems {text : String} (given : text ∈ limit) :
    .limit text ∈ wantedItems path tracing strict limit := by
  simp [wantedItems, Option.mem_def.mp given]

theorem pairwise_apart_wantedItems :
    (wantedItems path tracing strict limit).Pairwise Item.Apart := by
  cases tracing <;> cases strict <;> cases limit <;>
    simp [wantedItems, Item.Apart, Item.subject]

theorem finish_foldl_wantedItems :
    ((wantedItems path tracing strict limit).foldl Draft.add Draft.blank).finish =
      .ok (.execute ⟨path, settings strict tracing (limit.bind limitOfText?)⟩) := by
  cases tracing <;> cases strict <;> cases limit <;> rfl

/-- Only a limit among these items can fail to be taken. -/
theorem isTakeable_of_mem_wantedItems
    {item : Item}
    (nonempty : path ≠ "")
    (wanted : item ∈ wantedItems path tracing strict limit)
    (readable : ∀ text ∈ limit, item = .limit text → (limitOfText? text).isSome) :
    item.IsTakeable := by
  rcases mem_wantedItems_cases wanted with rfl | rfl | rfl | ⟨text, given, rfl⟩
  · exact nonempty
  · trivial
  · trivial
  · exact readable text given rfl

variable {order : List Item}

theorem pairwise_apart_of_perm
    (permuted : order.Perm (wantedItems path tracing strict limit)) :
    order.Pairwise Item.Apart :=
  permuted.symm.pairwise pairwise_apart_wantedItems Ne.symm

/-- The wanted items are accepted in any order, if a limit is given or there is none. -/
theorem take_of_perm
    {bound : Option Nat}
    (nonempty : path ≠ "")
    (permuted : order.Perm (wantedItems path tracing strict limit))
    (gives : GivesLimit limit bound) :
    Draft.blank.take order =
      .ok (.execute ⟨path, settings strict tracing bound⟩) := by
  obtain ⟨readable, rfl⟩ := givesLimit_iff.mp gives
  have apart := pairwise_apart_of_perm permuted
  have takeable : ∀ item ∈ order, item.IsTakeable := fun item member =>
    isTakeable_of_mem_wantedItems nonempty (permuted.subset member)
      fun text given _ => readable text given
  have taken :
      Draft.blank.take (order ++ []) =
        (order.foldl Draft.add Draft.blank).take [] :=
    Draft.take_append takeable apart fun item _ => Draft.lacks_blank item
  rw [List.append_nil] at taken
  rw [taken, Draft.take, Draft.foldl_add_eq_of_perm permuted apart,
    finish_foldl_wantedItems]

/-- In any order, a limit that cannot be read is what the wanted items are refused
for. -/
theorem take_of_perm_of_unreadable
    {text : String}
    (nonempty : path ≠ "")
    (permuted : order.Perm (wantedItems path tracing strict (some text)))
    (unreadable : limitOfText? text = none) :
    Draft.blank.take order = .error (.invalidLimit text) := by
  have apart := pairwise_apart_of_perm permuted
  obtain ⟨before, behind, rfl⟩ :=
    List.append_of_mem (permuted.symm.subset (limit_mem_wantedItems rfl))
  refine Draft.take_append_of_unreadable unreadable ?_ apart
  intro item member
  have different : item.Apart (.limit text) :=
    (List.pairwise_append.mp apart).2.2 item member _ List.mem_cons_self
  refine isTakeable_of_mem_wantedItems nonempty
    (permuted.subset (List.mem_append_left _ member)) ?_
  rintro other given rfl
  obtain rfl := Option.mem_some_iff.mp given
  exact absurd rfl different

end WantedItems

end CommandLine
end LS8
