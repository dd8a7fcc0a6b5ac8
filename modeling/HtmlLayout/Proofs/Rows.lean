import Mathlib.Data.List.Basic

/-!
# Rows

Trees are read by functions on rows of siblings that all go the same way: what is said of an item is
combined with what is said of the rest. Such a function is a fold. It turns a row made of two rows
into the combination of both, and a map that respects the combination takes it to another function of
the kind.

A text that is put before a row is either dropped or becomes part of it, and which of the two depends
on the text and on the first item only. So a text may be put there in two steps as well.
-/

namespace HtmlLayout

/-- A function on rows that combines what it says of the items. -/
structure Rowwise {α β : Type} (all : List α → β) (one : α → β) (combine : β → β → β)
    (nothing : β) : Prop where
  nil : all [] = nothing
  cons (item : α) (rest : List α) : all (item :: rest) = combine (one item) (all rest)

namespace Rowwise

variable {α β γ : Type} {all : List α → β} {one : α → β} {combine : β → β → β} {nothing : β}
  (hall : Rowwise all one combine nothing)

include hall

theorem eq_foldr (row : List α) : all row = row.foldr (fun item => combine (one item)) nothing := by
  induction row with
  | nil => exact hall.nil
  | cons item rest ih => rw [hall.cons, ih, List.foldr_cons]

theorem append (hnothing : ∀ x, combine nothing x = x)
    (hassoc : ∀ x y z, combine (combine x y) z = combine x (combine y z)) (first rest : List α) :
    all (first ++ rest) = combine (all first) (all rest) := by
  induction first with
  | nil => rw [List.nil_append, hall.nil, hnothing]
  | cons item first ih => rw [List.cons_append, hall.cons, hall.cons, ih, hassoc]

/-- What a map makes of a row, if that is known for each item of it. -/
theorem map_eq {other : List α → γ} {oneOther : α → γ} {combineOther : γ → γ → γ} {nothingOther : γ}
    (hother : Rowwise other oneOther combineOther nothingOther) {view : β → γ}
    (hnothing : view nothing = nothingOther)
    (hcombine : ∀ x y, view (combine x y) = combineOther (view x) (view y)) {row : List α}
    (hrow : ∀ item ∈ row, view (one item) = oneOther item) : view (all row) = other row := by
  induction row with
  | nil => rw [hall.nil, hother.nil, hnothing]
  | cons item rest ih =>
      obtain ⟨hitem, hrest⟩ := List.forall_mem_cons.mp hrow
      rw [hall.cons, hother.cons, hcombine, hitem, ih hrest]

end Rowwise

/-- Putting a text before a row: an empty one is dropped, and one that comes to stand before another is
joined with it. -/
structure JoinsText {α : Type} (ofText : String → α) (join : String → List α → List α) : Prop where
  empty (row : List α) : join "" row = row
  text {data : String} (hdata : data ≠ "") (next : String) (rest : List α) :
    join data (ofText next :: rest) = ofText (data ++ next) :: rest
  other {data : String} (hdata : data ≠ "") {row : List α}
    (hrow : ∀ next rest, row ≠ ofText next :: rest) : join data row = ofText data :: row

theorem JoinsText.append {α : Type} {ofText : String → α} {join : String → List α → List α}
    (hjoin : JoinsText ofText join) (first next : String) (row : List α) :
    join (first ++ next) row = join first (join next row) := by
  by_cases hfirst : first = ""
  · rw [hfirst, String.empty_append, hjoin.empty]
  · by_cases hnext : next = ""
    · rw [hnext, String.append_empty, hjoin.empty]
    · have hboth : first ++ next ≠ "" := by simp [hfirst]
      by_cases hrow : ∃ last rest, row = ofText last :: rest
      · obtain ⟨last, rest, rfl⟩ := hrow
        rw [hjoin.text hboth, hjoin.text hnext, hjoin.text hfirst, String.append_assoc]
      · have hother : ∀ last rest, row ≠ ofText last :: rest :=
          fun last rest heq => hrow ⟨last, rest, heq⟩
        rw [hjoin.other hboth hother, hjoin.other hnext hother, hjoin.text hfirst]

end HtmlLayout
