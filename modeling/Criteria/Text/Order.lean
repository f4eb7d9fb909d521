/-!
Lists in the order of texts. Texts are compared by their code points. The sort keeps
elements of one key in the order in which they stand; `sortBy_perm` and
`pairwise_sortBy` say that it keeps the elements and puts them in order.
-/
namespace Criteria.Text

/-- An element put before the first one of a greater or equal key. -/
def insertBy {α : Type} (key : α → String) (x : α) : List α → List α
  | [] => [x]
  | y :: rest => if key y < key x then y :: insertBy key x rest else x :: y :: rest

/-- The elements of a list in the order of their keys. -/
def sortBy {α : Type} (key : α → String) : List α → List α
  | [] => []
  | x :: rest => insertBy key x (sortBy key rest)

/-- Texts in order, each once. -/
def sorted (texts : List String) : List String := sortBy id texts.eraseDups

theorem insertBy_perm {α : Type} (key : α → String) (x : α) (l : List α) :
    (insertBy key x l).Perm (x :: l) := by
  induction l with
  | nil => exact List.Perm.refl _
  | cons y rest ih =>
    simp only [insertBy]
    split
    · exact (ih.cons y).trans (List.Perm.swap x y rest)
    · exact List.Perm.refl _

theorem sortBy_perm {α : Type} (key : α → String) (l : List α) : (sortBy key l).Perm l := by
  induction l with
  | nil => exact List.Perm.refl _
  | cons x rest ih => exact (insertBy_perm key x _).trans (ih.cons x)

theorem pairwise_insertBy {α : Type} {key : α → String} (x : α) {l : List α}
    (inOrder : l.Pairwise (key · ≤ key ·)) : (insertBy key x l).Pairwise (key · ≤ key ·) := by
  induction l with
  | nil => simp [insertBy]
  | cons y rest ih =>
    obtain ⟨least, others⟩ := List.pairwise_cons.1 inOrder
    simp only [insertBy]
    split
    · rename_i below
      refine List.pairwise_cons.2 ⟨fun z member => ?_, ih others⟩
      rcases List.mem_cons.1 ((insertBy_perm key x rest).mem_iff.1 member) with rfl | member
      · exact String.not_lt.1 (String.lt_asymm below)
      · exact least z member
    · rename_i notBelow
      have first : key x ≤ key y := String.not_lt.1 notBelow
      refine List.pairwise_cons.2 ⟨fun z member => ?_, inOrder⟩
      rcases List.mem_cons.1 member with rfl | member
      · exact first
      · exact String.le_trans first (least z member)

/-- Sorted elements stand in the order of their keys. -/
theorem pairwise_sortBy {α : Type} (key : α → String) (l : List α) :
    (sortBy key l).Pairwise (key · ≤ key ·) := by
  induction l with
  | nil => exact List.Pairwise.nil
  | cons x rest ih => exact pairwise_insertBy x ih

end Criteria.Text
