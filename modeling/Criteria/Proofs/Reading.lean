import Criteria.Predicate.Basic
import Criteria.Proofs.Outcome

/-!
Reading predicates. A valuation says which fragments hold; a predicate then holds as
its connectives say (`holds`). Its fragments are what remains below the connectives,
in order (`fragments`). Joining predicates joins both readings, although one predicate
stands for itself and none leaves no list behind (`holds_combine`,
`fragments_combine`); so no connective is left idle (`tidy_combine`).
-/
namespace Criteria

/-- Whether what a connective joins holds, from whether each part does. -/
def Connective.join : Connective → List Bool → Bool
  | all, truths => truths.all id
  | any, truths => truths.any id

namespace Predicate

mutual

/-- Whether a predicate holds where the valuation says which fragments do. -/
def holds (v : Predicate → Bool) : Predicate → Bool
  | object [] => true
  | object [(name, list parts)] =>
    match Connective.ofName? name with
    | some k => k.join (truths v parts)
    | none => v (object [(name, list parts)])
  | p => v p

/-- Which of several predicates hold. -/
def truths (v : Predicate → Bool) : List Predicate → List Bool
  | [] => []
  | p :: rest => holds v p :: truths v rest

end

mutual

/-- The fragments of a predicate, in order. -/
def fragments : Predicate → List Predicate
  | object [] => []
  | object [(name, list parts)] =>
    if (Connective.ofName? name).isSome then fragmentsOfAll parts else [object [(name, list parts)]]
  | p => [p]

/-- The fragments of several predicates, in order. -/
def fragmentsOfAll : List Predicate → List Predicate
  | [] => []
  | p :: rest => fragments p ++ fragmentsOfAll rest

end

/-- Whether a predicate is a fragment: it neither holds always nor joins others. -/
def isFragment : Predicate → Bool
  | object [] => false
  | object [(name, list _)] => (Connective.ofName? name).isNone
  | _ => true

theorem truths_eq_map (v : Predicate → Bool) (parts : List Predicate) : truths v parts = parts.map (holds v) := by
  induction parts with
  | nil => rfl
  | cons p rest ih => rw [truths, ih, List.map_cons]

theorem fragmentsOfAll_eq_flatMap (parts : List Predicate) : fragmentsOfAll parts = parts.flatMap fragments := by
  induction parts with
  | nil => rfl
  | cons p rest ih => rw [fragmentsOfAll, ih, List.flatMap_cons]

/-! ### Fragments -/

theorem holds_of_isFragment (v : Predicate → Bool) {p : Predicate} (fragment : p.isFragment = true) :
    p.holds v = v p := by
  unfold isFragment at fragment
  split at fragment
  · cases fragment
  · rw [holds]
    split
    · rename_i known
      rw [known] at fragment
      cases fragment
    · rfl
  · rename_i someEntry noList
    exact holds.eq_3 v p someEntry noList

theorem fragments_of_isFragment {p : Predicate} (fragment : p.isFragment = true) : p.fragments = [p] := by
  unfold isFragment at fragment
  split at fragment
  · cases fragment
  · rw [fragments, if_neg (by simpa using fragment)]
  · rename_i someEntry noList
    exact fragments.eq_3 p someEntry noList

/-- What stands under the path of a field is a fragment, whatever the field is called:
    below its name there is an object and no list. -/
theorem isFragment_nest {path : List String} (segments : path ≠ []) (entries : List (String × Predicate)) :
    (nest path (object entries)).isFragment = true := by
  match path, segments with
  | [segment], _ => rfl
  | segment :: next :: rest, _ => rfl

example : (nest ["AND"] (object [("equals", text "x")])).isFragment = true := rfl

/-- Leaves that are placed under the path of a field are fragments: none of them holds
    always or joins others. -/
def PlacesFragments (place : List String → Predicate → Predicate) : Prop :=
  ∀ path ≠ [], ∀ entries : List (String × Predicate), (place path (object entries)).isFragment = true

theorem placesFragments_nest : PlacesFragments nest :=
  fun _ segments entries => isFragment_nest segments entries

/-! ### Joined predicates -/

theorem holds_combine (v : Predicate → Bool) (k : Connective) (parts : List Predicate) :
    (combine k.name parts).holds v = k.join (parts.map (holds v)) := by
  match parts with
  | [] => cases k <;> rfl
  | [p] => cases k <;> simp [combine, Connective.join]
  | p :: q :: rest =>
    have joined : combine k.name (p :: q :: rest) = object [(k.name, list (p :: q :: rest))] := rfl
    rw [joined, holds, Connective.ofName?_name, truths_eq_map]

theorem fragments_combine (k : Connective) (parts : List Predicate) :
    (combine k.name parts).fragments = parts.flatMap fragments := by
  match parts with
  | [] => cases k <;> rfl
  | [p] => simp [combine]
  | p :: q :: rest =>
    have joined : combine k.name (p :: q :: rest) = object [(k.name, list (p :: q :: rest))] := rfl
    rw [joined, fragments, Connective.ofName?_name, fragmentsOfAll_eq_flatMap]
    rfl

/-- No connective of a predicate is idle: each joins at least two parts, but for the `OR`
    of none. -/
inductive Tidy : Predicate → Prop
  | fragment {p : Predicate} (fragment : p.isFragment = true) : Tidy p
  | always : Tidy always
  | never : Tidy (object [(Connective.any.name, list [])])
  | joined (k : Connective) {parts : List Predicate} (several : 2 ≤ parts.length) (each : ∀ p ∈ parts, Tidy p) :
      Tidy (object [(k.name, list parts)])

theorem tidy_combine (k : Connective) {parts : List Predicate} (each : ∀ p ∈ parts, Tidy p) :
    Tidy (combine k.name parts) := by
  match parts with
  | [] =>
    cases k with
    | all => exact .always
    | any => exact .never
  | [p] => exact List.forall_mem_singleton.mp each
  | p :: q :: rest => exact .joined k (by simp) each

end Predicate

end Criteria
