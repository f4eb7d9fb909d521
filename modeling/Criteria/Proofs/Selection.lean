import Criteria.Matrix.Packaged
import Criteria.Proofs.Built

/-!
Which rows a query selects. Its predicate is a conjunction that leaves out a filter that
always holds and stands for its one part if nothing else is left; `holds_conjunction` and
`holds_parts` say that neither changes its meaning. So a row is selected if it is not
deleted, if the filter holds of it, and if a search field holds the term where there is
one (`predicate_holds_iff`). The term is the part of the search without blanks around it
(`Text.trim_eq_iff`), and there is none in a search of blanks (`Text.trim_eq_empty_iff`).
-/
namespace Criteria

open Calendar (Now)

variable (v : Predicate → Bool)

theorem Predicate.holds_of_isAlways {p : Predicate} (always : p.isAlways = true) : p.holds v = true := by
  unfold isAlways at always
  split at always
  · rw [holds]
  · cases always

/-- A search holds where one of the fields holds the term. It asks nothing without a term
    or without a field. -/
theorem holds_searchIn (fields : List String) (term : String) :
    (∀ p ∈ searchIn fields term, p.holds v = true) ↔
      term = "" ∨ fields = [] ∨ ∃ field ∈ fields, v (containsTerm term field) = true := by
  unfold searchIn
  by_cases nothing : term = "" ∨ fields = []
  · have asked : term = "" ∨ fields = [] ∨ ∃ field ∈ fields, v (containsTerm term field) = true := by
      rcases nothing with blank | none
      · exact .inl blank
      · exact .inr (.inl none)
    simp [if_pos nothing, asked]
  · have tests : (fields.map (containsTerm term)).map (Predicate.holds v) =
        fields.map fun field => v (containsTerm term field) := by
      rw [List.map_map]
      refine List.map_congr_left fun field _ => ?_
      exact Predicate.holds_of_isFragment v (isFragment_containsTerm term field)
    have group : (Predicate.object [(Connective.any.name, .list (fields.map (containsTerm term)))]).holds v = true ↔
        ∃ field ∈ fields, v (containsTerm term field) = true := by
      rw [Predicate.holds, Connective.ofName?_name, Predicate.truths_eq_map, tests]
      simp [Connective.join]
    rw [if_neg nothing]
    simp only [Option.mem_def, Option.some.injEq, forall_eq', group]
    obtain ⟨given, some⟩ := not_or.mp nothing
    simp [given, some]

namespace Query

theorem holds_conjunction (ps : List Predicate) : (conjunction ps).holds v = true ↔ ∀ p ∈ ps, p.holds v = true := by
  unfold conjunction
  split
  · simp
  · rw [Predicate.holds, Connective.ofName?_name, Predicate.truths_eq_map]
    simp [Connective.join]

/-- The parts of a predicate all hold if the row is not deleted and the filter and the
    search hold, although a filter that always holds is not among them. -/
theorem holds_parts (m : Matrix) (filter : Predicate) (search : Option Predicate) :
    (∀ p ∈ parts m filter search, p.holds v = true) ↔
      v (notDeleted m) = true ∧ filter.holds v = true ∧ ∀ p ∈ search, p.holds v = true := by
  have fragment : (notDeleted m).holds v = v (notDeleted m) := Predicate.holds_of_isFragment v rfl
  have kept : (∀ p ∈ if filter.isAlways then [] else [filter], p.holds v = true) ↔ filter.holds v = true := by
    by_cases always : filter.isAlways = true
    · simp [always, Predicate.holds_of_isAlways v always]
    · simp [always]
  rw [parts, List.cons_append, List.forall_mem_cons, List.forall_mem_append, kept, fragment]
  simp

/-- A query selects a row if the row is not deleted, the filter holds of it as its groups
    say, and one of the search fields holds the term; no term is asked for where the
    search is null or blank or the entity has no search fields. This is for every matrix,
    request and present moment that make a query, and for every valuation of fragments.
    So no filter selects a deleted row. -/
theorem predicate_holds_iff (m : Matrix) (sizes : PageSizes) (now : Now) (r : Request) (q : Query)
    (built : build m sizes now r = .ok q) :
    (q.predicate.holds v = true ↔
      v (.object [(m.softDeleteField, .bool false)]) = true ∧
      r.filters.holds (Condition.holds v now) = true ∧
      ∀ s, r.search = .str s → Text.trim s = "" ∨ m.searchFields r.entity = [] ∨
        ∃ field ∈ m.searchFields r.entity, v (.nest (fieldPath field)
          (.object [("contains", .text (Text.trim s)), ("mode", .text "insensitive")])) = true) ∧
    (v (.object [(m.softDeleteField, .bool false)]) = false → q.predicate.holds v = false) := by
  obtain ⟨-, filter, term, compiled, found, rfl⟩ := build_eq_ok_iff.mp built
  have search : (∀ p ∈ searchIn (m.searchFields r.entity) term, p.holds v = true) ↔
      ∀ s, r.search = .str s → Text.trim s = "" ∨ m.searchFields r.entity = [] ∨
        ∃ field ∈ m.searchFields r.entity, v (containsTerm (Text.trim s) field) = true := by
    rw [holds_searchIn]
    cases isGiven : r.search with
    | str s =>
      rw [isGiven, searchTerm?] at found
      cases found
      simp
    | _ =>
      simp only [isGiven, searchTerm?, Option.ite_none_right_eq_some, Option.some.injEq] at found
      simp [found.2.symm]
  have selected := (holds_conjunction v _).trans (holds_parts v m filter (searchIn (m.searchFields r.entity) term))
  rw [Group.holds_compile_eq v compiled, search] at selected
  refine ⟨selected, fun deleted => ?_⟩
  rw [← Bool.not_eq_true]
  intro holds
  exact absurd (deleted.symm.trans (selected.mp holds).1) Bool.false_ne_true

/-- A filter with an always-true alternative, searched: whatever the title is, a deal is
    selected only if it is not deleted and holds the term. -/
theorem predicate_holds_of_open_filter :
    let now : Now := ⟨⟨⟨2024, 5, 15, by decide⟩, .midnight, none⟩, none⟩
    let r : Request := {
      entity := "deals"
      filters := .node "OR" [.condition ⟨"title", "contains", .str "x", .null⟩] [.node "AND" [] []]
      search := .str " acme "
      sort := none
      pagination := some ⟨2, 50⟩ }
    ∃ q, build .packaged .standard now r = .ok q ∧ ∀ v : Predicate → Bool,
      (q.predicate.holds v = true ↔
        v (.object [("isDeleted", .bool false)]) = true ∧
        r.filters.holds (Condition.holds v now) = true ∧
        ∀ s, r.search = .str s → Text.trim s = "" ∨ Matrix.packaged.searchFields "deals" = [] ∨
          ∃ field ∈ Matrix.packaged.searchFields "deals", v (.nest (fieldPath field)
            (.object [("contains", .text (Text.trim s)), ("mode", .text "insensitive")])) = true) ∧
      (v (.object [("isDeleted", .bool false)]) = false → q.predicate.holds v = false) :=
  ⟨_, rfl, fun v => predicate_holds_iff v .packaged .standard _ _ _ rfl⟩

end Query

end Criteria
