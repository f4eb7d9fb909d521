import Criteria.Proofs.Grammar
import Criteria.Schema.Problem

/-!
What it is to have a shape. A value conforms to a shape if no problem is found in it;
that is so exactly if it meets each keyword of the shape (`conforms_iff`), whatever path
leads to the value (`problems_eq_nil_iff`). From it the shapes of objects and of arrays
are read entry by entry and item by item (`conforms_obj_iff`, `conforms_items_iff`).
-/
namespace Criteria

theorem Json.sizeOf_lt_of_lookup {entries : List (String × Json)} {name : String} {x : Json}
    (found : entries.lookup name = some x) : sizeOf x < sizeOf (Json.obj entries) := by
  obtain ⟨before, after, rfl, -⟩ := List.lookup_eq_some_iff.mp found
  have inside : (name, x) ∈ before ++ (name, x) :: after := List.mem_append_right _ List.mem_cons_self
  have smaller := List.sizeOf_lt_of_mem inside
  rw [Prod.mk.sizeOf_spec] at smaller
  rw [Json.obj.sizeOf_spec]
  omega

theorem Json.sizeOf_lt_of_mem {items : List Json} {x : Json} (inside : x ∈ items) :
    sizeOf x < sizeOf (Json.arr items) := by
  have smaller := List.sizeOf_lt_of_mem inside
  rw [Json.arr.sizeOf_spec]
  omega

namespace Schema

/-- A value conforms to a shape: no problem is found in it. -/
def Conforms (s : Shape) (x : Json) : Prop := problems x s [] = []

/-- A value of which a shape is expected meets a keyword. -/
def Meets (s : Shape) (x : Json) : Keyword → Prop
  | .kinds allowed => ∃ k ∈ allowed, k.holds x = true
  | .closed => ∀ entries, x = .obj entries → Json.OnlyNamed (s.entries.map (·.1)) entries
  | .entries shapes => ∀ e ∈ shapes, ∀ y, x.get? e.1 = some y → Conforms e.2 y
  | .required names => ∀ entries, x = .obj entries → ∀ name ∈ names, (entries.lookup name).isSome = true
  | .items shape => ∀ items, x = .arr items → ∀ y ∈ items, Conforms shape y
  | .nonEmpty => x ≠ .str ""
  | .choice texts => ∃ text ∈ texts, x = .str text
  | .minimum n => isBelow n x = false

/-! ### Problems of one keyword -/

/-- The checks of the entries of a value, if it is an object. -/
def checksOfEntries : Json → List (String × Check)
  | .obj entries => entryChecks entries
  | _ => []

/-- The checks of the items of a value, if it is an array. -/
def checksOfItems : Json → List Check
  | .arr items => itemChecks items
  | _ => []

theorem problems_eq_flatMap (x : Json) (s : Shape) (path : Path) :
    problems x s path = s.keywords.flatMap (keywordProblems x (checksOfEntries x) (checksOfItems x) s path) := by
  cases x <;> rw [problems] <;> rfl

theorem lookup_checksOfEntries (x : Json) (name : String) :
    (checksOfEntries x).lookup name = (x.get? name).map problems := by
  cases x with
  | obj entries => exact lookup_entryChecks name entries
  | _ => rfl

theorem unexpectedNames_eq_nil_iff {s : Shape} {names : List String} :
    unexpectedNames s names = [] ↔ ∀ name ∈ names, name ∈ s.entries.map (·.1) := by
  rw [unexpectedNames, List.filter_eq_nil_iff]
  refine forall₂_congr fun name _ => ?_
  rw [Bool.not_eq_true, Option.isNone_eq_false_iff, List.lookup_isSome_iff, List.mem_map]
  exact exists_congr fun e => and_congr_right fun _ => beq_iff_eq.trans eq_comm

theorem map_fst_entryChecks (entries : List (String × Json)) :
    (entryChecks entries).map (·.1) = entries.map (·.1) := by
  induction entries with
  | nil => rfl
  | cons e rest ih =>
    rw [entryChecks, List.map_cons, List.map_cons, ih]

theorem closedProblems_eq_nil_iff (x : Json) (s : Shape) (path : Path) :
    keywordProblems x (checksOfEntries x) (checksOfItems x) s path .closed = [] ↔ Meets s x .closed := by
  have none_unexpected : keywordProblems x (checksOfEntries x) (checksOfItems x) s path .closed = [] ↔
      unexpectedNames s ((checksOfEntries x).map (·.1)) = [] := by
    rw [keywordProblems]
    split
    · rename_i found
      exact iff_of_true rfl found
    · rename_i found
      exact iff_of_false (List.cons_ne_nil _ _) found
  rw [none_unexpected, unexpectedNames_eq_nil_iff, Meets]
  cases x with
  | obj entries =>
    rw [checksOfEntries, map_fst_entryChecks, List.forall_mem_map]
    exact ⟨fun known _ same => by cases same; exact known, fun known => known entries rfl⟩
  | _ => exact iff_of_true (fun _ none => absurd none List.not_mem_nil) (fun _ same => by cases same)

theorem itemProblems_eq_nil_iff {items : List Json} {shape : Shape} {path : Path} :
    (((items.map problems).zipIdx.flatMap fun (check, index) => check shape (path ++ [.item index])) = []) ↔
      ∀ (index : Nat) (y : Json), items[index]? = some y → problems y shape (path ++ [.item index]) = [] := by
  rw [List.flatMap_eq_nil_iff]
  constructor
  · intro sound index y found
    refine sound (problems y, index) (List.mk_mem_zipIdx_iff_getElem?.mpr ?_)
    rw [List.getElem?_map, found, Option.map_some]
  · rintro sound ⟨check, index⟩ inside
    rw [List.mk_mem_zipIdx_iff_getElem?, List.getElem?_map, Option.map_eq_some_iff] at inside
    obtain ⟨y, found, rfl⟩ := inside
    exact sound index y found

/-- A keyword has no problem with a value that meets it, if the same is known of the values
    below. -/
theorem keywordProblems_eq_nil_iff {x : Json}
    (below : ∀ y, sizeOf y < sizeOf x → ∀ (s : Shape) (path : Path), problems y s path = [] ↔ Conforms s y)
    (s : Shape) (path : Path) (kw : Keyword) :
    keywordProblems x (checksOfEntries x) (checksOfItems x) s path kw = [] ↔ Meets s x kw := by
  cases kw with
  | kinds allowed =>
    rw [keywordProblems, Meets, ← List.any_eq_true]
    simp
  | closed => exact closedProblems_eq_nil_iff x s path
  | entries shapes =>
    rw [keywordProblems, Meets, List.flatMap_eq_nil_iff]
    refine forall₂_congr fun e _ => ?_
    obtain ⟨name, shape⟩ := e
    simp only [lookup_checksOfEntries]
    cases found : x.get? name with
    | none => simp
    | some y =>
      have smaller : sizeOf y < sizeOf x := by
        cases x with
        | obj entries => exact Json.sizeOf_lt_of_lookup found
        | _ => cases found
      simpa using below y smaller shape (path ++ [.entry name])
  | required names =>
    rw [Meets]
    cases x with
    | obj entries =>
      simp only [keywordProblems, lookup_checksOfEntries, Json.get?, Option.isSome_map,
        List.filterMap_eq_nil_iff, Json.obj.injEq, forall_eq']
      refine forall₂_congr fun name _ => ?_
      split <;> simp_all
    | _ => simp [keywordProblems]
  | items shape =>
    cases x with
    | arr items =>
      rw [keywordProblems, checksOfItems, itemChecks_eq_map, itemProblems_eq_nil_iff, Meets]
      constructor
      · rintro sound _ ⟨rfl⟩ y inside
        obtain ⟨index, found⟩ := List.getElem?_of_mem inside
        exact (below y (Json.sizeOf_lt_of_mem inside) shape _).mp (sound index y found)
      · intro sound index y found
        have inside := List.mem_of_getElem? found
        exact (below y (Json.sizeOf_lt_of_mem inside) shape _).mpr (sound items rfl y inside)
    | _ => simp [keywordProblems, Meets, checksOfItems]
  | nonEmpty => simp [keywordProblems, Meets]
  | choice texts => simp [keywordProblems, Meets]
  | minimum n => simp [keywordProblems, Meets]

/-- No problem is found in a value that meets the keywords of its shape, whatever path
    leads to it. -/
theorem problems_eq_nil_iff (x : Json) (s : Shape) (path : Path) :
    problems x s path = [] ↔ ∀ kw ∈ s.keywords, Meets s x kw := by
  rw [problems_eq_flatMap, List.flatMap_eq_nil_iff]
  -- Below the value the path is another one, so the statement is used for both paths.
  refine forall₂_congr fun kw _ => keywordProblems_eq_nil_iff (fun y smaller shape place => ?_) s path kw
  rw [Conforms, problems_eq_nil_iff y shape place, problems_eq_nil_iff y shape []]
termination_by sizeOf x

theorem conforms_iff {s : Shape} {x : Json} : Conforms s x ↔ ∀ kw ∈ s.keywords, Meets s x kw :=
  problems_eq_nil_iff x s []

/-! ### Shapes -/

variable {s : Shape} {x : Json}

theorem conforms_name_iff : Conforms .name x ↔ ∃ s, s ≠ "" ∧ x = .str s := by
  rw [conforms_iff, Shape.keywords]
  cases x <;> simp [Meets, Kind.holds]

theorem conforms_optionalText_iff : Conforms .optionalText x ↔ x = .null ∨ ∃ s, x = .str s := by
  rw [conforms_iff, Shape.keywords]
  cases x <;> simp [Meets, Kind.holds]

theorem conforms_list_iff : Conforms .list x ↔ ∃ items, x = .arr items := by
  rw [conforms_iff, Shape.keywords]
  cases x <;> simp [Meets, Kind.holds]

/-- What conforms to a shape of names is the name of something. -/
theorem conforms_choice_iff {α : Type} {name : α → String} {all : List α} (complete : ∀ a, a ∈ all)
    (demands : s.keywords = [.kinds [.text], .choice (all.map name)]) :
    Conforms s x ↔ ∃ a, x = .str (name a) := by
  rw [conforms_iff, demands, List.forall_mem_cons, List.forall_mem_singleton, Meets, Meets]
  constructor
  · rintro ⟨-, text, inside, rfl⟩
    obtain ⟨a, -, rfl⟩ := List.mem_map.mp inside
    exact ⟨a, rfl⟩
  · rintro ⟨a, rfl⟩
    exact ⟨⟨.text, List.mem_singleton_self _, rfl⟩, name a, List.mem_map_of_mem (complete a), rfl⟩

theorem conforms_operator_iff : Conforms .operator x ↔ ∃ op : Operator, x = .str op.name :=
  conforms_choice_iff Operator.mem_all rfl

theorem conforms_connective_iff : Conforms .connective x ↔ ∃ k : Connective, x = .str k.name := by
  have complete : ∀ k : Connective, k ∈ [Connective.all, .any] := by rintro (_ | _) <;> decide
  exact conforms_choice_iff complete rfl

theorem conforms_direction_iff : Conforms .direction x ↔ ∃ d : Direction, x = .str d.name := by
  have complete : ∀ d : Direction, d ∈ [Direction.ascending, .descending] := by
    rintro (_ | _) <;> decide
  exact conforms_choice_iff complete rfl

theorem conforms_count_iff : Conforms .count x ↔ ∃ n : Int, x.IsInteger n ∧ 1 ≤ n := by
  rw [conforms_iff, Shape.keywords, List.forall_mem_cons, List.forall_mem_singleton, Meets, Meets]
  cases x with
  | int m =>
    simp [Kind.holds, isBelow, Json.IsInteger]
  | float x =>
    simp only [List.mem_singleton, exists_eq_left, Kind.holds, isBelow, Json.IsInteger, Binary64.isIntegral_iff,
      Bool.eq_false_iff, ne_eq]
    constructor
    · rintro ⟨⟨n, exact⟩, enough⟩
      rw [Binary64.ltNat_one_iff exact] at enough
      exact ⟨n, exact, Int.not_lt.mp enough⟩
    · rintro ⟨n, exact, enough⟩
      rw [Binary64.ltNat_one_iff exact]
      exact ⟨⟨n, exact⟩, Int.not_lt.mpr enough⟩
  | _ => simp [Kind.holds, Json.IsInteger]

theorem conforms_any : Conforms .any x := by
  rw [conforms_iff, Shape.keywords]
  exact List.forall_mem_nil _

theorem conforms_items_iff {shape : Shape} (demands : s.keywords = [.kinds [.array], .items shape]) :
    Conforms s x ↔ ∃ items, x = .arr items ∧ ∀ y ∈ items, Conforms shape y := by
  rw [conforms_iff, demands]
  cases x <;> simp [Meets, Kind.holds]

/-- An object conforms to a shape of objects if its entries are named by the shape and
    conform to what is named there, and the further keywords are met. -/
theorem conforms_obj_iff {entries : List (String × Json)} {allowed : List Kind} {further : List Keyword}
    (demands : s.keywords = .kinds allowed :: .closed :: .entries s.entries :: further)
    (objects : .object ∈ allowed) :
    Conforms s (.obj entries) ↔ Json.OnlyNamed (s.entries.map (·.1)) entries ∧
      (∀ e ∈ s.entries, ∀ y, entries.lookup e.1 = some y → Conforms e.2 y) ∧
      ∀ kw ∈ further, Meets s (.obj entries) kw := by
  have isObject : Meets s (.obj entries) (.kinds allowed) := ⟨.object, objects, rfl⟩
  have closed : Meets s (.obj entries) .closed ↔ Json.OnlyNamed (s.entries.map (·.1)) entries := by
    rw [Meets]
    exact ⟨fun known => known entries rfl, fun known _ same => by cases same; exact known⟩
  rw [conforms_iff, demands, List.forall_mem_cons, List.forall_mem_cons, List.forall_mem_cons,
    and_iff_right isObject, closed]
  rfl

theorem meets_required_iff {entries : List (String × Json)} {names : List String} :
    Meets s (.obj entries) (.required names) ↔ ∀ name ∈ names, ∃ y, entries.lookup name = some y := by
  rw [Meets]
  constructor
  · intro complete name inside
    exact Option.isSome_iff_exists.mp (complete entries rfl name inside)
  · rintro complete _ ⟨rfl⟩ name inside
    exact Option.isSome_iff_exists.mpr (complete name inside)

/-- An entry that is required conforms to what it is named for. -/
theorem exists_required {entries : List (String × Json)} {names : List String}
    (shaped : ∀ e ∈ s.entries, ∀ y, entries.lookup e.1 = some y → Conforms e.2 y)
    (complete : ∀ kw ∈ [Keyword.required names], Meets s (.obj entries) kw) {e : String × Shape}
    (inside : e ∈ s.entries) (required : e.1 ∈ names) : ∃ y, entries.lookup e.1 = some y ∧ Conforms e.2 y := by
  obtain ⟨y, found⟩ := meets_required_iff.mp (complete _ (List.mem_singleton_self _)) e.1 required
  exact ⟨y, found, shaped e inside y found⟩

/-- What conforms to a shape of objects alone is an object. -/
theorem exists_entries_of_conforms {further : List Keyword} (demands : s.keywords = .kinds [.object] :: further)
    (conforms : Conforms s x) : ∃ entries, x = .obj entries := by
  rw [conforms_iff, demands, List.forall_mem_cons] at conforms
  obtain ⟨⟨k, only, holds⟩, -⟩ := conforms
  rw [List.mem_singleton.mp only] at holds
  cases x with
  | obj entries => exact ⟨entries, rfl⟩
  | _ => cases holds

theorem null_or_exists_entries_of_conforms {further : List Keyword}
    (demands : s.keywords = .kinds [.object, .null] :: further) (conforms : Conforms s x) :
    x = .null ∨ ∃ entries, x = .obj entries := by
  rw [conforms_iff, demands, List.forall_mem_cons] at conforms
  obtain ⟨⟨k, either, holds⟩, -⟩ := conforms
  rcases List.mem_pair.mp either with rfl | rfl
  · cases x with
    | obj entries => exact .inr ⟨entries, rfl⟩
    | _ => cases holds
  · cases x with
    | null => exact .inl rfl
    | _ => cases holds

theorem conforms_null (nullable : s = .sort ∨ s = .pagination) : Conforms s .null := by
  rw [conforms_iff]
  rcases nullable with rfl | rfl <;> simp [Shape.keywords, Meets, Kind.holds, Json.get?]

end Schema

end Criteria
