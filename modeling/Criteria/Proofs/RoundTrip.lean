import Criteria.Proofs.Levels
import Criteria.Proofs.WireForm

/-!
Trees that are written and read again. The wire form of a tree of groups and conditions is read
as the tree, whatever its names and operands are (`Group.ofJson_toJson`). A value that is read as
a tree need not be its wire form, but it is read as such a tree; so once a value has been read and
written, reading and writing it again changes nothing (`Group.toJson_restored`).
-/
namespace Criteria

theorem Condition.ofJson_toJson (c : Condition) : Condition.ofJson c.toJson = .ok c := by
  obtain ⟨field, operator, value, values⟩ := c
  by_cases none : values = .null
  · subst none
    rfl
  · have given : values.isNull = false := Bool.eq_false_iff.mpr (mt Json.isNull_iff.mp none)
    simp only [toJson, given]
    rfl

theorem Condition.listOfJson_toJson (cs : List Condition) :
    Condition.listOfJson (.arr (cs.map Condition.toJson)) = .ok cs := by
  have each : (cs.map Condition.toJson).mapM Condition.ofJson = .ok cs := by
    rw [mapM_eq_ok_iff, List.forall₂_map_left_iff, List.forall₂_same]
    intro c _
    exact c.ofJson_toJson
  cases cs with
  | nil => rfl
  | cons c rest => exact each

namespace Group

theorem listOfJson_toJson {groups : List Group} (each : ∀ g ∈ groups, ofJson g.toJson = .ok g) :
    listOfJson (.arr (toJsons groups)) = .ok groups := by
  rw [listOfJson, ofItems_eq_mapM, toJsons_eq_map, mapM_eq_ok_iff, List.forall₂_map_left_iff, List.forall₂_same]
  exact each

/-- The wire form of a tree is read as the tree. -/
theorem ofJson_toJson {g : Group} (plain : g.Plain) : ofJson g.toJson = .ok g := by
  induction plain with
  | @node operator cs groups nested ih =>
    have members : (cs.map Member.condition).map Member.toJson = cs.map Condition.toJson := by
      rw [List.map_map]
      rfl
    rw [toJson, members, ofJson, ofEntries_eq]
    have tests : Condition.listOfJson (.arr (cs.map Condition.toJson)) = .ok cs := Condition.listOfJson_toJson cs
    have inner : listOfJson (.arr (toJsons groups)) = .ok groups := listOfJson_toJson ih
    simp [Json.getOrNull, Json.textOr, List.lookup_cons, Json.display, tests, inner, bind, Except.bind, pure,
      Except.pure]

/-- Nothing is lost in the wire form of a tree: of any names, known or not, and any operands, it is
    read as the tree. Whatever value a tree is read from, its wire form is read as that tree again. -/
theorem toJson_restored :
    (∀ g : Group, g.Plain → ofJson g.toJson = .ok g) ∧
    ∀ (x : Json) (g : Group), ofJson x = .ok g → g.Plain ∧ ofJson g.toJson = .ok g := by
  constructor
  · intro g plain
    exact ofJson_toJson plain
  · intro x g read
    have plain := plain_of_ofJson read
    exact ⟨plain, ofJson_toJson plain⟩

/-- A value that leaves out and adds what it likes: no name is a text, a list is given by an empty text
    and by zero, and what is not asked for stands beside them. -/
def looseGroup : Json :=
  .obj [("operator", .null), ("note", .str "x"),
    ("conditions", .arr [.obj [("field", .int 3), ("value", .arr [.bool true]), ("values", .obj [("a", .null)])]]),
    ("groups", .arr [.obj [("conditions", .str ""), ("groups", .int 0)]])]

/-- It is read as a tree that its wire form restores, and it is not that wire form; a tree with unknown
    names and a text for a set of operands is restored as well. -/
theorem toJson_restored_looseGroup :
    let c : Condition := ⟨"3", "", .arr [.bool true], .obj [("a", .null)]⟩
    let g : Group := .node "None" [.condition c] [.node "AND" [] []]
    let unknown : Group := .node "XOR" [.condition ⟨"", "like", .null, .str "ab"⟩] []
    ofJson looseGroup = .ok g ∧ g.toJson ≠ looseGroup ∧ ofJson g.toJson = .ok g ∧
      unknown.Plain ∧ ofJson unknown.toJson = .ok unknown := by
  intro c g unknown
  obtain ⟨whole, again⟩ := toJson_restored
  have read : ofJson looseGroup = .ok g := rfl
  have plain : unknown.Plain := .node "XOR" [⟨"", "like", .null, .str "ab"⟩] nofun
  exact ⟨read, by decide, (again looseGroup g read).2, plain, whole unknown plain⟩

end Group

end Criteria
