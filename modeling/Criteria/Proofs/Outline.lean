import Criteria.Proofs.Sentence
import Criteria.Text.Segments

/-!
What the words of a filter tell of its tree. The outline of a tree (`Group.outline?`) leaves out
the subgroups without conditions and puts a single part in the place of its group; it keeps the
connectives, the nesting, the order and the texts of the conditions. The letters of an outline
stop where it stops (`Outline.cancels_of_proper`) if the texts of the conditions are clear: no text
has a parenthesis, and none has a connective between its blanks. Hence filters that read alike
have one outline (`Group.outline?_eq_of_describe?_eq`).
-/
namespace Criteria

/-! ### Outlines -/

/-- A condition in words, or parts that a connective joins. -/
inductive Outline where
  | condition (text : String)
  | joined (connective : String) (parts : List Outline)

namespace Outline

/-- The outline of a group from those of its parts. -/
def ofParts? (connective : String) : List Outline → Option Outline
  | [] => none
  | [p] => some p
  | p :: q :: rest => some (.joined connective (p :: q :: rest))

theorem ofParts?_eq_none_iff {connective : String} {parts : List Outline} :
    ofParts? connective parts = none ↔ parts = [] := by
  rcases parts with _ | ⟨p, _ | ⟨q, rest⟩⟩ <;> simp [ofParts?]

/-- A connective between blanks, as it stands between two parts. -/
def between (connective : String) : List Char := ' ' :: connective.toList ++ [' ']

mutual

/-- The letters of an outline, with parentheses around parts that are joined. -/
def letters : Outline → List Char
  | condition text => text.toList
  | joined connective parts => '(' :: (between connective).intercalate (lettersOfAll parts) ++ [')']

/-- The letters of several outlines, each for itself. -/
def lettersOfAll : List Outline → List (List Char)
  | [] => []
  | p :: rest => letters p :: lettersOfAll rest

end

theorem lettersOfAll_eq_map (parts : List Outline) : lettersOfAll parts = parts.map letters := by
  induction parts with
  | nil => rfl
  | cons p rest ih => rw [lettersOfAll, ih, List.map_cons]

/-- The letters of several parts with the connective between them. -/
def row (connective : String) (parts : List Outline) : List Char :=
  (between connective).intercalate (parts.map letters)

/-- The letters of further parts, each after the connective. -/
def further (connective : String) (parts : List Outline) : List Char :=
  parts.flatMap fun p => between connective ++ p.letters

theorem letters_joined (connective : String) (parts : List Outline) :
    (joined connective parts).letters = '(' :: row connective parts ++ [')'] := by
  rw [letters, lettersOfAll_eq_map, row]

theorem further_cons (connective : String) (p : Outline) (rest : List Outline) :
    further connective (p :: rest) = between connective ++ (p.letters ++ further connective rest) := by
  rw [further, List.flatMap_cons, List.append_assoc, further]

theorem row_cons (connective : String) (p : Outline) (rest : List Outline) :
    row connective (p :: rest) = p.letters ++ further connective rest := by
  induction rest generalizing p with
  | nil => simp [row, further]
  | cons q others ih =>
    have later := ih q
    rw [row, List.map_cons] at later
    rw [row, List.map_cons, List.map_cons, List.intercalate_cons_cons, later, further_cons, List.append_assoc]

end Outline

/-! ### Clear texts -/

/-- A text without parentheses and without a connective between its blanks. -/
structure Clear (s : List Char) : Prop where
  noOpening : '(' ∉ s
  noClosing : ')' ∉ s
  noConnective : ∀ k : Connective, k.name.toList ∉ Text.segments ' ' s

instance (s : List Char) : Decidable (Clear s) :=
  decidable_of_iff ('(' ∉ s ∧ ')' ∉ s ∧ ∀ k ∈ [Connective.all, .any], k.name.toList ∉ Text.segments ' ' s) <| by
    constructor
    · rintro ⟨noOpening, noClosing, names⟩
      refine ⟨noOpening, noClosing, fun k => names k ?_⟩
      cases k <;> simp
    · intro clear
      exact ⟨clear.noOpening, clear.noClosing, fun k _ => clear.noConnective k⟩

/-- What stands after a part: nothing, a closing parenthesis or a further part. -/
inductive Follows : List Char → Prop
  | nothing : Follows []
  | closing (rest : List Char) : Follows (')' :: rest)
  | further (k : Connective) (rest : List Char) : Follows (Outline.between k.name ++ rest)

theorem Follows.head {c : Char} {rest : List Char} (follows : Follows (c :: rest)) : c = ' ' ∨ c = ')' := by
  generalize same : c :: rest = r at follows
  cases follows with
  | nothing => cases same
  | closing _ => exact .inr (List.cons.inj same).1
  | further k _ => exact .inl (List.cons.inj same).1

namespace Connective

theorem not_mem_name (k : Connective) {c : Char} (stop : c = ' ' ∨ c = ')') : c ∉ k.name.toList := by
  rcases stop with rfl | rfl <;> cases k <;> decide

theorem segments_name (k : Connective) : Text.segments ' ' k.name.toList = [k.name.toList] :=
  Text.segments_of_not_mem (k.not_mem_name (.inl rfl))

theorem between_cancel {k k' : Connective} {r r' : List Char}
    (same : Outline.between k.name ++ r = Outline.between k'.name ++ r') : k = k' ∧ r = r' := by
  cases k <;> cases k' <;> simp_all [Outline.between, name]

end Connective

namespace Clear

variable {s t u r r' : List Char}

/-- A clear text does not go on with what stands after a part. -/
theorem overhang_eq_nil (clear : Clear (s ++ u)) (follows : Follows (u ++ r')) (follows' : Follows r') : u = [] := by
  cases u with
  | nil => rfl
  | cons c u =>
    exfalso
    generalize same : c :: u ++ r' = r at follows
    cases follows with
    | nothing => cases same
    | closing rest =>
      obtain ⟨rfl, -⟩ := List.cons.inj same
      exact clear.noClosing (by simp)
    | further k rest =>
      obtain ⟨rfl, inner⟩ : c = ' ' ∧ u ++ r' = k.name.toList ++ ' ' :: rest := by
        simpa [Outline.between] using same
      have names := clear.noConnective k
      rw [Text.segments_append, List.mem_append, not_or] at names
      -- The connective is what is left of the text, stops before it stops or goes on after it.
      rcases List.append_eq_append_iff.mp inner with ⟨w, longer, after⟩ | ⟨w, longer, after⟩
      · cases w with
        | nil =>
          rw [List.append_nil] at longer
          exact names.2 (by simp [← longer, k.segments_name])
        | cons c w =>
          rw [after] at follows'
          exact k.not_mem_name follows'.head (by simp [longer])
      · cases w with
        | nil =>
          rw [List.append_nil] at longer
          exact names.2 (by simp [longer, k.segments_name])
        | cons c w =>
          obtain ⟨rfl, -⟩ := List.cons.inj after
          exact names.2 (by simp [longer, Text.segments_append, k.segments_name])

/-- Clear texts stop at the same place if they are followed by what stands after a part. -/
theorem cancel (clear : Clear s) (clear' : Clear t) (follows : Follows r) (follows' : Follows r')
    (same : s ++ r = t ++ r') : s = t ∧ r = r' := by
  rcases List.append_eq_append_iff.mp same with ⟨u, rfl, rfl⟩ | ⟨u, rfl, rfl⟩
  · obtain rfl := clear'.overhang_eq_nil follows follows'
    simp
  · obtain rfl := clear.overhang_eq_nil follows' follows
    simp

/-- No clear text begins like a group. -/
theorem append_ne_opening {rest : List Char} (clear : Clear s) (follows : Follows r) : s ++ r ≠ '(' :: rest := by
  intro same
  cases s with
  | nil =>
    rw [List.nil_append] at same
    rw [same] at follows
    rcases follows.head with blank | closed
    · cases blank
    · cases closed
  | cons c s =>
    obtain ⟨rfl, -⟩ := List.cons.inj same
    exact clear.noOpening List.mem_cons_self

end Clear

/-! ### Where an outline stops -/

namespace Outline

/-- An outline of clear texts, with two parts or more in each group. -/
inductive Proper : Outline → Prop
  | condition {text : String} (clear : Clear text.toList) : Proper (.condition text)
  | joined (k : Connective) {parts : List Outline} (several : 1 < parts.length) (each : ∀ p ∈ parts, Proper p) :
      Proper (.joined k.name parts)

/-- An outline can be told from any other one by what its letters begin with. -/
def Cancels (p : Outline) : Prop :=
  ∀ {q : Outline} {r r' : List Char}, q.Proper → Follows r → Follows r' →
    p.letters ++ r = q.letters ++ r' → p = q ∧ r = r'

/-- What stands after the last part of a row. -/
def Ends (e : List Char) : Prop := e = [] ∨ ∃ rest, e = ')' :: rest

variable {k k' : Connective} {p q : Outline} {ps qs : List Outline} {e e' : List Char}

theorem follows_further (ends : Ends e) : Follows (further k.name ps ++ e) := by
  cases ps with
  | nil =>
    rcases ends with rfl | ⟨rest, rfl⟩
    · exact .nothing
    · exact .closing rest
  | cons p rest =>
    rw [further_cons, List.append_assoc]
    exact .further k _

theorem not_ends_further : ¬ Ends (further k.name (p :: ps) ++ e) := by
  rintro (none | ⟨rest, closed⟩)
  · simp [further_cons, between] at none
  · simp [further_cons, between] at closed

theorem further_cancel (each : ∀ p ∈ ps, p.Cancels) (proper : ∀ q ∈ qs, q.Proper) (ends : Ends e) (ends' : Ends e')
    (same : further k.name ps ++ e = further k'.name qs ++ e') : ps = qs ∧ (ps = [] ∨ k = k') ∧ e = e' := by
  induction ps generalizing qs with
  | nil =>
    cases qs with
    | nil => exact ⟨rfl, .inl rfl, same⟩
    | cons q qs =>
      have ends : Ends (further k.name [] ++ e) := ends
      rw [same] at ends
      exact absurd ends not_ends_further
  | cons p ps ih =>
    cases qs with
    | nil =>
      have ends' : Ends (further k'.name [] ++ e') := ends'
      rw [← same] at ends'
      exact absurd ends' not_ends_further
    | cons q qs =>
      obtain ⟨first, later⟩ := List.forall_mem_cons.mp each
      obtain ⟨proper, properLater⟩ := List.forall_mem_cons.mp proper
      simp only [further_cons, List.append_assoc] at same
      obtain ⟨rfl, parts⟩ := Connective.between_cancel same
      obtain ⟨rfl, others⟩ := first proper (follows_further ends) (follows_further ends') parts
      obtain ⟨rfl, -, rfl⟩ := ih later properLater others
      exact ⟨rfl, .inr rfl, rfl⟩

/-- The letters of a row tell its parts, and their connective if there are several. -/
theorem row_cancel (each : ∀ x ∈ p :: ps, x.Cancels) (proper : ∀ x ∈ q :: qs, x.Proper) (ends : Ends e)
    (ends' : Ends e') (same : row k.name (p :: ps) ++ e = row k'.name (q :: qs) ++ e') :
    p :: ps = q :: qs ∧ (ps = [] ∨ k = k') ∧ e = e' := by
  obtain ⟨first, later⟩ := List.forall_mem_cons.mp each
  obtain ⟨proper, properLater⟩ := List.forall_mem_cons.mp proper
  simp only [row_cons, List.append_assoc] at same
  obtain ⟨rfl, others⟩ := first proper (follows_further ends) (follows_further ends') same
  obtain ⟨rfl, joined, rfl⟩ := further_cancel later properLater ends ends' others
  exact ⟨rfl, joined, rfl⟩

theorem cancels_of_proper (proper : p.Proper) : p.Cancels := by
  induction proper with
  | @condition text clear =>
    intro q r r' other follows follows' same
    cases other with
    | @condition text' clear' =>
      obtain ⟨letters, rest⟩ := clear.cancel clear' follows follows' same
      exact ⟨congrArg condition (String.toList_inj.mp letters), rest⟩
    | joined k several each =>
      rw [letters_joined] at same
      exact absurd same (clear.append_ne_opening follows)
  | @joined k parts several each ih =>
    intro q r r' other follows follows' same
    cases other with
    | condition clear =>
      rw [letters_joined] at same
      exact absurd same.symm (clear.append_ne_opening follows')
    | @joined k' parts' several' each' =>
      rcases parts with _ | ⟨p, _ | ⟨p', ps⟩⟩
      · simp at several
      · simp at several
      rcases parts' with _ | ⟨q, qs⟩
      · simp at several'
      simp only [letters_joined, List.cons_append, List.append_assoc, List.nil_append] at same
      obtain ⟨parts, connective, rest⟩ := row_cancel ih each' (.inr ⟨r, rfl⟩) (.inr ⟨r', rfl⟩) (List.cons.inj same).2
      obtain rfl := connective.resolve_left (List.cons_ne_nil p' ps)
      exact ⟨congrArg (Outline.joined k.name) parts, (List.cons.inj rest).2⟩

/-- Rows that read alike are those of one group. -/
theorem ofParts?_eq_of_row_eq (given : ps ≠ []) (given' : qs ≠ []) (proper : ∀ p ∈ ps, p.Proper)
    (proper' : ∀ q ∈ qs, q.Proper) (same : row k.name ps = row k'.name qs) :
    ofParts? k.name ps = ofParts? k'.name qs := by
  rcases ps with _ | ⟨p, ps⟩
  · exact absurd rfl given
  rcases qs with _ | ⟨q, qs⟩
  · exact absurd rfl given'
  have cancels : ∀ x ∈ p :: ps, x.Cancels := fun x inside => cancels_of_proper (proper x inside)
  obtain ⟨parts, connective, -⟩ := row_cancel cancels proper' (.inl rfl) (.inl rfl) (congrArg (· ++ []) same)
  cases parts
  rcases connective with rfl | rfl <;> rfl

theorem proper_of_ofParts? {parts : List Outline} (each : ∀ p ∈ parts, p.Proper) :
    ∀ p ∈ ofParts? k.name parts, p.Proper := by
  intro p found
  rw [Option.mem_def] at found
  rcases parts with _ | ⟨first, _ | ⟨second, rest⟩⟩
  · cases found
  · cases found
    exact each p List.mem_cons_self
  · cases found
    exact .joined k (by simp) each

end Outline

/-! ### The outline of a tree -/

namespace Group

mutual

/-- What is left of a tree without the subgroups that have no conditions and with single parts in
    the place of their groups. Nothing is left of a tree without conditions. -/
def outline? (labels : Labels) : Group → Option Outline
  | node operator members groups =>
    Outline.ofParts? operator
      ((members.filterMap (Member.describe? labels)).map .condition ++ outlines labels groups)
  | foreign _ => none

/-- What is left of several subgroups. -/
def outlines (labels : Labels) : List Group → List Outline
  | [] => []
  | g :: rest => (outline? labels g).toList ++ outlines labels rest

end

/-- What is left of the parts of a group. -/
def parts (labels : Labels) (cs : List Condition) (groups : List Group) : List Outline :=
  cs.map (fun c => .condition (c.describe labels)) ++ groups.filterMap (outline? labels)

variable {labels : Labels}

theorem outlines_eq_filterMap (groups : List Group) : outlines labels groups = groups.filterMap (outline? labels) := by
  induction groups with
  | nil => rfl
  | cons g rest ih =>
    rw [outlines, ih, List.filterMap_cons]
    cases outline? labels g <;> rfl

theorem outline?_node (operator : String) (cs : List Condition) (groups : List Group) :
    outline? labels (node operator (cs.map .condition) groups) =
      Outline.ofParts? operator (parts labels cs groups) := by
  have own : (cs.map Member.condition).filterMap (Member.describe? labels) = cs.map (·.describe labels) := by
    rw [List.filterMap_map]
    exact congrFun (List.filterMap_eq_map (f := (·.describe labels))) cs
  rw [outline?, outlines_eq_filterMap, own, List.map_map]
  rfl

/-- Nothing is left of a tree exactly if it has no condition at any depth. -/
theorem outline?_eq_none_iff {g : Group} (plain : g.Plain) : g.outline? labels = none ↔ g.conditions = [] := by
  induction plain with
  | @node operator cs groups nested ih =>
    rw [outline?_node, Outline.ofParts?_eq_none_iff, parts, conditions_node, List.append_eq_nil_iff,
      List.append_eq_nil_iff, List.map_eq_nil_iff, List.filterMap_eq_nil_iff, List.flatMap_eq_nil_iff]
    exact and_congr_right fun _ => forall_congr' fun g => forall_congr' fun inside => ih g inside

theorem parts_ne_nil {operator : String} {cs : List Condition} {groups : List Group}
    (plain : (node operator (cs.map .condition) groups).Plain)
    (given : (node operator (cs.map .condition) groups).conditions ≠ []) : parts labels cs groups ≠ [] := by
  intro empty
  have silent : (node operator (cs.map .condition) groups).outline? labels = none := by
    rw [outline?_node, empty, Outline.ofParts?]
  exact given ((outline?_eq_none_iff plain).mp silent)

theorem proper_parts {operator : String} {cs : List Condition} {groups : List Group}
    (clear : ∀ c ∈ (node operator (cs.map .condition) groups).conditions, Clear (c.describe labels).toList)
    (below : ∀ g ∈ groups, (∀ c ∈ g.conditions, Clear (c.describe labels).toList) →
      ∀ p ∈ g.outline? labels, p.Proper) : ∀ p ∈ parts labels cs groups, p.Proper := by
  rw [conditions_node, List.forall_mem_append] at clear
  intro p inside
  rcases List.mem_append.mp inside with member | nested
  · obtain ⟨c, listed, rfl⟩ := List.mem_map.mp member
    exact .condition (clear.1 c listed)
  · obtain ⟨g, subgroup, found⟩ := List.mem_filterMap.mp nested
    apply below g subgroup _ p found
    intro c deeper
    exact clear.2 c (List.mem_flatMap.mpr ⟨g, subgroup, deeper⟩)

theorem proper_of_outline? {g : Group} (wellFormed : g.WellFormed)
    (clear : ∀ c ∈ g.conditions, Clear (c.describe labels).toList) : ∀ p ∈ g.outline? labels, p.Proper := by
  induction wellFormed with
  | @node k cs groups nested ih =>
    rw [outline?_node]
    exact Outline.proper_of_ofParts? (proper_parts clear ih)

/-! ### The words of an outline -/

section

variable {operator : String} {texts : List String} {outlines : List Outline}

theorem toList_joinParts_outer (same : texts.map String.toList = outlines.map Outline.letters) :
    (joinParts operator false texts).toList = Outline.row operator outlines := by
  simp [joinParts, Outline.row, Outline.between, String.toList_intercalate, same]

theorem toList_joinParts_inner (same : texts.map String.toList = outlines.map Outline.letters) :
    (joinParts operator true texts).toList = (Outline.ofParts? operator outlines).elim [] Outline.letters := by
  have outer : (joinParts operator false texts).toList = Outline.row operator outlines := toList_joinParts_outer same
  have length : texts.length = outlines.length := by simpa using congrArg List.length same
  rcases outlines with _ | ⟨p, _ | ⟨q, rest⟩⟩
  · simpa [joinParts, length, Outline.ofParts?, Outline.row] using outer
  · simpa [joinParts, length, Outline.ofParts?, Outline.row] using outer
  · have several : 1 < texts.length := by simp [length]
    simp only [joinParts, Bool.false_and, Bool.false_eq_true, if_false] at outer
    simp [joinParts, several, outer, Outline.ofParts?, Outline.letters_joined]

end

theorem toList_words_subgroups {groups : List Group} (plain : ∀ g ∈ groups, g.Plain)
    (each : ∀ g ∈ groups, (g.words labels true).toList = (g.outline? labels).elim [] Outline.letters) :
    ((groups.map (words labels true)).filter (· != "")).map String.toList =
      (groups.filterMap (outline? labels)).map Outline.letters := by
  induction groups with
  | nil => rfl
  | cons g rest ih =>
    obtain ⟨plain, others⟩ := List.forall_mem_cons.mp plain
    obtain ⟨head, tail⟩ := List.forall_mem_cons.mp each
    have silent : g.words labels true = "" ↔ g.outline? labels = none :=
      (words_eq_empty_iff labels plain true).trans (outline?_eq_none_iff plain).symm
    rw [List.map_cons, List.filter_cons, List.filterMap_cons]
    cases found : g.outline? labels with
    | none => simpa [silent.mpr found] using ih others tail
    | some p =>
      have spoken : g.words labels true ≠ "" := by simp [silent, found]
      rw [found] at head
      simpa [spoken, head] using ih others tail

theorem toList_words_parts {cs : List Condition} {groups : List Group} (plain : ∀ g ∈ groups, g.Plain)
    (each : ∀ g ∈ groups, (g.words labels true).toList = (g.outline? labels).elim [] Outline.letters) :
    (cs.map (·.describe labels) ++ (groups.map (words labels true)).filter (· != "")).map String.toList =
      (parts labels cs groups).map Outline.letters := by
  rw [parts, List.map_append, List.map_append, toList_words_subgroups plain each, List.map_map, List.map_map]
  rfl

theorem toList_words_inner {g : Group} (plain : g.Plain) :
    (g.words labels true).toList = (g.outline? labels).elim [] Outline.letters := by
  induction plain with
  | @node operator cs groups nested ih =>
    rw [words_node, outline?_node]
    exact toList_joinParts_inner (toList_words_parts nested ih)

theorem toList_words_outer {operator : String} {cs : List Condition} {groups : List Group}
    (nested : ∀ g ∈ groups, g.Plain) :
    ((node operator (cs.map .condition) groups).words labels false).toList =
      Outline.row operator (parts labels cs groups) := by
  rw [words_node]
  exact toList_joinParts_outer (toList_words_parts nested fun g inside => toList_words_inner (nested g inside))

/-! ### Filters that read alike -/

/-- The connectives and the operators of a tree are known. -/
structure Known (g : Group) : Prop where
  wellFormed : g.WellFormed
  operators : ∀ c ∈ g.conditions, ∃ op : Operator, c.operator = op.name

theorem describe?_eq_words {g : Group} (plain : g.Plain) (given : g.conditions ≠ []) :
    g.describe? labels = some (g.words labels false) := by
  have spoken : g.words labels false ≠ "" := by
    intro none
    exact given ((words_eq_empty_iff labels plain false).mp none)
  rw [describe?, sentence?_eq_some plain, Option.map_some, if_neg (by simpa using spoken)]

theorem outline?_eq_of_words_eq {g h : Group} (wellFormed : g.WellFormed) (wellFormed' : h.WellFormed)
    (clear : ∀ c ∈ g.conditions, Clear (c.describe labels).toList)
    (clear' : ∀ c ∈ h.conditions, Clear (c.describe labels).toList)
    (given : g.conditions ≠ []) (given' : h.conditions ≠ [])
    (same : g.words labels false = h.words labels false) : g.outline? labels = h.outline? labels := by
  have plain := wellFormed.plain
  have plain' := wellFormed'.plain
  cases wellFormed with
  | @node k cs groups nested =>
    cases wellFormed' with
    | @node k' ds others nested' =>
      have filled : parts labels cs groups ≠ [] := parts_ne_nil plain given
      have filled' : parts labels ds others ≠ [] := parts_ne_nil plain' given'
      have proper : ∀ p ∈ parts labels cs groups, p.Proper :=
        proper_parts clear fun g inside => proper_of_outline? (nested g inside)
      have proper' : ∀ p ∈ parts labels ds others, p.Proper :=
        proper_parts clear' fun g inside => proper_of_outline? (nested' g inside)
      have rows := congrArg String.toList same
      rw [toList_words_outer fun g inside => (nested g inside).plain,
        toList_words_outer fun g inside => (nested' g inside).plain] at rows
      rw [outline?_node, outline?_node]
      exact Outline.ofParts?_eq_of_row_eq filled filled' proper proper' rows

/-- Filters with known connectives and operators have words, and read like a filter without conditions
    exactly if they have none; then nothing is left of their trees. If the texts of their conditions are
    clear, filters that read alike have one outline: when subgroups without conditions are left out and
    single parts put in the place of their groups, their trees are equal. -/
theorem outline?_eq_of_describe?_eq (labels : Labels) :
    (∀ g : Group, g.Known → (∃ text, g.describe? labels = some text) ∧
      (g.describe? labels = some noFilters ↔ g.conditions = []) ∧
      (g.outline? labels = none ↔ g.conditions = [])) ∧
    ∀ g h : Group, g.Known → h.Known → (∀ c ∈ g.conditions ++ h.conditions, Clear (c.describe labels).toList) →
      g.describe? labels = h.describe? labels → g.outline? labels = h.outline? labels := by
  have silent (g : Group) (known : g.Known) : g.describe? labels = some noFilters ↔ g.conditions = [] :=
    describe?_eq_noFilters_iff known.wellFormed.plain known.operators
  constructor
  · intro g known
    refine ⟨?_, silent g known, outline?_eq_none_iff known.wellFormed.plain⟩
    rw [describe?, sentence?_eq_some known.wellFormed.plain]
    exact ⟨_, rfl⟩
  · intro g h known known' clear same
    rw [List.forall_mem_append] at clear
    by_cases none : g.conditions = []
    · have none' : h.conditions = [] := by
        rw [← silent h known', ← same]
        exact (silent g known).mpr none
      rw [(outline?_eq_none_iff known.wellFormed.plain).mpr none,
        (outline?_eq_none_iff known'.wellFormed.plain).mpr none']
    · have given' : h.conditions ≠ [] := by
        rw [Ne, ← silent h known', ← same, silent g known]
        exact none
      rw [describe?_eq_words known.wellFormed.plain none, describe?_eq_words known'.wellFormed.plain given',
        Option.some.injEq] at same
      exact outline?_eq_of_words_eq known.wellFormed known'.wellFormed clear.1 clear.2 none given' same

/-- A subgroup of two conditions. -/
def ownerOrAmount : Group :=
  .node "OR" [.condition ⟨"owner", "is_empty", .null, .null⟩, .condition ⟨"amount", "equals", .int 1, .null⟩] []

/-- The subgroup beside a condition. -/
def shortGroup : Group := .node "AND" [.condition ⟨"stage", "is_empty", .null, .null⟩] [ownerOrAmount]

/-- The same with another group around the subgroup and with groups that have no conditions. -/
def longGroup : Group :=
  .node "AND" [.condition ⟨"stage", "is_empty", .null, .null⟩]
    [.node "OR" [] [.node "AND" [] []], .node "AND" [] [ownerOrAmount, .node "OR" [] []]]

theorem outline?_eq_of_describe?_eq_longGroup :
    let labels := [("owner", "Owner")]
    shortGroup.Known ∧ longGroup.Known ∧
      (∀ c ∈ shortGroup.conditions ++ longGroup.conditions, Clear (c.describe labels).toList) ∧
      longGroup.describe? labels = some "stage is empty AND (Owner is empty OR amount equals \"1\")" ∧
      shortGroup.describe? labels = longGroup.describe? labels ∧
      shortGroup.outline? labels = longGroup.outline? labels := by
  intro labels
  have inner : ownerOrAmount.WellFormed :=
    .node .any [⟨"owner", "is_empty", .null, .null⟩, ⟨"amount", "equals", .int 1, .null⟩] nofun
  have empty (k : Connective) : WellFormed (.node k.name [] []) := .node k [] nofun
  have operators : ∀ c ∈ shortGroup.conditions, ∃ op : Operator, c.operator = op.name := by
    intro c inside
    simp [shortGroup, ownerOrAmount, conditions, conditionsOfAll] at inside
    rcases inside with rfl | rfl | rfl
    · exact ⟨.isEmpty, rfl⟩
    · exact ⟨.isEmpty, rfl⟩
    · exact ⟨.equals, rfl⟩
  have short : shortGroup.Known := by
    refine ⟨.node .all [⟨"stage", "is_empty", .null, .null⟩] ?_, operators⟩
    exact List.forall_mem_singleton.mpr inner
  have long : longGroup.Known := by
    refine ⟨.node .all [⟨"stage", "is_empty", .null, .null⟩] ?_, operators⟩
    refine List.forall_mem_cons.mpr ⟨.node .any [] ?_, List.forall_mem_singleton.mpr (.node .all [] ?_)⟩
    · exact List.forall_mem_singleton.mpr (empty .all)
    · exact List.forall_mem_cons.mpr ⟨inner, List.forall_mem_singleton.mpr (empty .any)⟩
  have clear : ∀ c ∈ shortGroup.conditions ++ longGroup.conditions, Clear (c.describe labels).toList := by decide
  have same : shortGroup.describe? labels = longGroup.describe? labels := rfl
  exact ⟨short, long, clear, by decide, same, (outline?_eq_of_describe?_eq labels).2 _ _ short long clear same⟩

end Group

end Criteria
