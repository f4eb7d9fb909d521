import Criteria.Proofs.Parsed

/-!
Requests that are written and read again. What a request was read from describes it, and
so does its wire form (`Json.describesRequest_toJson`), unless it asks for a page without
a limit: the limit is then written as zero, which is no count. So a request that was taken
is taken again for itself, or refused for that limit alone (`Request.parse_toJson`).
-/
namespace Criteria

namespace Json

/-! ### Conditions and groups -/

theorem Operands.null_or_array {v : Option Json} {operands : Json} (given : Operands v operands) :
    operands = .null ∨ ∃ items, operands = .arr items := by
  cases given with
  | absent => exact .inl rfl
  | present items => exact .inr ⟨items, rfl⟩

/-- The wire form of a condition that was read describes the condition. -/
theorem describesCondition_toJson {x : Json} {c : Condition} (described : x.DescribesCondition c) :
    c.toJson.DescribesCondition c := by
  cases x with
  | obj entries =>
    obtain ⟨-, -, notEmpty, ⟨op, named, -⟩, -, values⟩ := described
    obtain ⟨field, operator, value, operands⟩ := c
    simp only at notEmpty named values
    subst named
    rcases values.null_or_array with rfl | ⟨items, rfl⟩
    · refine ⟨?_, rfl, notEmpty, ⟨op, rfl, rfl⟩, rfl, .absent⟩
      unfold OnlyNamed
      simp [isNull]
    · refine ⟨?_, rfl, notEmpty, ⟨op, rfl, rfl⟩, rfl, .present items⟩
      unfold OnlyNamed
      simp [isNull]
  | _ => exact described.elim

/-- A list that is written out is an array of what its items are written as. -/
theorem lists_map {α : Type} {R S : Json → α → Prop} {v : Option Json} {found : List α} {write : α → Json}
    (lists : Lists R v found) (each : ∀ x a, R x a → S (write a) a) : Lists S (some (arr (found.map write))) found := by
  refine .present (List.forall₂_map_left_iff.mpr ?_)
  cases lists with
  | absent => exact .nil
  | present related =>
    have written := forall_mem_of_forall₂ related.flip (P := fun a => S (write a) a) fun a x r => each x a r
    exact List.forall₂_same.mpr written

end Json

theorem Group.toJsons_eq_map (groups : List Group) : toJsons groups = groups.map toJson := by
  induction groups with
  | nil => rfl
  | cons g rest ih => rw [toJsons, ih, List.map_cons]

namespace Json

/-- The wire form of a group that was read describes the group, on as many levels. -/
theorem describesGroup_toJson {n : Nat} {x : Json} {g : Group} (described : DescribesGroup n x g) :
    DescribesGroup n g.toJson g := by
  induction n generalizing x g with
  | zero => exact described.elim
  | succ n ih =>
    cases x with
    | obj entries =>
      cases described with
      | @node k conditions groups _ _ tests inner =>
        have members : (conditions.map Member.condition).map Member.toJson = conditions.map Condition.toJson := by
          rw [List.map_map]
          rfl
        rw [Group.toJson, Group.toJsons_eq_map, members]
        refine .node ?_ rfl (lists_map tests fun _ _ => describesCondition_toJson) (lists_map inner fun _ _ => ih)
        unfold OnlyNamed
        simp
    | _ => exact described.elim

/-! ### Sort keys and pages -/

theorem Ordered.self {v : Option Json} {direction : String} (ordered : Ordered v direction) :
    Ordered (some (str direction)) direction := by
  cases ordered with
  | absent => exact .present .ascending
  | present d => exact .present d

theorem describesSort_toJson {v : Option Json} {s : SortKey} (described : Optionally (AsObject SortEntries) v (some s)) :
    AsObject SortEntries s.toJson s := by
  cases described with
  | @present x _ described =>
    cases x with
    | obj entries =>
      obtain ⟨-, -, notEmpty, ordered⟩ := described
      refine ⟨?_, rfl, notEmpty, ordered.self⟩
      unfold OnlyNamed
      simp
    | _ => exact described.elim

theorem Count.eq_or_le {default n : Int} {v : Option Json} (count : Count default v n) : n = default ∨ 1 ≤ n := by
  cases count with
  | absent => exact .inl rfl
  | present _ positive => exact .inr positive

/-- The number of a page that was read is a count, and so is its limit unless it is absent. -/
theorem Paging.bounds {v : Option Json} {p : PageRequest} (paging : Paging v (some p)) :
    1 ≤ p.number ∧ (p.limit = 0 ∨ 1 ≤ p.limit) := by
  cases paging with
  | optional described =>
    cases described with
    | @present x _ described =>
      cases x with
      | obj entries =>
        obtain ⟨-, -, number, limit⟩ := described
        have := number.eq_or_le
        exact ⟨by omega, limit.eq_or_le⟩
      | _ => exact described.elim

theorem describesPage_toJson {p : PageRequest} (number : 1 ≤ p.number) (limit : 1 ≤ p.limit) :
    AsObject PageEntries p.toJson p := by
  refine ⟨?_, List.cons_ne_nil _ _, .present rfl number, .present rfl limit⟩
  unfold OnlyNamed
  simp

end Json

/-! ### Requests -/

namespace Request

/-- The entries of the wire form of a request. -/
theorem toJson_eq (r : Request) : ∃ entries, r.toJson = .obj entries ∧
    Json.OnlyNamed ["entity", "filters", "search", "sort", "pagination"] entries ∧
    entries.lookup "entity" = some (.str r.entity) ∧ entries.lookup "filters" = some r.filters.toJson ∧
    entries.lookup "search" = (if r.search.isNull then none else some r.search) ∧
    entries.lookup "sort" = r.sort.map SortKey.toJson ∧
    entries.lookup "pagination" = r.pagination.map PageRequest.toJson := by
  refine ⟨_, rfl, ?_⟩
  unfold Json.OnlyNamed
  by_cases null : r.search.isNull = true
  · cases r.sort <;> cases r.pagination <;> simp [null, List.lookup_cons]
  · cases r.sort <;> cases r.pagination <;> simp [null, List.lookup_cons]

end Request

namespace Json

theorem Term.self {v : Option Json} {term : Json} (given : Term v term) :
    Term (if term.isNull then none else some term) term := by
  cases given with
  | absent | null => exact .absent
  | present s => exact .present s

/-- The wire form of a request that was read describes it but for its page, which is written as it is. -/
theorem exists_entries_toJson {x : Json} {r : Request} (described : x.DescribesRequest r) :
    ∃ entries, r.toJson = .obj entries ∧ OnlyNamed ["entity", "filters", "search", "sort", "pagination"] entries ∧
      entries.lookup "entity" = some (.str r.entity) ∧ r.entity ≠ "" ∧
      entries.lookup "filters" = some r.filters.toJson ∧ DescribesGroup 10 r.filters.toJson r.filters ∧
      Term (entries.lookup "search") r.search ∧ Optionally (AsObject SortEntries) (entries.lookup "sort") r.sort ∧
      entries.lookup "pagination" = r.pagination.map PageRequest.toJson := by
  cases x with
  | obj read =>
    obtain ⟨-, -, notEmpty, ⟨filters, -, group⟩, term, key, -⟩ := described
    obtain ⟨entries, same, named, isEntity, isFilters, isSearch, isSort, isPage⟩ := r.toJson_eq
    refine ⟨entries, same, named, isEntity, notEmpty, isFilters, describesGroup_toJson group, ?_, ?_, isPage⟩
    · rw [isSearch]
      exact term.self
    · rw [isSort]
      cases given : r.sort with
      | none => exact .absent
      | some s =>
        rw [given] at key
        exact .present (describesSort_toJson key)
  | _ => exact described.elim

theorem DescribesRequest.pageBounds {x : Json} {r : Request} {p : PageRequest} (described : x.DescribesRequest r)
    (page : r.pagination = some p) : 1 ≤ p.number ∧ (p.limit = 0 ∨ 1 ≤ p.limit) := by
  cases x with
  | obj entries =>
    obtain ⟨-, -, -, -, -, -, paging⟩ := described
    rw [page] at paging
    exact paging.bounds
  | _ => exact described.elim

/-- The wire form of a request that was read describes the request, if a page has a limit. -/
theorem describesRequest_toJson {x : Json} {r : Request} (described : x.DescribesRequest r)
    (limited : ∀ p ∈ r.pagination, p.limit ≠ 0) : r.toJson.DescribesRequest r := by
  obtain ⟨entries, same, named, isEntity, notEmpty, isFilters, group, term, key, isPage⟩ :=
    exists_entries_toJson described
  rw [same]
  refine ⟨named, isEntity, notEmpty, ⟨_, isFilters, group⟩, term, key, ?_⟩
  rw [isPage]
  cases given : r.pagination with
  | none => exact .optional .absent
  | some p =>
    obtain ⟨number, limit⟩ := described.pageBounds given
    exact .optional (.present (describesPage_toJson number (limit.resolve_left (limited p given))))

end Json

/-! ### Pages without a limit -/

namespace Schema

theorem problems_of_conforms {s : Shape} {x : Json} (conforms : Conforms s x) (path : Path) :
    problems x s path = [] :=
  (problems_eq_nil_iff x s path).mpr (conforms_iff.mp conforms)

theorem problemsOfEntry_of_conforms {v : Option Json} {s : Shape} (conforms : ∀ x, v = some x → Conforms s x)
    (path : Path) : (v.map fun x => problems x s path).getD [] = [] := by
  cases v with
  | none => rfl
  | some x => exact problems_of_conforms (conforms x rfl) path

/-- The problems of the entries of an object, shape by shape. -/
theorem entriesProblems_eq (x : Json) (s : Shape) (path : Path) (shapes : List (String × Shape)) :
    keywordProblems x (checksOfEntries x) (checksOfItems x) s path (.entries shapes) =
      shapes.flatMap fun e => ((x.get? e.1).map fun y => problems y e.2 (path ++ [.entry e.1])).getD [] := by
  rw [keywordProblems]
  refine List.flatMap_congr fun e _ => ?_
  simp only [lookup_checksOfEntries]
  cases x.get? e.1 <;> rfl

/-- A page without a limit is written with one below the least count. -/
theorem problems_pageWithoutLimit {p : PageRequest} (number : 1 ≤ p.number) (unlimited : p.limit = 0) (path : Path) :
    problems p.toJson .pagination path = [⟨path ++ [.entry "limit"], .below (.int 0) 1⟩] := by
  have page : Conforms .count (.int p.number) := conforms_count_iff.mpr ⟨_, rfl, number⟩
  have limit : problems (.int 0) .count (path ++ [.entry "limit"]) =
      [⟨path ++ [.entry "limit"], .below (.int 0) 1⟩] := rfl
  have isObject : keywordProblems p.toJson (checksOfEntries p.toJson) (checksOfItems p.toJson) .pagination path
      (.kinds [.object, .null]) = [] := rfl
  have closed : keywordProblems p.toJson (checksOfEntries p.toJson) (checksOfItems p.toJson) .pagination path
      .closed = [] := rfl
  have found : p.toJson.get? "page" = some (.int p.number) := rfl
  have found' : p.toJson.get? "limit" = some (.int 0) := unlimited ▸ rfl
  rw [problems_eq_flatMap, Shape.keywords]
  simp only [List.flatMap_cons, List.flatMap_nil, isObject, closed, entriesProblems_eq, found, found', Option.map_some,
    Option.getD_some, problems_of_conforms page, limit, List.nil_append, List.append_nil]

/-- The wire form of a request for a page without a limit has that problem and no other. -/
theorem problems_toJson {x : Json} {r : Request} {p : PageRequest} (described : x.DescribesRequest r)
    (page : r.pagination = some p) (unlimited : p.limit = 0) :
    problems r.toJson .request [] = [⟨[.entry "pagination", .entry "limit"], .below (.int 0) 1⟩] := by
  have number := (described.pageBounds page).1
  obtain ⟨entries, same, named, isEntity, notEmpty, isFilters, group, term, key, isPage⟩ :=
    Json.exists_entries_toJson described
  rw [page] at isPage
  -- Everything but the page conforms to its shape, so that the page is all that is left of the list.
  have entity : Conforms .name (.str r.entity) := conforms_name_iff.mpr ⟨_, notEmpty, rfl⟩
  have tree : Conforms .group r.filters.toJson := (Json.of_describesGroup group).2.1
  have search : ∀ path, ((entries.lookup "search").map fun y => problems y .optionalText path).getD [] = [] := by
    refine problemsOfEntry_of_conforms fun y found => ?_
    rw [found] at term
    exact term.conforms
  have sort : ∀ path, ((entries.lookup "sort").map fun y => problems y .sort path).getD [] = [] :=
    problemsOfEntry_of_conforms (Json.of_describesSort key).1
  have closed := (closedProblems_eq_nil_iff (.obj entries) .request []).mpr fun _ written => by
    cases written
    exact named
  have complete : keywordProblems (.obj entries) (checksOfEntries (.obj entries)) (checksOfItems (.obj entries))
      .request [] (.required ["entity", "filters"]) = [] := by
    simp [keywordProblems, lookup_checksOfEntries, Json.get?, isEntity, isFilters]
  have isObject : keywordProblems (.obj entries) (checksOfEntries (.obj entries)) (checksOfItems (.obj entries))
      .request [] (.kinds [.object]) = [] := rfl
  rw [same, problems_eq_flatMap, Shape.keywords]
  simp only [List.flatMap_cons, List.flatMap_nil, isObject, closed, complete, entriesProblems_eq, Json.get?, isEntity,
    isFilters, isPage, search, sort, Option.map_some, Option.getD_some, problems_of_conforms entity,
    problems_of_conforms tree, problems_pageWithoutLimit number unlimited, List.nil_append, List.append_nil]
  rfl

end Schema

/-! ### Requests that are read again -/

namespace Request

theorem parse_eq_bind (checked : Bool) (payload : Payload) :
    parse checked payload = payload.load >>= fun x => parse checked (.value x) := rfl

/-- Whatever was sent, a request is taken from it if it holds a value that describes the request. -/
theorem parse_eq_ok_iff {payload : Payload} {r : Request} :
    parse true payload = .ok r ↔ ∃ x, payload.load = .ok x ∧ x.DescribesRequest r := by
  rw [parse_eq_bind, bind_eq_ok_iff]
  simp only [parse_value_eq_ok_iff]

/-- The wire form of a request for a page without a limit is refused for the limit. -/
theorem parse_toJson_of_limit_eq_zero {x : Json} {r : Request} {p : PageRequest} (described : x.DescribesRequest r)
    (page : r.pagination = some p) (unlimited : p.limit = 0) :
    parse true (.value r.toJson) = .error (.shape .request
      [⟨[.entry "pagination", .entry "limit"], .below (.int 0) 1⟩]) := by
  have shallow : Subject.request.levels r.toJson ≤ 10 := by
    obtain ⟨entries, same, -, -, -, isFilters, group, -⟩ := Json.exists_entries_toJson described
    rw [same, Subject.levels, Json.getOrNull, isFilters]
    exact (Json.of_describesGroup group).1
  have notDeep : isTooDeep defaultDepth .request r.toJson = false := by
    rw [isTooDeep, decide_eq_false_iff_not, defaultDepth]
    omega
  have problems : Schema.report Subject.request.shape r.toJson =
      [⟨[.entry "pagination", .entry "limit"], .below (.int 0) 1⟩] := by
    rw [Schema.report, Subject.shape, Schema.problems_toJson described page unlimited]
    rfl
  have refused : Subject.request.admit true r.toJson = .error (.shape .request
      [⟨[.entry "pagination", .entry "limit"], .below (.int 0) 1⟩]) := by
    unfold Subject.admit
    rw [notDeep, problems]
    rfl
  rw [parse_value, refused]
  rfl

/-- The wire form of a request that was taken is taken for that request, unless the request
    is for a page without a limit; it is then refused, for the limit alone. -/
theorem parse_toJson {payload : Payload} {r : Request} (taken : parse true payload = .ok r) :
    ((∀ p ∈ r.pagination, p.limit ≠ 0) → parse true (.value r.toJson) = .ok r) ∧
      ((∃ p ∈ r.pagination, p.limit = 0) → ∃ fault, parse true (.value r.toJson) = .error fault ∧
        fault.rejection? = some ⟨"Malformed filter query",
          ["$.pagination.limit: 0 is less than the minimum of 1"]⟩) := by
  obtain ⟨x, -, described⟩ := parse_eq_ok_iff.mp taken
  refine ⟨fun limited => ?_, ?_⟩
  · exact parse_value_eq_ok_iff.mpr (Json.describesRequest_toJson described limited)
  · rintro ⟨p, page, unlimited⟩
    exact ⟨_, parse_toJson_of_limit_eq_zero described page unlimited, rfl⟩

/-- A request for a page of all deals. -/
def allDealsOnPage (page : List (String × Json)) : Json :=
  .obj [("entity", .str "deals"), ("filters", .obj [("operator", .str "AND")]), ("pagination", .obj page)]

/-- A page of fifty is asked for again by its wire form, which says that it is the first. -/
theorem parse_toJson_firstFifty :
    parse true (.value (allDealsOnPage [("limit", .int 50)])) = .ok ⟨"deals", .empty, .null, none, some ⟨1, 50⟩⟩ ∧
      parse true (.value (toJson ⟨"deals", .empty, .null, none, some ⟨1, 50⟩⟩)) =
        .ok ⟨"deals", .empty, .null, none, some ⟨1, 50⟩⟩ := by
  have taken : parse true (.value (allDealsOnPage [("limit", .int 50)])) =
      .ok ⟨"deals", .empty, .null, none, some ⟨1, 50⟩⟩ := rfl
  obtain ⟨again, -⟩ := parse_toJson taken
  refine ⟨taken, again ?_⟩
  rintro p ⟨rfl⟩
  decide

/-- The second page, without a limit, is asked for; by its wire form it is not. -/
theorem parse_toJson_fails_without_limit :
    ∃ r, parse true (.value (allDealsOnPage [("page", .int 2)])) = .ok r ∧ parse true (.value r.toJson) ≠ .ok r :=
  ⟨⟨"deals", .empty, .null, none, some ⟨2, 0⟩⟩, rfl, nofun⟩

end Request

end Criteria
