import Mathlib.Data.List.Forall2

/-!
Outcomes of steps that may fail. A chain of steps has an outcome if each step has
one, and fails with the fault of its first step that fails (`bind_eq_ok_iff`,
`bind_eq_error_iff`); a step taken for each item of a list is related to the items
one by one (`mapM_eq_ok_iff`, `exists_of_mapM_eq_error`). So the fault of such a step is
the first one that an item has (`faultOf?_mapM`, `mapM_eq_error_iff`).
-/
namespace Criteria

variable {ε α β γ : Type}

theorem pure_eq_ok_iff {a b : α} : (pure a : Except ε α) = .ok b ↔ a = b := by
  simp [pure, Except.pure]

theorem pure_ne_error {a : α} {e : ε} : ¬ (pure a : Except ε α) = .error e := by
  simp [pure, Except.pure]

theorem bind_eq_ok_iff {x : Except ε α} {f : α → Except ε β} {b : β} :
    x >>= f = .ok b ↔ ∃ a, x = .ok a ∧ f a = .ok b := by
  cases x with
  | error e => simp [bind, Except.bind]
  | ok a => simp [bind, Except.bind]

theorem bind_eq_error_iff {x : Except ε α} {f : α → Except ε β} {e : ε} :
    x >>= f = .error e ↔ x = .error e ∨ ∃ a, x = .ok a ∧ f a = .error e := by
  cases x with
  | error e => simp [bind, Except.bind]
  | ok a => simp [bind, Except.bind]

theorem exists_bind_eq_ok_iff {x : Except ε α} {f : α → Except ε β} :
    (∃ b, x >>= f = .ok b) ↔ ∃ a, x = .ok a ∧ ∃ b, f a = .ok b := by
  simp only [bind_eq_ok_iff]
  constructor
  · rintro ⟨b, a, first, second⟩
    exact ⟨a, first, b, second⟩
  · rintro ⟨a, first, b, second⟩
    exact ⟨b, a, first, second⟩

theorem exists_pure_eq_ok {a : α} : ∃ b, (pure a : Except ε α) = .ok b := ⟨a, rfl⟩

theorem mapError_eq_ok_iff {x : Except ε α} {f : ε → β} {a : α} : x.mapError f = .ok a ↔ x = .ok a := by
  cases x with
  | error e => simp [Except.mapError]
  | ok b => simp [Except.mapError]

theorem mapError_eq_error_iff {x : Except ε α} {f : ε → β} {e : β} :
    x.mapError f = .error e ↔ ∃ fault, x = .error fault ∧ f fault = e := by
  cases x with
  | error fault => simp [Except.mapError]
  | ok b => simp [Except.mapError]

/-- A step has an outcome for each item of a list if the outcomes stand in the
    place of their items. -/
theorem mapM_eq_ok_iff {f : α → Except ε β} {xs : List α} {ys : List β} :
    xs.mapM f = .ok ys ↔ List.Forall₂ (fun x y => f x = .ok y) xs ys := by
  induction xs generalizing ys with
  | nil =>
    rw [List.mapM_nil, pure_eq_ok_iff, List.forall₂_nil_left_iff, eq_comm]
  | cons x rest ih =>
    simp only [List.mapM_cons, bind_eq_ok_iff, pure_eq_ok_iff, List.forall₂_cons_left_iff, ← ih]
    constructor
    · rintro ⟨y, head, others, tail, rfl⟩
      exact ⟨y, others, head, tail, rfl⟩
    · rintro ⟨y, others, head, tail, rfl⟩
      exact ⟨y, head, others, tail, rfl⟩

/-- The fault of a step that is taken for each item of a list is its fault for
    some item. -/
theorem exists_of_mapM_eq_error {f : α → Except ε β} {xs : List α} {e : ε} (failed : xs.mapM f = .error e) :
    ∃ x ∈ xs, f x = .error e := by
  induction xs with
  | nil => exact absurd failed pure_ne_error
  | cons x rest ih =>
    rw [List.mapM_cons, bind_eq_error_iff] at failed
    rcases failed with first | ⟨y, -, later⟩
    · exact ⟨x, List.mem_cons_self, first⟩
    · rcases bind_eq_error_iff.mp later with tail | ⟨others, -, impossible⟩
      · obtain ⟨z, inside, fails⟩ := ih tail
        exact ⟨z, List.mem_cons_of_mem x inside, fails⟩
      · exact absurd impossible pure_ne_error

/-- What is read off two lists is the same if it is the same for related items. -/
theorem map_eq_of_forall₂ {R : α → β → Prop} {f : α → γ} {g : β → γ} {xs : List α} {ys : List β}
    (related : List.Forall₂ R xs ys) (same : ∀ x y, R x y → f x = g y) : xs.map f = ys.map g := by
  have equal : List.Forall₂ (· = ·) (xs.map f) (ys.map g) :=
    List.forall₂_map_left_iff.mpr (List.forall₂_map_right_iff.mpr (related.imp same))
  rwa [List.forall₂_eq_eq_eq] at equal

/-- What the relation of two lists says of the items of the first holds of each of them. -/
theorem forall_mem_of_forall₂ {R : α → β → Prop} {P : α → Prop} {xs : List α} {ys : List β}
    (related : List.Forall₂ R xs ys) (implies : ∀ x y, R x y → P x) : ∀ x ∈ xs, P x :=
  ((List.forall₂_and_left xs ys).mp (related.imp fun x y r => ⟨implies x y r, r⟩)).1

theorem exists_mem_of_forall₂ {R : α → β → Prop} {xs : List α} {ys : List β} (related : List.Forall₂ R xs ys) :
    ∀ x ∈ xs, ∃ y ∈ ys, R x y := by
  induction related with
  | nil => exact nofun
  | @cons x y xs ys head tail ih =>
    refine List.forall_mem_cons.mpr ⟨⟨y, List.mem_cons_self, head⟩, fun z inside => ?_⟩
    obtain ⟨w, listed, related⟩ := ih z inside
    exact ⟨w, List.mem_cons_of_mem y listed, related⟩

/-- Items whose images are distinct are distinct themselves. -/
theorem nodup_of_forall₂ {R : α → β → Prop} {xs : List α} {ys : List β} (related : List.Forall₂ R xs ys)
    (functional : ∀ x y y', R x y → R x y' → y = y') (distinct : ys.Nodup) : xs.Nodup := by
  induction related with
  | nil => exact .nil
  | @cons x y xs ys head tail ih =>
    obtain ⟨new, later⟩ := List.nodup_cons.mp distinct
    refine List.nodup_cons.mpr ⟨fun inside => ?_, ih later⟩
    obtain ⟨y', listed, again⟩ := exists_mem_of_forall₂ tail x inside
    exact new (functional x y y' head again ▸ listed)

theorem exists_forall₂ {R : α → β → Prop} {xs : List α} (each : ∀ x ∈ xs, ∃ y, R x y) :
    ∃ ys, List.Forall₂ R xs ys := by
  induction xs with
  | nil => exact ⟨[], .nil⟩
  | cons x rest ih =>
    obtain ⟨⟨y, head⟩, others⟩ := List.forall_mem_cons.mp each
    obtain ⟨ys, tail⟩ := ih others
    exact ⟨y :: ys, .cons head tail⟩

/-- The fault of an outcome, if it is one. -/
def faultOf? : Except ε α → Option ε
  | .ok _ => none
  | .error e => some e

theorem faultOf?_eq_some_iff {x : Except ε α} {e : ε} : faultOf? x = some e ↔ x = .error e := by
  cases x with
  | error e' => simp [faultOf?]
  | ok a => simp [faultOf?]

theorem faultOf?_eq_none_iff {x : Except ε α} : faultOf? x = none ↔ ∃ a, x = .ok a := by
  cases x with
  | error e => simp [faultOf?]
  | ok a => simp [faultOf?]

/-- The fault of a chain is that of its first step, or else that of the rest of it. -/
theorem faultOf?_bind {x : Except ε α} {f : α → Except ε β} {fault : Option ε}
    (rest : ∀ a, faultOf? (f a) = fault) : faultOf? (x >>= f) = (faultOf? x).or fault := by
  cases x with
  | error e => rfl
  | ok a => exact rest a

theorem faultOf?_mapM {f : α → Except ε β} {xs : List α} :
    faultOf? (xs.mapM f) = xs.findSome? fun x => faultOf? (f x) := by
  induction xs with
  | nil => rfl
  | cons x rest ih =>
    have later : ∀ y, faultOf? (do return y :: (← rest.mapM f)) = rest.findSome? fun x => faultOf? (f x) := by
      intro y
      have made : ∀ ys, faultOf? (pure (y :: ys) : Except ε (List β)) = none := fun _ => rfl
      rw [faultOf?_bind made, ih, Option.or_none]
    rw [List.mapM_cons, faultOf?_bind later, List.findSome?_cons]
    cases faultOf? (f x) <;> rfl

/-- A step that is taken for each item of a list fails as it does for the first item for
    which it fails. -/
theorem mapM_eq_error_iff {f : α → Except ε β} {xs : List α} {e : ε} : xs.mapM f = .error e ↔
    ∃ before x after, xs = before ++ x :: after ∧ f x = .error e ∧ ∀ y ∈ before, ∃ b, f y = .ok b := by
  simp only [← faultOf?_eq_some_iff, ← faultOf?_eq_none_iff, faultOf?_mapM, List.findSome?_eq_some_iff]

/-- A step that is taken for each item of a list has the outcome of another one that has
    the same outcome for each of them. -/
theorem mapM_congr {f g : α → Except ε β} {xs : List α} (same : ∀ x ∈ xs, f x = g x) : xs.mapM f = xs.mapM g := by
  induction xs with
  | nil => rfl
  | cons x rest ih =>
    obtain ⟨head, tail⟩ := List.forall_mem_cons.mp same
    rw [List.mapM_cons, List.mapM_cons, head, ih tail]

theorem exists_error_iff {x : Except ε α} : (∃ e, x = .error e) ↔ ¬ ∃ a, x = .ok a := by
  cases x with
  | error e => simp
  | ok a => simp

end Criteria
