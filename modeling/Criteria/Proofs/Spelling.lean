import Criteria.Calendar.Window
import Criteria.Json.Text
import Mathlib.Data.List.Basic

/-!
The letters of values in running text. Numbers are spelled with digits, signs, points and
the letters of `e`, `inf` and `nan` (`Binary64.numeral_text`), so no value but a text reads
like the name of a window (`Json.eq_str_of_display_eq_name`).
-/
namespace Criteria

/-- Whether a letter can stand in the text of a number. -/
def isNumeral (c : Char) : Bool := c.isDigit || "+-.aefin".toList.contains c

theorem isNumeral_of_isDigit {c : Char} (digit : c.isDigit = true) : isNumeral c = true := by
  rw [isNumeral, digit, Bool.true_or]

theorem isNumeral_of_mem_toDigits {n : Nat} {c : Char} (inside : c ∈ Nat.toDigits 10 n) : isNumeral c = true :=
  isNumeral_of_isDigit (Nat.isDigit_of_mem_toDigits (by omega) (Nat.le_refl 10) inside)

/-- The letters of a text can stand in the text of a number. -/
def Numeral (s : String) : Prop := ∀ c ∈ s.toList, isNumeral c = true

instance : DecidablePred Numeral := fun s => List.decidableBAll (isNumeral · = true) s.toList

theorem Numeral.append {s t : String} (first : Numeral s) (second : Numeral t) : Numeral (s ++ t) := by
  intro c inside
  rw [String.toList_append, List.mem_append] at inside
  exact inside.elim (first c) (second c)

theorem Numeral.ofList {cs : List Char} (each : ∀ c ∈ cs, isNumeral c = true) : Numeral (String.ofList cs) := by
  intro c inside
  rw [String.toList_ofList] at inside
  exact each c inside

namespace Binary64

theorem numeral_minus (negative : Bool) : Numeral (minus negative) := by
  cases negative <;> decide

theorem isNumeral_of_mem_withoutTrailingZeros {ds : List Char} (digits : ∀ c ∈ ds, isNumeral c = true) :
    ∀ c ∈ withoutTrailingZeros ds, isNumeral c = true := by
  intro c inside
  rw [withoutTrailingZeros, List.mem_reverse] at inside
  exact digits c (List.mem_reverse.mp ((List.dropWhile_sublist _).mem inside))

theorem numeral_exponentText (e : Int) : Numeral (exponentText e) := by
  have sign : Numeral (if e < 0 then "-" else "+") := by
    split <;> decide
  refine Numeral.append (Numeral.append (by decide) sign) (.ofList fun c inside => ?_)
  split at inside
  · rcases List.mem_cons.mp inside with rfl | later
    · rfl
    · exact isNumeral_of_mem_toDigits later
  · exact isNumeral_of_mem_toDigits inside

theorem isNumeral_of_mem_replicate {n : Nat} : ∀ c ∈ List.replicate n '0', isNumeral c = true := by
  intro c inside
  rw [List.eq_of_mem_replicate inside]
  rfl

theorem numeral_positional {ds : List Char} (digits : ∀ c ∈ ds, isNumeral c = true) (point : Int) :
    Numeral (positional ds point) := by
  unfold positional
  split
  · refine Numeral.append (by decide) (.ofList (List.forall_mem_append.mpr ⟨isNumeral_of_mem_replicate, digits⟩))
  · refine Numeral.append (Numeral.append (.ofList (List.forall_mem_append.mpr ⟨?_, isNumeral_of_mem_replicate⟩))
      (by decide)) (.ofList ?_)
    · exact fun c inside => digits c (List.mem_of_mem_take inside)
    · split
      · exact List.forall_mem_singleton.mpr rfl
      · exact fun c inside => digits c (List.mem_of_mem_drop inside)

theorem numeral_scientific {ds : List Char} (digits : ∀ c ∈ ds, isNumeral c = true) (e : Int) :
    Numeral (scientific ds e) := by
  refine Numeral.append (Numeral.append (.ofList fun c inside => digits c (List.mem_of_mem_take inside)) ?_)
    (numeral_exponentText e)
  split
  · decide
  · exact Numeral.append (by decide) (.ofList fun c inside => digits c (List.mem_of_mem_drop inside))

/-- The text of a positive number whose decimal is found by `decimal`. -/
def textBy (decimal : Nat → Int → Nat × Int) (m : Nat) (q : Int) : String :=
  let (digits, step) := decimal m q
  let all := Nat.toDigits 10 digits
  let point := all.length + step
  let ds := withoutTrailingZeros all
  if -4 < point && point ≤ 16 then positional ds point else scientific ds (point - 1)

-- Unfolded at its arguments the text would make the kernel look for a decimal; as a function it does not.
theorem magnitudeText_eq_textBy : magnitudeText = textBy shortest := rfl

theorem numeral_textBy (decimal : Nat → Int → Nat × Int) (m : Nat) (q : Int) : Numeral (textBy decimal m q) := by
  have digits := isNumeral_of_mem_withoutTrailingZeros
    fun c (inside : c ∈ Nat.toDigits 10 (decimal m q).1) => isNumeral_of_mem_toDigits inside
  unfold textBy
  simp only
  split
  · exact numeral_positional digits _
  · exact numeral_scientific digits _

/-- The text of a number is spelled with letters of numbers. -/
theorem numeral_text (x : Binary64) : Numeral x.text := by
  unfold text
  split
  · decide
  · exact Numeral.append (numeral_minus _) (by decide)
  · refine Numeral.append (numeral_minus _) ?_
    split
    · decide
    · rw [magnitudeText_eq_textBy]
      exact numeral_textBy shortest _ _

end Binary64

/-! ### Names of windows -/

open Calendar (RelativeWindow)

/-- The name of a window has a letter that no number has. -/
theorem Calendar.RelativeWindow.exists_not_isNumeral (w : RelativeWindow) :
    ∃ c ∈ w.name.toList, isNumeral c = false := by
  have letter : 't' ∈ w.name.toList := by cases w <;> decide
  exact ⟨'t', letter, rfl⟩

theorem numeral_toString (n : Int) : Numeral (toString n) := by
  have natural (n : Nat) : Numeral n.repr := by
    intro c inside
    rw [Nat.toList_repr] at inside
    exact isNumeral_of_mem_toDigits inside
  cases n with
  | ofNat n => exact natural n
  | negSucc n => exact Numeral.append (by decide) (natural (n + 1))

/-- Only a text reads like the name of a window. -/
theorem Json.eq_str_of_display_eq_name {x : Json} {w : RelativeWindow} (same : x.display = w.name) :
    x = .str w.name := by
  have noNumber : ¬ Numeral w.name := by
    intro numeral
    obtain ⟨c, inside, other⟩ := w.exists_not_isNumeral
    exact absurd ((numeral c inside).symm.trans other) Bool.noConfusion
  have noBracket : '[' ∉ w.name.toList ∧ '\x7b' ∉ w.name.toList := by
    cases w <;> decide
  cases x with
  | str s => rw [← same, display]
  | null => exact absurd same (by cases w <;> decide)
  | bool b => exact absurd same (by cases b <;> cases w <;> decide)
  | int n => exact absurd (same ▸ numeral_toString n) noNumber
  | float y => exact absurd (same ▸ y.numeral_text) noNumber
  | arr items =>
    refine absurd ?_ noBracket.1
    rw [← same]
    simp [display, literal]
  | obj entries =>
    refine absurd ?_ noBracket.2
    rw [← same]
    simp [display, literal]

end Criteria
