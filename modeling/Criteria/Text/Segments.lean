/-!
Texts cut at a separator. There is one segment more than there are separators, so the
empty text has one segment, which is empty. With separators between them the segments
give the text back (`intercalate_segments`).
-/
namespace Criteria.Text

/-- The segments of a text between separators. -/
def segments (separator : Char) : List Char → List (List Char)
  | [] => [[]]
  | c :: rest =>
    if c == separator then [] :: segments separator rest
    else match segments separator rest with
      | [] => [[c]]
      | first :: others => (c :: first) :: others

theorem segments_ne_nil (separator : Char) (cs : List Char) : segments separator cs ≠ [] := by
  cases cs with
  | nil => simp [segments]
  | cons c rest =>
    simp only [segments]
    split
    · simp
    · split <;> simp

theorem length_segments (separator : Char) (cs : List Char) :
    (segments separator cs).length = cs.count separator + 1 := by
  induction cs with
  | nil => rfl
  | cons c rest ih =>
    simp only [segments]
    split
    · simp_all
    · rename_i different
      split
      · rename_i none
        exact absurd none (segments_ne_nil separator rest)
      · simp_all

theorem segments_append (separator : Char) (cs ds : List Char) :
    segments separator (cs ++ separator :: ds) = segments separator cs ++ segments separator ds := by
  induction cs with
  | nil => simp [segments]
  | cons c rest ih =>
    rw [List.cons_append, segments, segments, ih]
    by_cases cut : c = separator
    · simp [cut]
    · have solid : (c == separator) = false := beq_eq_false_iff_ne.mpr cut
      rw [solid]
      cases found : segments separator rest with
      | nil => exact absurd found (segments_ne_nil separator rest)
      | cons first others => rfl

theorem segments_of_not_mem {separator : Char} {cs : List Char} (absent : separator ∉ cs) :
    segments separator cs = [cs] := by
  induction cs with
  | nil => rfl
  | cons c rest ih =>
    rw [List.mem_cons, not_or] at absent
    have solid : (c == separator) = false := beq_eq_false_iff_ne.mpr (Ne.symm absent.1)
    rw [segments, solid, ih absent.2]
    rfl

/-- A text is what its segments are with separators between them. -/
theorem intercalate_segments (separator : Char) (cs : List Char) :
    [separator].intercalate (segments separator cs) = cs := by
  induction cs with
  | nil => rfl
  | cons c rest ih =>
    cases found : segments separator rest with
    | nil => exact absurd found (segments_ne_nil separator rest)
    | cons first others =>
      rw [found] at ih
      by_cases cut : c = separator
      · simp [segments, cut, found, List.intercalate_cons_cons, ih]
      · have solid : (c == separator) = false := beq_eq_false_iff_ne.mpr cut
        rw [segments, solid, found]
        cases others with
        | nil => simpa using ih
        | cons second more =>
          rw [List.intercalate_cons_cons] at ih
          simp [List.intercalate_cons_cons, ih]

end Criteria.Text
