/-!
Blank characters and trimming. A blank is any character that Unicode counts as
white space, or one of the four ASCII separators U+001C to U+001F. `trim` takes
the blanks off both ends of a text and leaves what stands between them as it is:
the text is what remains with blanks around it, and what remains neither starts
nor ends with one (`trim_eq_iff`). Of a text of blanks nothing remains
(`trim_eq_empty_iff`).
-/
namespace Criteria.Text

/-- The blanks beyond ASCII: Unicode's line, paragraph and space separators. -/
def isWideBlank (c : Char) : Bool :=
  let n := c.toNat
  n == 0x85 || n == 0xA0 || n == 0x1680 || (0x2000 ≤ n && n ≤ 0x200A) ||
    n == 0x2028 || n == 0x2029 || n == 0x202F || n == 0x205F || n == 0x3000

/-- The blanks: tab to carriage return, the ASCII separators, the space, and the wide blanks. -/
def isBlank (c : Char) : Bool :=
  let n := c.toNat
  (0x09 ≤ n && n ≤ 0x0D) || (0x1C ≤ n && n ≤ 0x20) || isWideBlank c

/-- The characters of a list without the blanks at its end. -/
def trimEnd (cs : List Char) : List Char := (cs.reverse.dropWhile isBlank).reverse

/-- The characters of a list without the blanks at both ends. -/
def trimChars (cs : List Char) : List Char := trimEnd (cs.dropWhile isBlank)

/-- A text without the blanks at both ends. -/
def trim (s : String) : String := String.ofList (trimChars s.toList)

/-- A text that neither starts nor ends with a blank. -/
def Trimmed (cs : List Char) : Prop :=
  (∀ c ∈ cs.head?, isBlank c = false) ∧ ∀ c ∈ cs.getLast?, isBlank c = false

variable {cs core before after : List Char}

/-! ### Blanks at one end -/

theorem dropWhile_isBlank (blank : ∀ c ∈ before, isBlank c = true) (solid : ∀ c ∈ cs.head?, isBlank c = false) :
    (before ++ cs).dropWhile isBlank = cs := by
  rw [List.dropWhile_append_of_pos blank]
  cases cs with
  | nil => rfl
  | cons c rest => rw [List.dropWhile_cons_of_neg (by simp [solid c rfl])]

theorem solid_head_dropWhile (cs : List Char) : ∀ c ∈ (cs.dropWhile isBlank).head?, isBlank c = false := by
  intro c first
  have stopped := List.head?_dropWhile_not isBlank cs
  rwa [Option.mem_def.mp first] at stopped

theorem exists_blanks_before (cs : List Char) :
    ∃ before, (∀ c ∈ before, isBlank c = true) ∧ cs = before ++ cs.dropWhile isBlank :=
  ⟨cs.takeWhile isBlank, List.all_eq_true.mp List.all_takeWhile, List.takeWhile_append_dropWhile.symm⟩

theorem exists_blanks_after (cs : List Char) :
    ∃ after, (∀ c ∈ after, isBlank c = true) ∧ cs = trimEnd cs ++ after := by
  obtain ⟨blanks, blank, split⟩ := exists_blanks_before cs.reverse
  refine ⟨blanks.reverse, ?_, ?_⟩
  · intro c inside
    exact blank c (List.mem_reverse.mp inside)
  · rw [trimEnd, ← List.reverse_append, ← split, List.reverse_reverse]

/-! ### Blanks at both ends -/

theorem trimmed_trimChars (cs : List Char) : Trimmed (trimChars cs) := by
  constructor
  · intro c first
    -- What trimming leaves begins where the blanks at the front end.
    obtain ⟨after, -, split⟩ := exists_blanks_after (cs.dropWhile isBlank)
    refine solid_head_dropWhile cs c ?_
    rw [split, List.head?_append, ← trimChars, Option.mem_def.mp first]
    rfl
  · intro c last
    refine solid_head_dropWhile (cs.dropWhile isBlank).reverse c ?_
    rwa [trimChars, trimEnd, List.getLast?_reverse] at last

theorem exists_padding (cs : List Char) :
    ∃ before after, (∀ c ∈ before, isBlank c = true) ∧ (∀ c ∈ after, isBlank c = true) ∧
      cs = before ++ (trimChars cs ++ after) := by
  obtain ⟨before, blankBefore, split⟩ := exists_blanks_before cs
  obtain ⟨after, blankAfter, split'⟩ := exists_blanks_after (cs.dropWhile isBlank)
  refine ⟨before, after, blankBefore, blankAfter, ?_⟩
  rw [trimChars, ← split', ← split]

theorem trimChars_eq_nil_iff : trimChars cs = [] ↔ ∀ c ∈ cs, isBlank c = true := by
  constructor
  · intro nothing
    obtain ⟨before, after, blankBefore, blankAfter, split⟩ := exists_padding cs
    rw [split, nothing]
    exact List.forall_mem_append.mpr ⟨blankBefore, blankAfter⟩
  · intro blank
    have nothing : cs.dropWhile isBlank = [] := by
      have dropped := @dropWhile_isBlank [] cs blank nofun
      rwa [List.append_nil] at dropped
    rw [trimChars, nothing]
    rfl

/-- Trimming takes off the blanks that are put around a text. -/
theorem trimChars_padded (trimmed : Trimmed core) (blankBefore : ∀ c ∈ before, isBlank c = true)
    (blankAfter : ∀ c ∈ after, isBlank c = true) : trimChars (before ++ (core ++ after)) = core := by
  cases core with
  | nil =>
    rw [List.nil_append, trimChars_eq_nil_iff]
    exact List.forall_mem_append.mpr ⟨blankBefore, blankAfter⟩
  | cons c rest =>
    obtain ⟨first, last⟩ := trimmed
    have front : ∀ d ∈ (c :: rest ++ after).head?, isBlank d = false := first
    have back : ∀ d ∈ (c :: rest).reverse.head?, isBlank d = false := by
      rw [List.head?_reverse]
      exact last
    have blankReverse : ∀ d ∈ after.reverse, isBlank d = true := by
      intro d inside
      exact blankAfter d (List.mem_reverse.mp inside)
    rw [trimChars, dropWhile_isBlank blankBefore front, trimEnd, List.reverse_append,
      dropWhile_isBlank blankReverse back, List.reverse_reverse]

theorem trimChars_of_trimmed (trimmed : Trimmed cs) : trimChars cs = cs := by
  have padded := @trimChars_padded cs [] [] trimmed nofun nofun
  rwa [List.nil_append, List.append_nil] at padded

/-- What trimming leaves of a text is the one part that neither starts nor ends with a blank and has
nothing but blanks around it. -/
theorem trim_eq_iff {s t : String} :
    trim s = t ↔ Trimmed t.toList ∧ ∃ before after, (∀ c ∈ before, isBlank c = true) ∧
      (∀ c ∈ after, isBlank c = true) ∧ s.toList = before ++ (t.toList ++ after) := by
  constructor
  · rintro rfl
    rw [trim, String.toList_ofList]
    exact ⟨trimmed_trimChars s.toList, exists_padding s.toList⟩
  · rintro ⟨trimmed, before, after, blankBefore, blankAfter, split⟩
    rw [trim, split, trimChars_padded trimmed blankBefore blankAfter, String.ofList_toList]

theorem trim_eq_empty_iff {s : String} : trim s = "" ↔ ∀ c ∈ s.toList, isBlank c = true := by
  rw [trim, String.ofList_eq_empty_iff, trimChars_eq_nil_iff]

end Criteria.Text
