import Criteria.Json.Reader
import Mathlib.Data.List.TakeWhile

/-!
Where reading stops. Each part of the reader hands on the end of what it was given, so the
place of a fault is a place of the text, and an integer of too many digits is a run of
digits of the text (`within_document`).
-/
namespace Criteria.Json.Reader

variable {cs rest left : List Char}

/-- A run of so many decimal digits in a text. -/
def HasRun (n : Nat) (cs : List Char) : Prop := ∃ ds, ds <:+: cs ∧ ds.length = n ∧ ∀ d ∈ ds, isDigit d = true

/-- That reading stops in a text: with its end left over, or at more digits than an integer may have. -/
def Stop.Within (cs : List Char) : Stop → Prop
  | fault _ left => left <:+ cs
  | tooLong n => Text.digitLimit < n ∧ HasRun n cs

theorem Stop.Within.mono {stop : Stop} (within : stop.Within rest) (suffix : rest <:+ cs) : stop.Within cs := by
  cases stop with
  | fault fault left => exact within.trans suffix
  | tooLong n =>
    obtain ⟨many, ds, inside, length, digits⟩ := within
    exact ⟨many, ds, inside.trans suffix.isInfix, length, digits⟩

/-- That a part of a text is read in it: an end of the text is left over, or reading stops in the text. -/
def ReadsIn {α : Type} (left : α → List Char) (cs : List Char) : Except Stop α → Prop
  | .ok a => left a <:+ cs
  | .error stop => stop.Within cs

theorem ReadsIn.mono {α : Type} {left : α → List Char} {outcome : Except Stop α} (inside : ReadsIn left rest outcome)
    (suffix : rest <:+ cs) : ReadsIn left cs outcome := by
  cases outcome with
  | ok a => exact List.IsSuffix.trans inside suffix
  | error stop => exact Stop.Within.mono inside suffix

/-- A part is read, and then another in what it left over. -/
theorem ReadsIn.bind {α β : Type} {left : α → List Char} {left' : β → List Char} {x : Except Stop α}
    {f : α → Except Stop β} (first : ReadsIn left cs x) (second : ∀ a, ReadsIn left' (left a) (f a)) :
    ReadsIn left' cs (x >>= f) := by
  cases x with
  | ok a => exact (second a).mono first
  | error stop => exact first

/-! ### Texts -/

theorem suffix_of_lowHalf? {n : Nat} (found : lowHalf? cs = some (n, rest)) : rest <:+ cs := by
  unfold lowHalf? at found
  split at found
  · rename_i a b c d next others
    simp only [Option.bind_eq_bind, Option.bind_eq_some_iff] at found
    obtain ⟨low, -, found⟩ := found
    split at found
    · cases found
      exact List.suffix_append ['\\', 'u', a, b, c, d] (next :: others)
    · cases found
  · cases found

theorem suffix_of_codePoint? {c : Char} (found : codePoint? cs = some (c, rest)) : rest <:+ cs := by
  unfold codePoint? at found
  split at found
  · rename_i a b c d next others
    have after : next :: others <:+ a :: b :: c :: d :: next :: others :=
      List.suffix_append [a, b, c, d] (next :: others)
    simp only [Option.bind_eq_bind, Option.bind_eq_some_iff] at found
    obtain ⟨n, -, found⟩ := found
    split at found
    · rename_i pair
      rw [Option.pure_def, Option.some.injEq, Prod.mk.injEq] at found
      obtain ⟨-, rfl⟩ := found
      split at pair
      · exact (suffix_of_lowHalf? pair).trans after
      · cases pair
    · rw [Option.pure_def, Option.some.injEq, Prod.mk.injEq] at found
      obtain ⟨-, rfl⟩ := found
      exact after
  · cases found

/-- A text is read up to its closing quote; where it cannot be, its opening or a later place is told. -/
theorem readsIn_textBody {opening : List Char} (read : List Char) (opened : cs <:+ opening) :
    ReadsIn Prod.snd opening (textBody opening read cs) := by
  fun_induction textBody opening read cs with
  | case1 | case3 => exact List.suffix_rfl
  | case2 => exact (List.suffix_cons _ _).trans opened
  | case4 => exact (List.suffix_cons _ _).trans opened
  | case5 _ _ _ _ found ih =>
    have shorter := suffix_of_codePoint? found
    exact ih (shorter.trans ((List.suffix_append ['\\', 'u'] _).trans opened))
  | case6 | case8 => exact opened
  | case7 _ c rest _ _ _ ih => exact ih ((List.suffix_append ['\\', c] rest).trans opened)
  | case9 _ c rest _ _ _ _ _ ih => exact ih ((List.suffix_cons c rest).trans opened)

/-! ### Words and numbers -/

theorem eq_append_of_after? {word : List Char} (found : after? word cs = some rest) : cs = word ++ rest := by
  induction word generalizing cs with
  | nil => exact Option.some.inj found
  | cons w ws ih =>
    cases cs with
    | nil => cases found
    | cons c cs =>
      rw [after?] at found
      split at found
      · rename_i same
        rw [ih found, beq_iff_eq.mp same]
        rfl
      · cases found

theorem eq_append_of_wholeDigits? {ds : List Char} (found : wholeDigits? cs = some (ds, rest)) :
    cs = ds ++ rest ∧ ∀ d ∈ ds, isDigit d = true := by
  cases cs with
  | nil => cases found
  | cons c cs =>
    rw [wholeDigits?] at found
    split at found
    · rename_i zero
      cases found
      refine ⟨rfl, List.forall_mem_singleton.mpr ?_⟩
      rw [beq_iff_eq.mp zero]
      rfl
    · split at found
      · rename_i digit
        cases found
        refine ⟨?_, List.forall_mem_cons.mpr ⟨digit, fun d inside => ?_⟩⟩
        · rw [digits, afterDigits, List.cons_append, List.takeWhile_append_dropWhile]
        · exact List.all_eq_true.mp List.all_takeWhile d inside
      · cases found

theorem suffix_fraction (cs : List Char) : (fraction cs).2 <:+ cs := by
  unfold fraction
  split
  · rename_i d rest
    split
    · exact (List.dropWhile_suffix _).trans (List.suffix_append ['.', d] rest)
    · exact List.suffix_rfl
  · exact List.suffix_rfl

theorem suffix_signAndRest (cs : List Char) : (Text.signAndRest cs).2 <:+ cs := by
  unfold Text.signAndRest
  split
  · exact List.suffix_cons _ _
  · exact List.suffix_cons _ _
  · exact List.suffix_rfl

theorem suffix_exponent (cs : List Char) : (exponent cs).2 <:+ cs := by
  unfold exponent
  split
  · exact List.suffix_rfl
  · rename_i e rest
    have signed := suffix_signAndRest rest
    split
    · split
      · rename_i d more found
        rw [found] at signed
        split
        · exact (List.dropWhile_suffix _).trans ((List.suffix_cons d more).trans (signed.trans (List.suffix_cons e rest)))
        · exact List.suffix_rfl
      · exact List.suffix_rfl
    · exact List.suffix_rfl

/-- A number is made up of its parts unless it is an integer of too many digits. -/
theorem numberOf_error {negative : Bool} {whole part : List Char} {power : Option Int} {stop : Stop}
    (failed : numberOf negative whole part power = .error stop) :
    stop = .tooLong whole.length ∧ Text.digitLimit < whole.length := by
  unfold numberOf at failed
  split at failed
  · split at failed
    · rename_i long
      cases failed
      exact ⟨rfl, long⟩
    · cases failed
  · cases failed

theorem within_unsigned? {negative : Bool} {outcome : Except Stop Json}
    (found : unsigned? negative cs = some (outcome, rest)) :
    rest <:+ cs ∧ ∀ stop, outcome = .error stop → stop.Within cs := by
  simp only [unsigned?, Option.bind_eq_bind, Option.bind_eq_some_iff, Option.pure_def, Option.some.injEq,
    Prod.mk.injEq] at found
  obtain ⟨⟨whole, afterWhole⟩, isWhole, rfl, rfl⟩ := found
  obtain ⟨rfl, digits⟩ := eq_append_of_wholeDigits? isWhole
  refine ⟨?_, fun stop failed => ?_⟩
  · exact (suffix_exponent _).trans ((suffix_fraction afterWhole).trans (List.suffix_append whole afterWhole))
  · obtain ⟨rfl, many⟩ := numberOf_error failed
    exact ⟨many, whole, (List.prefix_append whole afterWhole).isInfix, rfl, digits⟩

theorem within_number? {outcome : Except Stop Json} (found : number? cs = some (outcome, rest)) :
    rest <:+ cs ∧ ∀ stop, outcome = .error stop → stop.Within cs := by
  unfold number? at found
  split at found
  · rename_i unsigned
    have after : unsigned <:+ '-' :: unsigned := List.suffix_cons _ _
    obtain ⟨left, stops⟩ := within_unsigned? found
    exact ⟨left.trans after, fun stop failed => (stops stop failed).mono after⟩
  · exact within_unsigned? found

theorem readsIn_scalar (cs : List Char) : ReadsIn Prod.snd cs (scalar cs) := by
  unfold scalar
  split
  · rename_i word found
    obtain ⟨w, -, hit⟩ := List.exists_of_findSome?_eq_some found
    obtain ⟨left, after, rfl⟩ := Option.map_eq_some_iff.mp hit
    rw [eq_append_of_after? after]
    exact List.suffix_append _ _
  · split
    · rename_i found
      exact (within_number? found).1
    · rename_i found
      exact (within_number? found).2 _ rfl
    · exact List.suffix_rfl

/-! ### Values -/

theorem suffix_skip (cs : List Char) : skip cs <:+ cs := List.dropWhile_suffix isSpace

theorem suffix_of_next? {c : Char} {after : Rest cs} (found : next? cs = some (c, after)) : c :: after.1 <:+ cs := by
  unfold next? at found
  split at found
  · cases found
  · rename_i left skipped
    cases found
    exact skipped ▸ suffix_skip cs

/-- What a value, an item or an entry leaves over. -/
def leftOver {α : Type} (part : α × Rest cs) : List Char := part.2.1

-- The three parts call one another as the reader does, and end for its reason.
mutual

theorem readsIn_value (cs : List Char) : ReadsIn leftOver cs (value cs) := by
  generalize same : cs = text
  unfold value
  split
  · rename_i rest
    have text := readsIn_textBody [] (List.suffix_cons '"' rest)
    split
    · rename_i failed
      rw [failed] at text
      exact text
    · rename_i found
      rw [found] at text
      exact text
  · rename_i rest
    split
    · exact List.nil_suffix
    · rename_i c left shorter found
      have inside := (suffix_of_next? found).trans (List.suffix_cons '[' rest)
      split
      · exact (List.suffix_cons c left).trans inside
      · exact ((readsIn_items (c :: left)).mono inside).bind fun _ => List.suffix_rfl
  · rename_i rest
    split
    · exact List.nil_suffix
    · rename_i c left shorter found
      have inside := (suffix_of_next? found).trans (List.suffix_cons '\x7b' rest)
      split
      · exact (List.suffix_cons c left).trans inside
      · exact ((readsIn_entries (c :: left) []).mono inside).bind fun _ => List.suffix_rfl
  · have word := readsIn_scalar text
    split
    · rename_i failed
      rw [failed] at word
      exact word
    · rename_i found
      rw [found] at word
      exact word
termination_by 2 * cs.length
decreasing_by
  all_goals simp only [same, List.length_cons] at *; omega

theorem readsIn_items (cs : List Char) : ReadsIn leftOver cs (items cs) := by
  unfold items
  refine (readsIn_value cs).bind ?_
  rintro ⟨x, left, shorter⟩
  dsimp only [leftOver]
  split
  · exact List.nil_suffix
  · rename_i c next shorter' found
    have after := suffix_of_next? found
    have behind := (List.suffix_cons c next).trans after
    split
    · exact behind
    · split
      · have less := length_skip_le next
        exact ((readsIn_items (skip next)).mono ((suffix_skip next).trans behind)).bind fun _ => List.suffix_rfl
      · exact after
termination_by 2 * cs.length + 1
decreasing_by
  all_goals omega

theorem readsIn_entries (cs : List Char) (read : List (String × Json)) : ReadsIn leftOver cs (entries cs read) := by
  generalize same : cs = text
  unfold entries
  split
  · rename_i rest
    have name := readsIn_textBody [] (List.suffix_cons '"' rest)
    split
    · rename_i failed
      rw [failed] at name
      exact name
    · rename_i afterName named
      rw [named] at name
      have short := length_lt_of_textBody named
      split
      · exact List.nil_suffix
      · rename_i c afterColon shorter found
        have colon := (suffix_of_next? found).trans name
        have behindColon := (List.suffix_cons c afterColon).trans colon
        split
        · have less := length_skip_le afterColon
          have value := (readsIn_value (skip afterColon)).mono ((suffix_skip afterColon).trans behindColon)
          refine value.bind ?_
          rintro ⟨x, afterValue, shorter⟩
          dsimp only [leftOver]
          split
          · exact List.nil_suffix
          · rename_i c next shorter found
            have after := suffix_of_next? found
            have behind := (List.suffix_cons c next).trans after
            split
            · exact behind
            · split
              · have less := length_skip_le next
                exact ((readsIn_entries (skip next) _).mono ((suffix_skip next).trans behind)).bind fun _ =>
                  List.suffix_rfl
              · exact after
        · exact colon
  · exact List.suffix_rfl
termination_by 2 * cs.length
decreasing_by
  all_goals simp only [same, List.length_cons]; omega

end

/-- A text that cannot be read tells a place of it, or the length of a run of its digits. -/
theorem within_document {stop : Stop} (failed : document cs = .error stop) : stop.Within cs := by
  have inside := (readsIn_value (skip cs)).mono (suffix_skip cs)
  unfold document at failed
  cases outcome : value (skip cs) with
  | error stop' =>
    rw [outcome] at failed inside
    cases failed
    exact inside
  | ok part =>
    obtain ⟨x, left, shorter⟩ := part
    rw [outcome] at failed inside
    dsimp only [bind, Except.bind] at failed
    split at failed
    · cases failed
    · cases failed
      exact (suffix_skip left).trans inside

/-! ### Integers of too many digits -/

section LongInteger

variable {c : Char} {ds : List Char}

theorem ne_of_isDigit {d : Char} (digit : isDigit c = true) (other : isDigit d = false) : c ≠ d := by
  rintro rfl
  exact absurd (digit.symm.trans other) (by decide)

theorem skip_of_isDigit (digit : isDigit c = true) : skip (c :: ds) = c :: ds := by
  have noSpace : isSpace c = false := by
    simp only [isSpace, Bool.or_eq_false_iff, beq_eq_false_iff_ne]
    exact ⟨⟨⟨ne_of_isDigit digit rfl, ne_of_isDigit digit rfl⟩, ne_of_isDigit digit rfl⟩, ne_of_isDigit digit rfl⟩
  rw [skip, List.dropWhile_cons, noSpace]
  rfl

theorem unsigned?_of_digits (first : c ≠ '0') (digits : ∀ d ∈ c :: ds, isDigit d = true)
    (many : Text.digitLimit < (c :: ds).length) :
    unsigned? false (c :: ds) = some (.error (.tooLong (c :: ds).length), []) := by
  obtain ⟨digit, others⟩ := List.forall_mem_cons.mp digits
  have whole : wholeDigits? (c :: ds) = some (c :: ds, []) := by
    have all : ds.takeWhile isDigit = ds := List.takeWhile_eq_self_iff.mpr others
    have none : ds.dropWhile isDigit = [] := List.dropWhile_eq_nil_iff.mpr others
    rw [wholeDigits?, if_neg (by simpa using first), if_pos digit, Reader.digits, afterDigits, all, none]
  have number : numberOf false (c :: ds) [] none = .error (.tooLong (c :: ds).length) := by
    unfold numberOf
    exact if_pos many
  rw [unsigned?, whole]
  show some (numberOf false (c :: ds) [] none, []) = _
  rw [number]

theorem scalar_of_digits (first : c ≠ '0') (digits : ∀ d ∈ c :: ds, isDigit d = true)
    (many : Text.digitLimit < (c :: ds).length) : scalar (c :: ds) = .error (.tooLong (c :: ds).length) := by
  have digit := digits c List.mem_cons_self
  have noWord : (words.findSome? fun w => (after? w.1 (c :: ds)).map ((w.2, ·))) = none := by
    refine List.findSome?_eq_none_iff.mpr fun w member => ?_
    have start : ∃ d ws, w.1 = d :: ws ∧ isDigit d = false := by
      simp only [words, List.mem_cons, List.not_mem_nil, or_false] at member
      rcases member with rfl | rfl | rfl | rfl | rfl | rfl <;> exact ⟨_, _, rfl, rfl⟩
    obtain ⟨d, ws, same, other⟩ := start
    have different : (d == c) = false := beq_eq_false_iff_ne.mpr (ne_of_isDigit digit other).symm
    rw [same, after?, different]
    rfl
  have number : number? (c :: ds) = some (.error (.tooLong (c :: ds).length), []) := by
    unfold number?
    split
    · rename_i same
      cases same
      exact absurd digit (by decide)
    · exact unsigned?_of_digits first digits many
  rw [scalar, noWord, number]

/-- A text of more digits than an integer may have is not read. -/
theorem document_of_digits (first : c ≠ '0') (digits : ∀ d ∈ c :: ds, isDigit d = true)
    (many : Text.digitLimit < (c :: ds).length) : document (c :: ds) = .error (.tooLong (c :: ds).length) := by
  have digit := digits c List.mem_cons_self
  have failed := scalar_of_digits first digits many
  have read : value (skip (c :: ds)) = .error (.tooLong (c :: ds).length) := by
    rw [skip_of_isDigit digit]
    generalize same : c :: ds = text at failed
    unfold value
    split
    · cases same
      exact absurd digit (by decide)
    · cases same
      exact absurd digit (by decide)
    · cases same
      exact absurd digit (by decide)
    · split
      · rename_i stop found
        cases found.symm.trans failed
        rfl
      · rename_i found
        exact absurd (found.symm.trans failed) nofun
  rw [document, read]
  rfl

end LongInteger

end Criteria.Json.Reader
