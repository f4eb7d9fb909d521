import Criteria.Filter.DateOperand
import Criteria.Proofs.IsoParts

/-!
A `Z` at the end of a date operand. It stands for an offset of zero, and the text is read
with `+00:00` in its place. After a time that is the offset. After a date with no time the
`+` is taken for the character between the date and a time, so that the operand stays
without an offset, and a second `Z` cannot be read (`dateOperand_push`).
-/
namespace Criteria

open Text (octets)
open Calendar (Moment Offset)
open Calendar.Iso

theorem dateOperand_eq_read {s : String} {cs : List Char} (trimmed : Text.trimChars s.toList = cs) (solid : cs ≠ []) :
    dateOperand (.str s) = (read (String.ofList (withOffset cs))).mapError .calendar := by
  simp only [dateOperand, trimmed]
  cases cs with
  | nil => exact absurd rfl solid
  | cons c rest => cases read (String.ofList (withOffset (c :: rest))) <;> rfl

/-! ### Offsets of zero -/

namespace Calendar.Iso

/-- The offset that a `Z` stands for. -/
def zeroOffset : List Char := ['+', '0', '0', ':', '0', '0']

theorem offsetMicros?_eq_none_iff {bs : List Text.Octet} : offsetMicros? bs = some none ↔ bs = [] := by
  cases bs with
  | nil => simp [offsetMicros?]
  | cons b rest =>
    refine iff_of_false ?_ (List.cons_ne_nil b rest)
    intro read
    simp only [offsetMicros?] at read
    split_ifs at read
    · cases read
    · obtain ⟨t, -, second⟩ := Option.bind_eq_some_iff.mp read
      split_ifs at second
      cases second

theorem timeAndOffset?_none_iff {bs : List Text.Octet} {t : TimeParts} :
    timeAndOffset? bs = some (t, none) ↔
      (∀ b ∈ bs, startsOffset b = false) ∧ timeParts? bs = some t ∧ t.complete = true := by
  have plain : bs.dropWhile (!startsOffset ·) = [] ↔ ∀ b ∈ bs, startsOffset b = false := by
    simp [List.dropWhile_eq_nil_iff]
  rw [← plain]
  constructor
  · intro read
    obtain ⟨time, first, second⟩ := Option.bind_eq_some_iff.mp read
    obtain ⟨offset, last, third⟩ := Option.bind_eq_some_iff.mp second
    split_ifs at third with complete
    cases third
    have none := offsetMicros?_eq_none_iff.mp last
    refine ⟨none, ?_, by simpa using complete⟩
    rw [← List.takeWhile_append_dropWhile (p := (!startsOffset ·)) (l := bs), none, List.append_nil, first]
  · rintro ⟨none, first, complete⟩
    have all : bs.takeWhile (!startsOffset ·) = bs := by
      rw [← List.append_nil (bs.takeWhile _), ← none, List.takeWhile_append_dropWhile]
    simp [timeAndOffset?, all, none, first, complete, offsetMicros?]

/-- A time is read up to the offset that follows it. -/
theorem timeAndOffset?_append {bs rest : List Text.Octet} {b : Text.Octet} {micros : Int}
    (plain : ∀ b ∈ bs, startsOffset b = false) (starts : startsOffset b = true)
    (isOffset : offsetMicros? (b :: rest) = some (some micros)) :
    timeAndOffset? (bs ++ b :: rest) = (timeParts? bs).map (·, some micros) := by
  have each : ∀ b ∈ bs, (!startsOffset b) = true := by
    intro b inside
    rw [plain b inside, Bool.not_false]
  have front : (b :: rest).takeWhile (!startsOffset ·) = [] := List.takeWhile_cons_of_neg (by simp [starts])
  have back : (b :: rest).dropWhile (!startsOffset ·) = b :: rest := List.dropWhile_cons_of_neg (by simp [starts])
  rw [timeAndOffset?, List.takeWhile_append_of_pos each, List.dropWhile_append_of_pos each, front, back, isOffset,
    List.append_nil]
  cases timeParts? bs <;> rfl

theorem timeAndOffset?_zeroOffset {bs : List Text.Octet} (plain : ∀ b ∈ bs, startsOffset b = false) :
    timeAndOffset? (bs ++ octets zeroOffset) = (timeParts? bs).map (·, some 0) :=
  timeAndOffset?_append plain rfl rfl

theorem offset_eq_none_of_ofParts {date : DateParts} {time : TimeParts} {offset : Option Int} {m : Moment}
    (made : ofParts date time offset = .ok m) (naive : m.offset = none) : offset = none := by
  obtain ⟨isOffset, -, -⟩ := ofParts_eq_ok_iff.mp made
  cases offset with
  | none => rfl
  | some micros =>
    rw [naive] at isOffset
    obtain ⟨o, -, impossible⟩ := bind_eq_ok_iff.mp isOffset
    cases impossible

theorem ofParts_zeroOffset {date : DateParts} {time : TimeParts} {m : Moment}
    (made : ofParts date time none = .ok m) : ofParts date time (some 0) = .ok { m with offset := some .utc } := by
  obtain ⟨-, isDate, isTime⟩ := ofParts_eq_ok_iff.mp made
  exact ofParts_eq_ok_iff.mpr ⟨rfl, isDate, isTime⟩

/-! ### Offsets of zero after a text without an offset -/

variable {cs : List Char} {m : Moment}

/-- After a date that is all of the text the `+` separates the date from a time of zero. -/
theorem read_zeroOffset_of_bareDate (bare : BareDate (octets cs)) (isRead : read (String.ofList cs) = .ok m) :
    read (String.ofList (cs ++ zeroOffset)) = .ok m := by
  obtain ⟨long, date, time, offset, parts, made⟩ := read_eq_ok_iff.mp isRead
  have ends : dateEnd? (octets (cs ++ [])) = some (octets cs).length := by
    rw [List.append_nil]
    exact bare.dateEnd?_eq
  have ends' : dateEnd? (octets (cs ++ zeroOffset)) = some (octets cs).length :=
    bare.dateEnd?_cons (by decide) rfl (by decide) _
  rw [← List.append_nil cs, parts?_of_dateEnd? ends] at parts
  obtain ⟨d, isDate, same⟩ := Option.bind_eq_some_iff.mp parts
  cases same
  have midnight : timeAndOffset? (octets ['0', '0', ':', '0', '0']) = some (⟨[0, 0], 0, true⟩, none) := rfl
  refine read_eq_ok_iff.mpr ⟨by simp [zeroOffset]; omega, date, ⟨[0, 0], 0, true⟩, none, ?_, made⟩
  rw [parts?_of_dateEnd? ends', isDate]
  simp only [zeroOffset, midnight, Option.bind_some, Option.map_some]

/-- After a time it is the offset. -/
theorem read_zeroOffset_of_time (timed : ¬ BareDate (octets cs)) (isRead : read (String.ofList cs) = .ok m)
    (naive : m.offset = none) : read (String.ofList (cs ++ zeroOffset)) = .ok { m with offset := some .utc } := by
  obtain ⟨long, date, time, offset, parts, made⟩ := read_eq_ok_iff.mp isRead
  obtain rfl := offset_eq_none_of_ofParts made naive
  obtain ⟨day, rest, rfl, bare, ends, isDate, after⟩ := parts?_octets_iff.mp parts
  cases after with
  | nothing =>
    rw [List.append_nil] at timed
    exact absurd bare timed
  | @time separator more _ _ isTime =>
    obtain ⟨plain, isTime, -⟩ := timeAndOffset?_none_iff.mp isTime
    have ends' : dateEnd? (octets (day ++ separator :: (more ++ zeroOffset))) = some (octets day).length := by
      have whole : day ++ separator :: (more ++ zeroOffset) = (day ++ separator :: more) ++ zeroOffset := by simp
      rw [whole, octets_append _ zeroOffset, zeroOffset, octets_cons_of_lt (by decide)]
      refine dateEnd?_append rfl (by decide) _ (long.trans (length_le_octets _)) ?_ ends
      rwa [octets_append, List.take_left]
    refine read_eq_ok_iff.mpr ⟨by simp [zeroOffset]; omega, date, time, some 0, ?_, ofParts_zeroOffset made⟩
    rw [List.append_assoc, List.cons_append, parts?_of_dateEnd? ends', isDate]
    simp only [octets_append, timeAndOffset?_zeroOffset plain, isTime, Option.bind_some, Option.map_some]

/-- A text with an offset of zero that is read without one is a date before the `+`. -/
theorem bareDate_of_read_zeroOffset (isRead : read (String.ofList (cs ++ zeroOffset)) = .ok m)
    (naive : m.offset = none) : BareDate (octets cs) := by
  obtain ⟨-, date, time, offset, parts, made⟩ := read_eq_ok_iff.mp isRead
  obtain rfl := offset_eq_none_of_ofParts made naive
  obtain ⟨day, rest, split, bare, -, -, after⟩ := parts?_octets_iff.mp parts
  have noPlus : '+' ∉ day := by
    intro inside
    exact bare.not_mem rfl (by decide) (by decide) (octet_mem_octets (by decide) inside)
  rcases List.append_eq_append_iff.mp split with ⟨more, rfl, isMore⟩ | ⟨more, rfl, isRest⟩
  · cases more with
    | nil => rwa [List.append_nil] at bare
    | cons c others =>
      obtain rfl : '+' = c := (List.cons.inj isMore).1
      exact absurd (List.mem_append_right cs List.mem_cons_self) noPlus
  · cases more with
    | nil => rwa [List.append_nil]
    | cons separator others =>
      rw [isRest, List.cons_append] at after
      cases after with
      | time isTime =>
        obtain ⟨plain, -, -⟩ := timeAndOffset?_none_iff.mp isTime
        have plus : '+' ∈ others ++ zeroOffset := List.mem_append_right others List.mem_cons_self
        cases plain _ (octet_mem_octets (by decide) plus)

/-- After a date and one more character there is no time before the `+`. -/
theorem read_zeroOffset_of_separator {separator : Char} (ascii : separator.toNat < 0x80)
    (noDigit : isDigit (octet separator) = false) (noHyphen : octet separator ≠ octet '-')
    (bare : BareDate (octets cs)) :
    read (String.ofList (cs ++ separator :: zeroOffset)) =
      .error (.malformed (String.ofList (cs ++ separator :: zeroOffset))) := by
  have ends := bare.dateEnd?_cons ascii noDigit noHyphen zeroOffset
  have noTime : timeAndOffset? (octets zeroOffset) = none := rfl
  have noParts : parts? (octets (cs ++ separator :: zeroOffset)) = none := by
    rw [parts?_of_dateEnd? ends]
    simp only [noTime, Option.map_none]
    cases dateParts? (octets cs) <;> rfl
  simp only [read, String.toList_ofList, noParts, ite_self]

end Calendar.Iso

/-! ### A final `Z` -/

/-- The letters that stand for an offset of zero at the end of an operand. -/
def IsZone (z : Char) : Prop := z = 'Z' ∨ z = 'z'

/-- A text with a date in it but no time: a date, or a date with a `Z` at its end. -/
def LacksTime (cs : List Char) : Prop :=
  BareDate (octets cs) ∨ ∃ date z, IsZone z ∧ BareDate (octets date) ∧ cs = date ++ [z]

theorem withOffset_append {z : Char} (zone : IsZone z) (cs : List Char) :
    withOffset (cs ++ [z]) = cs ++ zeroOffset := by
  rcases zone with rfl | rfl <;> simp [withOffset, zeroOffset]

theorem withOffset_of_noZone {cs : List Char} (noZone : ∀ front z, IsZone z → cs ≠ front ++ [z]) :
    withOffset cs = cs := by
  unfold withOffset
  split
  · rename_i z rest reversed
    have split : cs = rest.reverse ++ [z] := by
      rw [← List.reverse_cons, ← reversed, List.reverse_reverse]
    have other : ¬ IsZone z := fun zone => noZone rest.reverse z zone split
    rw [if_neg (by simpa [IsZone] using other)]
  · rfl

theorem not_bareDate_append {z : Char} (zone : IsZone z) (cs : List Char) : ¬ BareDate (octets (cs ++ [z])) := by
  intro bare
  have last : z ∈ cs ++ [z] := List.mem_append_right cs List.mem_cons_self
  rcases zone with rfl | rfl <;> exact bare.not_mem rfl (by decide) (by decide) (octet_mem_octets (by decide) last)

theorem dateOperand_push_eq {s : String} {z : Char} (zone : IsZone z) (trimmed : Text.Trimmed s.toList)
    (solid : s.toList ≠ []) :
    dateOperand (.str (s.push z)) = (read (String.ofList (s.toList ++ zeroOffset))).mapError .calendar := by
  have trimmed' : Text.Trimmed (s.toList ++ [z]) := by
    refine ⟨?_, ?_⟩
    · rw [List.head?_append_of_ne_nil _ solid]
      exact trimmed.1
    · rw [List.getLast?_concat]
      rcases zone with rfl | rfl <;> simp [Text.isBlank, Text.isWideBlank]
  have isPushed : Text.trimChars (s.push z).toList = s.toList ++ [z] := by
    rw [String.toList_push, Text.trimChars_of_trimmed trimmed']
  rw [dateOperand_eq_read isPushed (by simp), withOffset_append zone]

/-- A text that is read without an offset though a `Z` ends it is a date before the `Z`, and with another
    `Z` it cannot be read. -/
theorem read_zeroOffset_of_zone {front : List Char} {y : Char} {m : Moment} (zone : IsZone y)
    (isRead : read (String.ofList (withOffset (front ++ [y]))) = .ok m) (naive : m.offset = none) :
    BareDate (octets front) ∧ read (String.ofList (front ++ [y] ++ zeroOffset)) =
      .error (.malformed (String.ofList (front ++ [y] ++ zeroOffset))) := by
  rw [withOffset_append zone] at isRead
  have bare := bareDate_of_read_zeroOffset isRead naive
  refine ⟨bare, ?_⟩
  rw [List.append_assoc, List.singleton_append]
  rcases zone with rfl | rfl <;> exact read_zeroOffset_of_separator (by decide) (by decide) (by decide) bare

/-- A final `Z` gives an operand without an offset the offset zero, unless there is no time in its
    text. Then a date stays without an offset, and a date that has a `Z` already cannot be read. -/
theorem dateOperand_push {s : String} {m : Moment} {z : Char} (zone : IsZone z) (trimmed : Text.Trimmed s.toList)
    (isRead : dateOperand (.str s) = .ok m) (naive : m.offset = none) :
    (dateOperand (.str (s.push z)) = .ok { m with offset := some .utc } ↔ ¬ LacksTime s.toList) ∧
    (BareDate (octets s.toList) → dateOperand (.str (s.push z)) = .ok m) ∧
    ∀ date y, IsZone y → BareDate (octets date) → s.toList = date ++ [y] →
      dateOperand (.str (s.push z)) = .error (.calendar (.malformed (String.ofList (s.toList ++ zeroOffset)))) := by
  generalize isText : s.toList = cs at trimmed ⊢
  have solid : cs ≠ [] := by
    rintro rfl
    simp only [dateOperand, isText] at isRead
    cases isRead
  have pushed := dateOperand_push_eq zone (isText ▸ trimmed) (isText ▸ solid)
  rw [isText] at pushed
  have isTrimmed : Text.trimChars s.toList = cs := by rw [isText, Text.trimChars_of_trimmed trimmed]
  rw [dateOperand_eq_read isTrimmed solid, mapError_eq_ok_iff] at isRead
  rw [pushed]
  by_cases ended : ∃ front y, IsZone y ∧ cs = front ++ [y]
  · obtain ⟨front, y, zone', rfl⟩ := ended
    obtain ⟨bare, failed⟩ := read_zeroOffset_of_zone zone' isRead naive
    rw [failed]
    refine ⟨iff_of_false nofun fun timed => timed (.inr ⟨front, y, zone', bare, rfl⟩), ?_, fun _ _ _ _ _ => rfl⟩
    intro bare'
    exact absurd bare' (not_bareDate_append zone' front)
  · simp only [not_exists, not_and] at ended
    rw [withOffset_of_noZone ended] at isRead
    refine ⟨?_, ?_, fun date y zone' _ split => absurd split (ended date y zone')⟩
    · by_cases bare : BareDate (octets cs)
      · rw [read_zeroOffset_of_bareDate bare isRead]
        refine iff_of_false ?_ fun timed => timed (.inl bare)
        intro same
        cases (Moment.mk.inj (Except.ok.inj same)).2.2 ▸ naive
      · rw [read_zeroOffset_of_time bare isRead naive]
        refine iff_of_true rfl ?_
        rintro (bare' | ⟨date, y, zone', -, split⟩)
        · exact bare bare'
        · exact ended date y zone' split
    · intro bare
      rw [read_zeroOffset_of_bareDate bare isRead]
      rfl

/-- Half past ten on the third day of week 20. -/
def halfPastTen : Moment :=
  ⟨⟨2024, 5, 15, by decide⟩,
    { Calendar.TimeOfDay.midnight with hour := ⟨10, by decide⟩, minute := ⟨30, by decide⟩ }, none⟩

theorem dateOperand_push_halfPastTen :
    IsZone 'z' ∧ Text.Trimmed "2024-W20-3 10:30".toList ∧ dateOperand (.str "2024-W20-3 10:30") = .ok halfPastTen ∧
      halfPastTen.offset = none ∧ ¬ LacksTime "2024-W20-3 10:30".toList ∧
      dateOperand (.str "2024-W20-3 10:30z") = .ok { halfPastTen with offset := some .utc } := by
  have zone : IsZone 'z' := .inr rfl
  have trimmed : Text.Trimmed "2024-W20-3 10:30".toList := by
    constructor <;> rintro c ⟨⟩ <;> decide
  have isRead : dateOperand (.str "2024-W20-3 10:30") = .ok halfPastTen := by decide
  have pushed : dateOperand (.str ("2024-W20-3 10:30".push 'z')) = .ok { halfPastTen with offset := some .utc } := by
    decide
  obtain ⟨timed, -, -⟩ := dateOperand_push zone trimmed isRead rfl
  exact ⟨zone, trimmed, isRead, rfl, timed.mp pushed, pushed⟩

/-- With a `Z` after it, the first of May is read as it is without one: at no known offset. -/
theorem bareDate_push_has_no_offset :
    let firstOfMay : Moment := ⟨⟨2024, 5, 1, by decide⟩, .midnight, none⟩
    Text.Trimmed "2024-05-01".toList ∧ dateOperand (.str "2024-05-01") = .ok firstOfMay ∧
      dateOperand (.str "2024-05-01Z") = .ok firstOfMay ∧
      dateOperand (.str "2024-05-01Z") ≠ .ok { firstOfMay with offset := some .utc } := by
  refine ⟨?_, ?_, ?_, ?_⟩
  · constructor <;> rintro c ⟨⟩ <;> decide
  · decide
  · decide
  · decide

end Criteria
