import Criteria.Proofs.Encoding
import Criteria.Proofs.Stops
import Criteria.Proofs.WireForm

/-!
Which bodies are answered. A body is answered if the parser takes it or refuses it with at
least one detail. Two kinds of body are not: bytes that are no text of the encoding that
they show, and a text in which an integer is met that has too many digits. All others are
(`Payload.answered_iff`), and so is each text that has no long run of digits
(`Payload.Illegible.cause`).
-/
namespace Criteria

/-- That parsing comes to a result, or to a refusal with at least one detail. -/
def Answered {α : Type} (outcome : Except ParseFault α) : Prop :=
  (∃ a, outcome = .ok a) ∨
    ∃ fault refusal, outcome = .error fault ∧ fault.rejection? = some refusal ∧ refusal.details ≠ []

theorem not_answered_error {α : Type} {fault : ParseFault} (untold : fault.rejection? = none) :
    ¬ Answered (.error fault : Except ParseFault α) := by
  rintro (⟨_, taken⟩ | ⟨_, refusal, ⟨rfl⟩, told, -⟩)
  · cases taken
  · exact absurd (told.symm.trans untold) nofun

namespace Payload

open Json (Encoding)

/-- The characters that are to be read as a value. A text that starts with a byte order mark is refused as it is. -/
inductive Writes : Payload → List Char → Prop
  | text {s : String} (unmarked : ∀ rest, s.toList ≠ '\ufeff' :: rest) : Writes (.text s) s.toList
  | octets {bs : List Text.Octet} {cs : List Char} (decoded : Json.decodeBytes bs = some cs) : Writes (.octets bs) cs

/-- A body that is no text, or a text in which an integer of too many digits is met. -/
inductive Illegible : Payload → Prop
  | encoding {bs : List Text.Octet} (noText : ¬ (Encoding.detect bs).1.IsText (Encoding.detect bs).2) :
      Illegible (.octets bs)
  | integer {payload : Payload} {cs : List Char} {digits : Nat} (written : payload.Writes cs)
      (met : Json.Reader.document cs = .error (.tooLong digits)) : Illegible payload

/-- What makes a body illegible is its encoding, or a long run of digits in its text. -/
theorem Illegible.cause {payload : Payload} (illegible : payload.Illegible) :
    (∃ bs, payload = .octets bs ∧ ¬ (Encoding.detect bs).1.IsText (Encoding.detect bs).2) ∨
      ∃ cs digits, payload.Writes cs ∧ 4300 < digits ∧ Json.Reader.HasRun digits cs := by
  cases illegible with
  | encoding noText => exact .inl ⟨_, rfl, noText⟩
  | @integer _ cs digits written met =>
    obtain ⟨many, run⟩ := Json.Reader.within_document met
    exact .inr ⟨cs, digits, written, many, run⟩

end Payload

/-! ### Reading what was sent -/

namespace Json

theorem readChars_error {cs : List Char} {fault : ReadFault} (failed : readChars cs = .error fault) :
    (∃ f position line column, fault = .malformed f position line column) ∨
      ∃ digits, fault = .tooLong digits ∧ Reader.document cs = .error (.tooLong digits) := by
  unfold readChars at failed
  split at failed
  · cases failed
  · cases failed
    exact .inl ⟨_, _, _, _, rfl⟩
  · rename_i digits met
    cases failed
    exact .inr ⟨digits, rfl, met⟩

theorem readChars_of_tooLong {cs : List Char} {digits : Nat} (met : Reader.document cs = .error (.tooLong digits)) :
    readChars cs = .error (.tooLong digits) := by
  rw [readChars, met]

theorem read_eq_readChars {s : String} (unmarked : ∀ rest, s.toList ≠ '\ufeff' :: rest) : read s = readChars s.toList := by
  unfold read
  split
  · rename_i rest marked
    exact absurd marked (unmarked rest)
  · rfl

end Json

namespace Payload

theorem load_eq_of_writes {payload : Payload} {cs : List Char} (written : payload.Writes cs) :
    payload.load = (Json.readChars cs).mapError .text := by
  cases written with
  | text unmarked => rw [load, Json.read_eq_readChars unmarked]
  | octets decoded => rw [load, decoded]

theorem load_error_of_writes {payload : Payload} {cs : List Char} {fault : ParseFault} (written : payload.Writes cs)
    (failed : payload.load = .error fault) :
    (∃ f position line column, fault = .text (.malformed f position line column)) ∨
      payload.Illegible ∧ fault.rejection? = none := by
  rw [load_eq_of_writes written] at failed
  obtain ⟨unread, unreadable, rfl⟩ := mapError_eq_error_iff.mp failed
  rcases Json.readChars_error unreadable with ⟨f, position, line, column, rfl⟩ | ⟨digits, rfl, met⟩
  · exact .inl ⟨f, position, line, column, rfl⟩
  · exact .inr ⟨.integer written met, rfl⟩

/-- A body that does not hold a value is malformed at some place, or it is illegible, which is not told. -/
theorem load_error {payload : Payload} {fault : ParseFault} (failed : payload.load = .error fault) :
    (∃ f position line column, fault = .text (.malformed f position line column)) ∨
      payload.Illegible ∧ fault.rejection? = none := by
  cases payload with
  | value x => cases failed
  | text s =>
    by_cases marked : ∃ rest, s.toList = '\ufeff' :: rest
    · obtain ⟨rest, marked⟩ := marked
      rw [load, Json.read, marked] at failed
      cases failed
      exact .inl ⟨_, _, _, _, rfl⟩
    · exact load_error_of_writes (.text (not_exists.mp marked)) failed
  | octets bs =>
    cases decoded : Json.decodeBytes bs with
    | some cs => exact load_error_of_writes (.octets decoded) failed
    | none =>
      rw [load, decoded] at failed
      cases failed
      exact .inr ⟨.encoding ((Json.decodeBytes_eq_none_iff bs).mp decoded), rfl⟩

/-- An integer of more than 4300 digits is illegible. -/
theorem illegible_of_digits {c : Char} {ds : List Char} (first : c ≠ '0')
    (digits : ∀ d ∈ c :: ds, Json.Reader.isDigit d = true) (many : 4300 < (c :: ds).length) :
    Illegible (.text (String.ofList (c :: ds))) := by
  have chars : (String.ofList (c :: ds)).toList = c :: ds := String.toList_ofList
  have unmarked : ∀ rest, (String.ofList (c :: ds)).toList ≠ '\ufeff' :: rest := by
    intro rest marked
    cases chars.symm.trans marked
    exact absurd (digits _ List.mem_cons_self) (by decide)
  have met := Json.Reader.document_of_digits first digits many
  rw [← chars] at met
  exact .integer (.text unmarked) met

theorem Illegible.load_error {payload : Payload} (illegible : payload.Illegible) :
    ∃ fault, payload.load = .error fault ∧ fault.rejection? = none := by
  cases illegible with
  | encoding noText => exact ⟨.undecodable, by rw [load, (Json.decodeBytes_eq_none_iff _).mpr noText], rfl⟩
  | @integer _ _ digits written met =>
    refine ⟨.text (.tooLong digits), ?_, rfl⟩
    rw [load_eq_of_writes written, Json.readChars_of_tooLong met]
    rfl

/-- If each value is answered, so is each body that is not illegible. -/
theorem answered_bind_iff {α : Type} {parse : Json → Except ParseFault α} (each : ∀ x, Answered (parse x))
    (payload : Payload) : Answered (payload.load >>= parse) ↔ ¬ payload.Illegible := by
  -- A body that holds a value is answered as the value is, and then it is not illegible.
  cases outcome : payload.load with
  | ok x =>
    refine iff_of_true (each x) fun illegible => ?_
    obtain ⟨fault, failed, -⟩ := illegible.load_error
    exact absurd (outcome.symm.trans failed) nofun
  | error fault =>
    rcases Payload.load_error outcome with ⟨f, position, line, column, rfl⟩ | ⟨illegible, untold⟩
    · refine iff_of_true (.inr ⟨_, _, rfl, rfl, List.cons_ne_nil _ _⟩) fun illegible => ?_
      obtain ⟨fault, failed, untold⟩ := illegible.load_error
      cases outcome.symm.trans failed
      cases untold
    · exact iff_of_false (not_answered_error untold) (not_not_intro illegible)

end Payload

/-! ### Taking a value -/

/-- A value is answered if each value that is admitted is read: it is refused before that, with details. -/
theorem Subject.answered_admit {α : Type} {subject : Subject} {read : Json → Except DecodeFault α}
    (total : ∀ x, subject.levels x ≤ 10 → Schema.Conforms subject.shape x → ∃ a, read x = .ok a) (x : Json) :
    Answered <| subject.admit true x >>= fun _ => (read x).mapError .content := by
  cases admitted : subject.admit true x with
  | error fault =>
    obtain ⟨details, reasons, told⟩ := exists_rejection_of_admit_error admitted
    exact .inr ⟨fault, _, rfl, told, reasons⟩
  | ok _ =>
    obtain ⟨shallow, conforms⟩ := admit_eq_ok_iff.mp admitted
    obtain ⟨a, taken⟩ := total x shallow conforms
    exact .inl ⟨a, mapError_eq_ok_iff.mpr taken⟩

theorem Group.answered_value (x : Json) : Answered (Group.parse true (.value x)) := by
  refine @Subject.answered_admit Group .group ofJson (fun x shallow conforms => ?_) x
  obtain ⟨g, described⟩ := Json.exists_group shallow conforms
  exact ⟨g, (Json.of_describesGroup described).2.2⟩

theorem Request.answered_value (x : Json) : Answered (Request.parse true (.value x)) := by
  refine @Subject.answered_admit Request .request ofJson (fun x shallow conforms => ?_) x
  obtain ⟨r, described⟩ := Json.exists_request shallow conforms
  exact ⟨r, (Json.of_describesRequest described).2.2⟩

namespace Payload

/-- A body is answered as a group, and as a request, unless it is illegible. It is illegible only for
    its encoding, or for a run of more than 4300 digits. -/
theorem answered_iff (payload : Payload) :
    (Answered (Group.parse true payload) ↔ ¬ payload.Illegible) ∧
      (Answered (Request.parse true payload) ↔ ¬ payload.Illegible) ∧
      (payload.Illegible →
        (∃ bs, payload = .octets bs ∧ ¬ (Json.Encoding.detect bs).1.IsText (Json.Encoding.detect bs).2) ∨
          ∃ cs digits, payload.Writes cs ∧ 4300 < digits ∧ Json.Reader.HasRun digits cs) := by
  refine ⟨?_, ?_, Illegible.cause⟩
  · exact answered_bind_iff Group.answered_value payload
  · exact answered_bind_iff Request.answered_value payload

/-- A brace that is not closed is answered: it is text, and too short for a long run of digits. -/
theorem answered_iff_openBrace :
    Answered (Group.parse true (.text "\x7b")) ∧ Answered (Request.parse true (.text "\x7b")) := by
  obtain ⟨group, request, cause⟩ := answered_iff (.text "\x7b")
  have legible : ¬ Illegible (.text "\x7b") := by
    intro illegible
    rcases cause illegible with ⟨_, isOctets, -⟩ | ⟨cs, digits, written, many, run, inside, rfl, -⟩
    · cases isOctets
    · cases written
      have short : run.length ≤ 1 := inside.length_le
      omega
  exact ⟨group.mpr legible, request.mpr legible⟩

/-- A byte that starts no character and an integer of 4301 digits are not answered. -/
theorem strayByte_longInteger_not_answered :
    ¬ Answered (Request.parse true (.octets [0xFF])) ∧
      ¬ Answered (Group.parse true (.text (String.ofList ('1' :: List.replicate 4300 '1')))) := by
  have strayByte : Illegible (.octets [0xFF]) := .encoding ((Json.decodeBytes_eq_none_iff [0xFF]).mp rfl)
  have longInteger : Illegible (.text (String.ofList ('1' :: List.replicate 4300 '1'))) := by
    refine illegible_of_digits (by decide) ?_ ?_
    · refine List.forall_mem_cons.mpr ⟨rfl, fun d inside => ?_⟩
      rw [List.eq_of_mem_replicate inside]
      rfl
    · rw [List.length_cons, List.length_replicate]
      decide
  refine ⟨fun answered => ?_, fun answered => ?_⟩
  · exact (answered_bind_iff Request.answered_value _).mp answered strayByte
  · exact (answered_bind_iff Group.answered_value _).mp answered longInteger

end Payload

end Criteria
