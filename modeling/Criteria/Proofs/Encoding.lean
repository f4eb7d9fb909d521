import Criteria.Json.Encoding

/-!
Which bytes are a text. Each encoding writes a text in its own way: UTF-8 puts one to four
bytes for a code point, UTF-16 takes the bytes in pairs, and UTF-32 takes them in groups of
four that have to be code points. Bytes can be read exactly if they are written in the way
of the encoding that they show (`decodeBytes_eq_none_iff`).
-/
namespace Criteria.Json

open Text (Octet continuation)

namespace Encoding

/-! ### UTF-8 -/

/-- The bytes of a code point. A half of a pair has bytes like any other. -/
def codeOctets (n : Nat) : List Octet :=
  if n < 0x80 then [n]
  else if n < 0x800 then [0xC0 + n / 0x40, continuation n]
  else if n < 0x10000 then [0xE0 + n / 0x1000, continuation (n / 0x40), continuation n]
  else [0xF0 + n / 0x40000, continuation (n / 0x1000), continuation (n / 0x40), continuation n]

theorem isContinuation_iff {b : Nat} : isContinuation b = true ↔ 0x80 ≤ b ∧ b ≤ 0xBF := by
  rw [isContinuation, Bool.and_eq_true, decide_eq_true_eq, decide_eq_true_eq]

theorem isContinuation_continuation (n : Nat) : isContinuation (continuation n) = true := by
  refine isContinuation_iff.mpr ⟨?_, ?_⟩
  · show 0x80 ≤ 0x80 + n % 0x40
    omega
  · show 0x80 + n % 0x40 ≤ 0xBF
    omega

theorem continuation_mod (n : Nat) : continuation n % 0x40 = n % 0x40 := by
  show (0x80 + n % 0x40) % 0x40 = n % 0x40
  omega

theorem unitChar_eq_ofNat {n : Nat} (whole : n < 0xD800 ∨ 0xDFFF < n) : Reader.unitChar n = Char.ofNat n := by
  have noHalf : (Reader.isHighHalf n || Reader.isLowHalf n) = false := by
    simp only [Reader.isHighHalf, Reader.isLowHalf, Bool.or_eq_false_iff, Bool.and_eq_false_iff, decide_eq_false_iff_not]
    omega
  rw [Reader.unitChar, noHalf]
  rfl

/-- The bytes of a code point are read as its character. -/
theorem ofUtf8_codeOctets {n : Nat} (code : n ≤ 0x10FFFF) (rest : List Octet) :
    ofUtf8 (codeOctets n ++ rest) = (Reader.unitChar n :: ·) <$> ofUtf8 rest := by
  unfold codeOctets
  split
  · rename_i one
    rw [List.singleton_append, ofUtf8.eq_def]
    simp only [one, if_true, unitChar_eq_ofNat (show n < 0xD800 ∨ 0xDFFF < n by omega)]
  · split
    · have lead : ¬ 0xC0 + n / 0x40 < 0x80 := by omega
      have two : 0xC2 ≤ 0xC0 + n / 0x40 ∧ 0xC0 + n / 0x40 ≤ 0xDF := by omega
      have same : (0xC0 + n / 0x40) % 0x20 * 0x40 + n % 0x40 = n := by omega
      rw [List.cons_append, List.singleton_append, ofUtf8.eq_def]
      simp [lead, two, isContinuation_continuation, continuation_mod, same]
    · split
      · have lead : ¬ 0xE0 + n / 0x1000 < 0x80 := by omega
        have notTwo : ¬ 0xE0 + n / 0x1000 ≤ 0xDF := by omega
        have three : 0xE0 ≤ 0xE0 + n / 0x1000 ∧ 0xE0 + n / 0x1000 ≤ 0xEF := by omega
        have same : (0xE0 + n / 0x1000) % 0x10 * 0x1000 + n / 0x40 % 0x40 * 0x40 + n % 0x40 = n := by omega
        have long : ¬ n < 0x800 := by omega
        rw [List.cons_append, List.cons_append, List.singleton_append, ofUtf8.eq_def]
        simp [lead, notTwo, three, isContinuation_continuation, continuation_mod, same, long]
      · have lead : ¬ 0xF0 + n / 0x40000 < 0x80 := by omega
        have notTwo : ¬ 0xF0 + n / 0x40000 ≤ 0xDF := by omega
        have notThree : ¬ 0xF0 + n / 0x40000 ≤ 0xEF := by omega
        have four : ¬ 0xF0 + n / 0x40000 < 0xF0 ∧ ¬ 0xF4 < 0xF0 + n / 0x40000 := by omega
        have same : (0xF0 + n / 0x40000) % 0x08 * 0x40000 + n / 0x1000 % 0x40 * 0x1000 + n / 0x40 % 0x40 * 0x40 +
          n % 0x40 = n := by omega
        have long : ¬ n < 0x10000 := by omega
        have small : ¬ 0x10FFFF < n := by omega
        rw [unitChar_eq_ofNat (by omega)]
        rw [List.cons_append, List.cons_append, List.cons_append, List.singleton_append, ofUtf8.eq_def]
        simp [lead, notTwo, notThree, four, isContinuation_continuation, continuation_mod, same, long, small]

theorem codeOctets_two {a b : Nat} (lead : 0xC2 ≤ a ∧ a ≤ 0xDF) (second : isContinuation b = true) :
    a % 0x20 * 0x40 + b % 0x40 ≤ 0x10FFFF ∧ codeOctets (a % 0x20 * 0x40 + b % 0x40) = [a, b] := by
  rw [isContinuation_iff] at second
  have low : ¬ a % 0x20 * 0x40 + b % 0x40 < 0x80 := by omega
  have high : a % 0x20 * 0x40 + b % 0x40 < 0x800 := by omega
  have first : 0xC0 + (a % 0x20 * 0x40 + b % 0x40) / 0x40 = a := by omega
  have last : 0x80 + (a % 0x20 * 0x40 + b % 0x40) % 0x40 = b := by omega
  refine ⟨by omega, ?_⟩
  rw [codeOctets, if_neg low, if_pos high, first, continuation, last]

theorem codeOctets_three {a b c : Nat} (lead : 0xE0 ≤ a ∧ a ≤ 0xEF) (second : isContinuation b = true)
    (third : isContinuation c = true) (long : ¬ a % 0x10 * 0x1000 + b % 0x40 * 0x40 + c % 0x40 < 0x800) :
    a % 0x10 * 0x1000 + b % 0x40 * 0x40 + c % 0x40 ≤ 0x10FFFF ∧
      codeOctets (a % 0x10 * 0x1000 + b % 0x40 * 0x40 + c % 0x40) = [a, b, c] := by
  rw [isContinuation_iff] at second third
  generalize code : a % 0x10 * 0x1000 + b % 0x40 * 0x40 + c % 0x40 = n at long ⊢
  have low : ¬ n < 0x80 := by omega
  have high : n < 0x10000 := by omega
  have first : 0xE0 + n / 0x1000 = a := by omega
  have middle : 0x80 + n / 0x40 % 0x40 = b := by omega
  have last : 0x80 + n % 0x40 = c := by omega
  refine ⟨by omega, ?_⟩
  rw [codeOctets, if_neg low, if_neg long, if_pos high, first, continuation, middle, continuation, last]

theorem codeOctets_four {a b c d : Nat} (lead : ¬ a < 0xF0 ∧ ¬ 0xF4 < a) (second : isContinuation b = true)
    (third : isContinuation c = true) (fourth : isContinuation d = true)
    (long : ¬ a % 0x08 * 0x40000 + b % 0x40 * 0x1000 + c % 0x40 * 0x40 + d % 0x40 < 0x10000) :
    codeOctets (a % 0x08 * 0x40000 + b % 0x40 * 0x1000 + c % 0x40 * 0x40 + d % 0x40) = [a, b, c, d] := by
  rw [isContinuation_iff] at second third fourth
  generalize code : a % 0x08 * 0x40000 + b % 0x40 * 0x1000 + c % 0x40 * 0x40 + d % 0x40 = n at long
  have low : ¬ n < 0x80 := by omega
  have notTwo : ¬ n < 0x800 := by omega
  have first : 0xF0 + n / 0x40000 = a := by omega
  have second : 0x80 + n / 0x1000 % 0x40 = b := by omega
  have third : 0x80 + n / 0x40 % 0x40 = c := by omega
  have last : 0x80 + n % 0x40 = d := by omega
  rw [codeOctets, if_neg low, if_neg notTwo, if_neg long, first, continuation, second, continuation, third,
    continuation, last]

/-- Bytes that write code points one after the other, and the characters of the code points. -/
def WritesUtf8 (bs : List Octet) (cs : List Char) : Prop :=
  ∃ codes : List Nat, (∀ n ∈ codes, n ≤ 0x10FFFF) ∧ bs = codes.flatMap codeOctets ∧ cs = codes.map Reader.unitChar

theorem WritesUtf8.cons {n : Nat} {bs rest : List Octet} {cs : List Char} (code : n ≤ 0x10FFFF)
    (first : bs = codeOctets n ++ rest) (written : WritesUtf8 rest cs) : WritesUtf8 bs (Reader.unitChar n :: cs) := by
  obtain ⟨codes, each, rfl, rfl⟩ := written
  exact ⟨n :: codes, List.forall_mem_cons.mpr ⟨code, each⟩, first, rfl⟩

/-- The bytes of code points are read as their characters, and no other bytes are read. -/
theorem ofUtf8_eq_some_iff {bs : List Octet} {cs : List Char} : ofUtf8 bs = some cs ↔ WritesUtf8 bs cs := by
  constructor
  · intro read
    -- The cases of the reader that fail have nothing to show; one of the others is a code point each.
    fun_induction ofUtf8 bs generalizing cs with
    | case1 =>
      cases read
      exact ⟨[], List.forall_mem_nil _, rfl, rfl⟩
    | case2 a rest one ih =>
      obtain ⟨others, readRest, rfl⟩ := Option.map_eq_some_iff.mp read
      rw [← unitChar_eq_ofNat (.inl (Nat.lt_trans one (by decide)))]
      exact (ih readRest).cons (Nat.le_trans (Nat.le_of_lt one) (by decide)) (by rw [codeOctets, if_pos one]; rfl)
    | case5 a _ b rest second lead ih =>
      obtain ⟨others, readRest, rfl⟩ := Option.map_eq_some_iff.mp read
      simp only [Bool.and_eq_true, decide_eq_true_eq, Bool.not_eq_true, Bool.not_eq_false'] at lead second
      obtain ⟨code, octets⟩ := codeOctets_two lead second
      exact (ih readRest).cons code (by rw [octets]; rfl)
    | case9 a _ b second _ c rest third lead n long =>
      rename_i ih
      obtain ⟨others, readRest, rfl⟩ := Option.map_eq_some_iff.mp read
      simp only [Bool.and_eq_true, decide_eq_true_eq, Bool.not_eq_true, Bool.not_eq_false'] at lead second third
      obtain ⟨code, octets⟩ := codeOctets_three lead second third long
      exact (ih readRest).cons code (by rw [octets]; rfl)
    | case12 a _ b second _ c third _ d rest n fits =>
      rename_i ih
      obtain ⟨others, readRest, rfl⟩ := Option.map_eq_some_iff.mp read
      simp only [Bool.or_eq_true, decide_eq_true_eq, Bool.not_eq_true', Bool.not_eq_false, not_or] at fits second third
      obtain ⟨⟨⟨⟨fourth, least⟩, most⟩, long⟩, code⟩ := fits
      have above : 0xDFFF < n := Nat.lt_of_lt_of_le (by decide) (Nat.not_lt.mp long)
      rw [← unitChar_eq_ofNat (.inr above)]
      have octets := codeOctets_four ⟨least, most⟩ second third fourth long
      exact (ih readRest).cons (Nat.not_lt.mp code) (by rw [octets]; rfl)
    | _ => cases read
  · rintro ⟨codes, each, rfl, rfl⟩
    induction codes with
    | nil => rfl
    | cons n rest ih =>
      rw [List.forall_mem_cons] at each
      rw [List.flatMap_cons, ofUtf8_codeOctets each.1, ih each.2]
      rfl

theorem unitChar_toNat (c : Char) : c.toNat ≤ 0x10FFFF ∧ Reader.unitChar c.toNat = c := by
  have valid : c.toNat < 0xD800 ∨ 0xDFFF < c.toNat ∧ c.toNat < 0x110000 := c.valid
  refine ⟨by omega, ?_⟩
  rw [unitChar_eq_ofNat (by omega), Char.ofNat_toNat]

/-- A text is read from its bytes. -/
theorem ofUtf8_octets (cs : List Char) : ofUtf8 (Text.octets cs) = some cs := by
  refine ofUtf8_eq_some_iff.mpr ⟨cs.map Char.toNat, ?_, ?_, ?_⟩
  · exact List.forall_mem_map.mpr fun c _ => (unitChar_toNat c).1
  · rw [List.flatMap_map]
    rfl
  · rw [List.map_map]
    exact (List.map_id'' (fun c => (unitChar_toNat c).2) cs).symm

/-! ### UTF-16 and UTF-32 -/

theorem exists_pairs_iff (bigEndian : Bool) (bs : List Octet) :
    (∃ units, pairs bigEndian bs = some units) ↔ 2 ∣ bs.length := by
  fun_induction pairs bigEndian bs with
  | case1 => simp
  | case2 => simp
  | case3 a b rest ih =>
    simp only [Option.map_eq_map, Option.map_eq_some_iff, List.length_cons]
    constructor
    · rintro ⟨_, units, read, -⟩
      have := ih.mp ⟨units, read⟩
      omega
    · intro even
      obtain ⟨units, read⟩ := ih.mpr (by omega)
      exact ⟨_, units, read, rfl⟩

theorem exists_mapM_char?_iff (codes : List Nat) :
    (∃ cs, codes.mapM char? = some cs) ↔ ∀ n ∈ codes, n ≤ 0x10FFFF := by
  induction codes with
  | nil => simp
  | cons n rest ih =>
    rw [List.forall_mem_cons, ← ih, List.mapM_cons]
    by_cases large : 0x10FFFF < n
    · have : ¬ n ≤ 0x10FFFF := by omega
      simp [char?, large, this]
    · have : n ≤ 0x10FFFF := by omega
      cases read : rest.mapM char? <;> simp [char?, large, this]

/-! ### The encoding that bytes show -/

/-- Whether bytes are a text of an encoding: code points in UTF-8, pairs of bytes, or groups of four that
    are code points. -/
def IsText : Encoding → List Octet → Prop
  | utf8, bs => ∃ codes : List Nat, (∀ n ∈ codes, n ≤ 0x10FFFF) ∧ bs = codes.flatMap codeOctets
  | utf16 _, bs => 2 ∣ bs.length
  | utf32 bigEndian, bs => ∃ codes, quads bigEndian bs = some codes ∧ ∀ n ∈ codes, n ≤ 0x10FFFF

theorem exists_decode_iff (encoding : Encoding) (bs : List Octet) :
    (∃ cs, encoding.decode bs = some cs) ↔ encoding.IsText bs := by
  cases encoding with
  | utf8 =>
    show (∃ cs, ofUtf8 bs = some cs) ↔ _
    simp only [ofUtf8_eq_some_iff]
    constructor
    · rintro ⟨_, codes, each, octets, -⟩
      exact ⟨codes, each, octets⟩
    · rintro ⟨codes, each, octets⟩
      exact ⟨_, codes, each, octets, rfl⟩
  | utf16 bigEndian =>
    simp only [IsText, ← exists_pairs_iff bigEndian, decode, Option.map_eq_map, Option.map_eq_some_iff]
    constructor
    · rintro ⟨_, units, read, -⟩
      exact ⟨units, read⟩
    · rintro ⟨units, read⟩
      exact ⟨_, units, read, rfl⟩
  | utf32 bigEndian =>
    simp only [IsText, ← exists_mapM_char?_iff, decode, Option.bind_eq_bind, Option.bind_eq_some_iff]
    constructor
    · rintro ⟨cs, codes, read, chars⟩
      exact ⟨codes, read, cs, chars⟩
    · rintro ⟨codes, read, cs, chars⟩
      exact ⟨cs, codes, read, chars⟩

end Encoding

/-- Bytes cannot be read exactly if they are no text of the encoding that they show. -/
theorem decodeBytes_eq_none_iff (bs : List Octet) :
    decodeBytes bs = none ↔ ¬ (Encoding.detect bs).1.IsText (Encoding.detect bs).2 := by
  rw [← Encoding.exists_decode_iff, not_exists, Option.eq_none_iff_forall_ne_some]
  rfl

end Criteria.Json
