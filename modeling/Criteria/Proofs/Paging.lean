import Mathlib.Logic.ExistsUnique
import Criteria.Query.Page

/-!
Pages of a result. The pages of a limit are all of one length, the capped limit
(`PageSizes.one_le_cap_iff` says when that is a length), and a page starts as far from
the first row as the pages before it are long (`PageSizes.skip_page`). So a row stands
on the page that its number gives when it is divided by that length
(`PageSizes.holds_page_iff`), and the first pages show what the result begins with
(`PageSizes.walk_page`). Together: the pages of a limit divide every result among them
(`pages_tile`).
-/
namespace Criteria

universe u

namespace Slice

/-- The row of a number, counted from 0, is one of the rows of the slice. -/
def Holds (s : Slice) (row : Int) : Prop := s.skip ≤ row ∧ row < s.skip + s.take

/-- What a slice shows of the rows of a result. -/
def shown {α : Type u} (s : Slice) (rows : List α) : List α := (rows.drop s.skip.toNat).take s.take.toNat

end Slice

section Walk

variable {α : Type u} (page : Int → Slice) (rows : List α)

/-- What the first pages show of a result, one page after the other. -/
def walk (count : Nat) : List α :=
  (List.range count).flatMap fun (before : Nat) => (page (before + 1)).shown rows

theorem walk_succ (count : Nat) :
    walk page rows (count + 1) = walk page rows count ++ (page (count + 1)).shown rows := by
  rw [walk, List.range_succ, List.flatMap_append, List.flatMap_singleton, walk]

/-- Pages divide a result among them. All have as many rows as the first, at least one and at most
    `most`, and no page stands before the first one. Each row, however far the rows go on, stands on
    one page; and who walks the pages sees the rows of the result once and in their order. -/
structure Tiles (most : Int) : Prop where
  take_eq (number : Int) : (page number).take = (page 1).take
  one_le_take (number : Int) : 1 ≤ (page number).take
  take_le (number : Int) : (page number).take ≤ most
  skip_nonneg (number : Int) : 0 ≤ (page number).skip
  before_first (number : Int) (before : number < 1) : page number = page 1
  one_page (row : Int) (nonneg : 0 ≤ row) : ∃! number, 1 ≤ number ∧ (page number).Holds row
  walk_eq (count : Nat) : walk page rows count = rows.take (count * (page 1).take.toNat)
  walk_whole (count : Nat) (enough : rows.length ≤ count) : walk page rows count = rows

end Walk

namespace PageSizes

variable {sizes : PageSizes} {limit number row : Int}

theorem cap_le_most : sizes.cap limit ≤ sizes.most := by
  unfold cap
  split <;> exact Int.min_le_right _ _

theorem one_le_cap_iff : 1 ≤ sizes.cap limit ↔ 1 ≤ sizes.most ∧ (1 ≤ limit ∨ 1 ≤ sizes.usual) := by
  unfold cap
  by_cases unasked : limit ≤ 0
  · rw [if_pos unasked, Int.le_min]
    omega
  · rw [if_neg unasked, Int.le_min]
    omega

/-- The slice of a page of a limit. -/
def page (sizes : PageSizes) (limit number : Int) : Slice := PageRequest.slice sizes ⟨number, limit⟩

theorem skip_page (first : 1 ≤ number) : (sizes.page limit number).skip = (number - 1) * sizes.cap limit := by
  show (max 1 number - 1) * sizes.cap limit = _
  rw [Int.max_eq_right first]

/-- What is skipped is counted in pages as long as they are, not as long as they are asked to be. -/
example : standard.page 5000 3 = ⟨2000, 1000⟩ := by decide

theorem skip_page_nonneg (positive : 1 ≤ sizes.cap limit) : 0 ≤ (sizes.page limit number).skip :=
  Int.mul_nonneg (by omega) (Int.le_of_lt positive)

theorem page_before_first (before : number < 1) : sizes.page limit number = sizes.page limit 1 := by
  unfold page PageRequest.slice
  rw [Int.max_eq_left (Int.le_of_lt before), Int.max_self]

/-- A row stands on the page that its number gives when it is divided by the length of a page. -/
theorem holds_page_iff (positive : 1 ≤ sizes.cap limit) (first : 1 ≤ number) :
    (sizes.page limit number).Holds row ↔ number = row / sizes.cap limit + 1 := by
  have inside : (sizes.page limit number).Holds row ↔ row / sizes.cap limit = number - 1 := by
    rw [Int.ediv_eq_iff_of_pos (by omega), Slice.Holds, skip_page first]
    rfl
  rw [inside]
  omega

theorem existsUnique_page (positive : 1 ≤ sizes.cap limit) (nonneg : 0 ≤ row) :
    ∃! number, 1 ≤ number ∧ (sizes.page limit number).Holds row := by
  have before : 0 ≤ row / sizes.cap limit := Int.ediv_nonneg nonneg (by omega)
  have isPage : 1 ≤ row / sizes.cap limit + 1 := by omega
  refine ⟨row / sizes.cap limit + 1, ⟨isPage, (holds_page_iff positive isPage).mpr rfl⟩, ?_⟩
  rintro number ⟨first, holds⟩
  exact (holds_page_iff positive first).mp holds

/-- The first pages show as many rows as they are long together. -/
theorem walk_page {α : Type u} (positive : 1 ≤ sizes.cap limit) (rows : List α) (count : Nat) :
    walk (sizes.page limit) rows count = rows.take (count * (sizes.cap limit).toNat) := by
  induction count with
  | zero =>
    rw [Nat.zero_mul, List.take_zero]
    rfl
  | succ count ih =>
    -- The next page starts where the pages walked so far stop.
    have behind : (sizes.page limit (count + 1)).skip.toNat = count * (sizes.cap limit).toNat := by
      rw [skip_page (by omega), Int.add_sub_cancel, Int.toNat_mul (by omega) (by omega), Int.toNat_natCast]
    rw [walk_succ, ih, Slice.shown, behind, Nat.succ_mul, List.take_add]
    rfl

theorem tiles_page {α : Type u} (positive : 1 ≤ sizes.cap limit) (rows : List α) :
    Tiles (sizes.page limit) rows sizes.most where
  take_eq _ := rfl
  one_le_take _ := positive
  take_le _ := cap_le_most
  skip_nonneg _ := skip_page_nonneg positive
  before_first _ := page_before_first
  one_page _ := existsUnique_page positive
  walk_eq := walk_page positive rows
  walk_whole count enough := by
    have atLeast : count * 1 ≤ count * (sizes.cap limit).toNat := Nat.mul_le_mul_left count (by omega)
    rw [walk_page positive, List.take_of_length_le (by omega)]

end PageSizes

/-- Where nothing is said about page sizes, the pages of a limit divide every result among them, whatever
    number the limit is. With any page sizes they do so exactly if a page can have a row at all and,
    where the limit asks for none, the usual page has one. -/
theorem pages_tile {α : Type u} (limit : Int) (rows : List α) :
    Tiles (PageSizes.standard.page limit) rows PageSizes.standard.most ∧
      ∀ sizes : PageSizes, Tiles (sizes.page limit) rows sizes.most ↔
        1 ≤ sizes.most ∧ (1 ≤ limit ∨ 1 ≤ sizes.usual) := by
  constructor
  · have positive : 1 ≤ PageSizes.standard.cap limit := PageSizes.one_le_cap_iff.mpr ⟨by decide, .inr (by decide)⟩
    exact PageSizes.tiles_page positive rows
  · intro sizes
    constructor
    · intro tiles
      exact PageSizes.one_le_cap_iff.mp (tiles.one_le_take 1)
    · intro sized
      exact PageSizes.tiles_page (PageSizes.one_le_cap_iff.mpr sized) rows

end Criteria
