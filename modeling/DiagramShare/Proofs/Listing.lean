import DiagramShare.Repository.Tables
import Mathlib.Data.List.Sort
import Mathlib.Data.List.Pairwise

/-! Listings. Rows lie in the order of their insertion, and a listing shows the newest first; so long
as the order of insertion agrees with the order of the keys, a listing is a window of the reversed
rows. -/
namespace DiagramShare.Repository

open DiagramShare.Time (Instant)

theorem mergeSort_eq_reverse {rows : List α} {le : α → α → Bool}
    (trans : ∀ a b c, le a b = true → le b c = true → le a c = true)
    (total : ∀ a b, (le a b || le b a) = true)
    (rising : rows.Pairwise fun a b => le b a = true ∧ le a b = false) :
    rows.mergeSort le = rows.reverse := by
  let Apart (a b : α) : Prop := ¬ (le a b = true ∧ le b a = true)
  have apart : rows.Pairwise Apart := by
    refine rising.imp ?_
    rintro a b ⟨_, below⟩ ⟨above, _⟩
    rw [below] at above
    cases above
  have symm : Std.Symm Apart := ⟨fun _ _ h both => h both.symm⟩
  have falling : rows.reverse.Pairwise fun a b => le a b = true :=
    List.pairwise_reverse.mpr (rising.imp And.left)
  refine List.Perm.eq_of_pairwise ?_ (List.pairwise_mergeSort trans total rows) falling
    ((List.mergeSort_perm rows le).trans (List.reverse_perm rows).symm)
  intro a b ha hb below above
  have ha := (List.mergeSort_perm rows le).mem_iff.mp ha
  have hb := List.mem_reverse.mp hb
  by_contra other
  exact apart.forall ha hb other ⟨below, above⟩

theorem clamp_of_mem {lo hi n : Int} (above : lo ≤ n) (below : n ≤ hi) :
    Access.clamp lo hi n = n := by
  simp only [Access.clamp]
  omega

theorem normalize_bounds (query : Access.PageQuery) :
    1 ≤ query.normalize.number ∧ 1 ≤ query.normalize.limit ∧
      query.normalize.limit ≤ Access.maxPageSize := by
  simp only [Access.PageQuery.normalize, Access.clamp, Access.maxPageSize]
  omega

theorem offset_nonneg (query : Access.PageQuery) : 0 ≤ query.normalize.offset := by
  obtain ⟨number, limit, _⟩ := normalize_bounds query
  have product : 0 ≤ (query.normalize.number - 1) * query.normalize.limit :=
    Int.mul_nonneg (by omega) (by omega)
  simp only [Access.Page.offset, Access.maxCount]
  omega

theorem window_page (query : Access.PageQuery) (rows : List α) :
    window query.normalize.limit query.normalize.offset rows =
      (rows.drop query.normalize.offset.toNat).take query.normalize.limit.toNat := by
  obtain ⟨_, above, below⟩ := normalize_bounds query
  have start := offset_nonneg query
  have limit : Access.clamp 1 Access.maxPageSize query.normalize.limit = query.normalize.limit :=
    clamp_of_mem above below
  have offset : max 0 query.normalize.offset = query.normalize.offset := by omega
  simp only [window, Access.clampWindow, limit, offset]

end DiagramShare.Repository
