import Mathlib.Data.List.Basic
import Mathlib.Order.Lattice

/-!
# Paging by key

A table read page by page, each page what comes next after the last key of the page before
(`Pages`).  Over rows in the order of their keys the reading ends, and the pages put together are the
rows after the first cursor (`Pages.flatten`), whether or not the last page is a full one.
-/

namespace Keyset

variable {α κ : Type} [LinearOrder κ] (key : α → κ)

/-- The rows whose key is past the cursor. -/
def past (rows : List α) (cursor : κ) : List α := rows.filter (cursor < key ·)

/-- The pages of `n` rows that a reading from the cursor gets: it stops at a page with nothing on
it, which is dropped, or at one that is not full. -/
inductive Pages (rows : List α) (n : Nat) : κ → List (List α) → Prop
  | nothing {cursor} (none : (past key rows cursor).take n = []) : Pages rows n cursor []
  | short {cursor} (some : (past key rows cursor).take n ≠ [])
      (few : ((past key rows cursor).take n).length < n) :
      Pages rows n cursor [(past key rows cursor).take n]
  | full {cursor last pages} (ends : ((past key rows cursor).take n).getLast? = some last)
      (many : ¬ ((past key rows cursor).take n).length < n) (rest : Pages rows n (key last) pages) :
      Pages rows n cursor ((past key rows cursor).take n :: pages)

variable {key} {rows : List α} {n : Nat} {cursor : κ} {pages : List (List α)}

theorem past_past {c c' : κ} (h : c ≤ c') : past key (past key rows c) c' = past key rows c' := by
  unfold past
  rw [List.filter_filter]
  refine List.filter_congr fun r _ => ?_
  rw [Bool.and_eq_left_iff_imp]
  simp only [decide_eq_true_eq]
  exact h.trans_lt

theorem mem_past {r : α} : r ∈ past key rows cursor ↔ r ∈ rows ∧ cursor < key r := by
  simp [past]

/-- What is past the last row of a page is what the page left. -/
theorem past_getLast (hsorted : (past key rows cursor).Pairwise (key · < key ·)) {last : α}
    (hlast : ((past key rows cursor).take n).getLast? = some last) :
    past key rows (key last) = (past key rows cursor).drop n := by
  have hmem : last ∈ (past key rows cursor).take n := List.mem_of_getLast? hlast
  have hcursor : cursor ≤ key last := (mem_past.1 (List.mem_of_mem_take hmem)).2.le
  rw [← past_past hcursor]
  generalize hl : past key rows cursor = l at *
  rw [← List.take_append_drop n l, List.pairwise_append] at hsorted
  obtain ⟨htake, -, hcross⟩ := hsorted
  obtain ⟨front, hfront⟩ := List.getLast?_eq_some_iff.1 hlast
  have hbefore : ∀ r ∈ l.take n, ¬ key last < key r := by
    intro r hr
    rw [hfront] at hr htake
    rcases List.mem_append.1 hr with hr | hr
    · exact ((List.pairwise_append.1 htake).2.2 r hr last (by simp)).not_gt
    · rw [List.mem_singleton.1 hr]
      exact lt_irrefl _
  have hsplit : past key l (key last) =
      (l.take n).filter (key last < key ·) ++ (l.drop n).filter (key last < key ·) := by
    rw [← List.filter_append, List.take_append_drop]
    rfl
  rw [hsplit, List.filter_eq_nil_iff.2 fun r hr => by simpa using hbefore r hr, List.nil_append]
  exact List.filter_eq_self.2 fun r hr => by simpa using hcross last hmem r hr

theorem Pages.flatten (hsorted : rows.Pairwise (key · < key ·)) (h : Pages key rows n cursor pages)
    (hn : 0 < n) : pages.flatten = past key rows cursor := by
  induction h with
  | nothing none =>
    rcases List.take_eq_nil_iff.1 none with hn' | hnil
    · omega
    · rw [hnil, List.flatten_nil]
  | short some few =>
    rw [List.flatten_singleton]
    rw [List.length_take] at few
    exact List.take_of_length_le (by omega)
  | full ends many rest ih =>
    rw [List.flatten_cons, ih, past_getLast (hsorted.filter _) ends, List.take_append_drop]

theorem Pages.ne_nil (h : Pages key rows n cursor pages) : ∀ page ∈ pages, page ≠ [] := by
  induction h with
  | nothing none => simp
  | short some few => simpa using some
  | full ends many rest ih =>
    intro page hpage
    rcases List.mem_cons.1 hpage with rfl | hpage
    · rintro hnil
      rw [hnil] at ends
      cases ends
    · exact ih page hpage

theorem length_le_flatten : ∀ {pages : List (List α)}, (∀ page ∈ pages, page ≠ []) →
    pages.length ≤ pages.flatten.length
  | [], _ => Nat.le_refl 0
  | page :: pages, h => by
    have hpage := List.length_pos_iff.2 (h page List.mem_cons_self)
    have hrest := length_le_flatten fun p hp => h p (List.mem_cons_of_mem _ hp)
    rw [List.flatten_cons, List.length_append, List.length_cons]
    omega

/-- There are no more pages than rows. -/
theorem Pages.length_le (hsorted : rows.Pairwise (key · < key ·))
    (h : Pages key rows n cursor pages) (hn : 0 < n) : pages.length ≤ rows.length := by
  refine Nat.le_trans (length_le_flatten h.ne_nil) ?_
  rw [h.flatten hsorted hn]
  exact List.length_filter_le _ _

theorem exists_pages (hsorted : rows.Pairwise (key · < key ·)) (hn : 0 < n) (cursor : κ) :
    ∃ pages, Pages key rows n cursor pages := by
  induction hk : (past key rows cursor).length using Nat.strongRecOn generalizing cursor with
  | ind k ih =>
    by_cases hnone : (past key rows cursor).take n = []
    · exact ⟨[], .nothing hnone⟩
    by_cases hfew : ((past key rows cursor).take n).length < n
    · exact ⟨_, .short hnone hfew⟩
    · obtain ⟨last, hlast⟩ := Option.isSome_iff_exists.1 (List.getLast?_isSome.2 hnone)
      have hdrop := past_getLast (hsorted.filter _) hlast
      rw [List.length_take] at hfew
      obtain ⟨pages, hpages⟩ := ih _ (by rw [hdrop, List.length_drop]; omega) (key last) rfl
      exact ⟨_, .full hlast (by rw [List.length_take]; omega) hpages⟩

end Keyset
