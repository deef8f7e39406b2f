import Mathlib.Data.List.Induction
import Mathlib.Data.List.Pairwise
import Mathlib.Order.Lattice
import Mathlib.Tactic.SplitIfs

/-!
# Fixed windows

A counter that begins at a hit and counts on until it is over; the first hits of it are let through.
Whenever the hits come, at most so many are let through in a window, and at most twice as many in
any stretch of time in which a window is not over (`passed_within`): the stretch meets the window
that is open when it begins, and at most one that begins in it.
-/

namespace FixedWindow

/-- When a window is over, by its start and the time, and how many of its hits are let through. -/
structure Meter (τ : Type) where
  past : τ → τ → Bool
  limit : Nat

structure Window (τ : Type) where
  start : τ
  count : Nat

variable {τ : Type} (m : Meter τ)

/-- The window a hit is counted in, with the hit. -/
def hit (w : Option (Window τ)) (now : τ) : Window τ :=
  match w with
  | some w => if m.past w.start now then ⟨now, 1⟩ else ⟨w.start, w.count + 1⟩
  | none => ⟨now, 1⟩

/-- Hits one after another, with whether each was let through. -/
def run : Option (Window τ) → List τ → List (τ × Bool)
  | _, [] => []
  | w, t :: ts => (t, (hit m w t).count ≤ m.limit) :: run (some (hit m w t)) ts

/-- The window after hits one after another. -/
def windowAfter (w : Option (Window τ)) (ts : List τ) : Option (Window τ) :=
  ts.foldl (fun w t => some (hit m w t)) w

variable {m}

theorem hit_open {w : Window τ} {now : τ} (h : m.past w.start now = false) :
    hit m (some w) now = ⟨w.start, w.count + 1⟩ := by
  rw [hit, h]
  rfl

theorem hit_past {w : Window τ} {now : τ} (h : m.past w.start now = true) :
    hit m (some w) now = ⟨now, 1⟩ := by
  rw [hit, if_pos h]

theorem windowAfter_concat (w : Option (Window τ)) (ts : List τ) (t : τ) :
    windowAfter m w (ts ++ [t]) = some (hit m (windowAfter m w ts) t) := by
  rw [windowAfter, List.foldl_append]
  rfl

variable [LinearOrder τ] {lo hi : τ}

/-- The hits of a stretch that were let through. -/
def passed (lo hi : τ) (r : List (τ × Bool)) : Nat :=
  r.countP fun h => h.2 && decide (lo ≤ h.1) && decide (h.1 ≤ hi)

theorem passed_cons (h : τ × Bool) (r : List (τ × Bool)) :
    passed lo hi (h :: r) =
      passed lo hi r + if h.2 = true ∧ lo ≤ h.1 ∧ h.1 ≤ hi then 1 else 0 := by
  unfold passed
  rw [List.countP_cons]
  simp only [Bool.and_eq_true, decide_eq_true_eq, and_assoc]

/-- Nothing of the stretch is left once it is over. -/
theorem passed_after : ∀ {ts : List τ} {w : Option (Window τ)}, (∀ t ∈ ts, hi < t) →
    passed lo hi (run m w ts) = 0
  | [], _, _ => rfl
  | t :: ts, w, h => by
    rw [run, passed_cons, passed_after fun t' ht' => h t' (List.mem_cons_of_mem t ht'),
      if_neg fun hin => absurd hin.2.2 (not_le.2 (h t List.mem_cons_self))]

/-- A window that begins in the stretch is the last of it. -/
theorem passed_last (hshort : ∀ s t, lo ≤ s → s ≤ t → t ≤ hi → m.past s t = false) :
    ∀ {ts : List τ} {w : Window τ}, lo ≤ w.start → (∀ t ∈ ts, w.start ≤ t) → ts.Pairwise (· ≤ ·) →
      passed lo hi (run m (some w) ts) ≤ m.limit - w.count
  | [], _, _, _, _ => Nat.zero_le _
  | t :: ts, w, hlo, hstart, hsorted => by
    rw [List.pairwise_cons] at hsorted
    have ht := hstart t List.mem_cons_self
    by_cases hend : t ≤ hi
    · have hhit : hit m (some w) t = ⟨w.start, w.count + 1⟩ := by
        simp [hit, hshort w.start t hlo ht hend]
      have ih := passed_last hshort (w := ⟨w.start, w.count + 1⟩) hlo
        (fun t' ht' => hstart t' (List.mem_cons_of_mem t ht')) hsorted.2
      rw [run, passed_cons, hhit]
      simp only [decide_eq_true_eq] at ih ⊢
      split_ifs with hin <;> omega
    · have hafter : ∀ t' ∈ t :: ts, hi < t' := by
        intro t' ht'
        rcases List.mem_cons.1 ht' with rfl | ht'
        · exact not_le.1 hend
        · exact lt_of_lt_of_le (not_le.1 hend) (hsorted.1 t' ht')
      rw [passed_after hafter]
      exact Nat.zero_le _

/-- The window that is open when the stretch begins, and one more. -/
theorem passed_inside (hshort : ∀ s t, lo ≤ s → s ≤ t → t ≤ hi → m.past s t = false) :
    ∀ {ts : List τ} {w : Window τ}, (∀ t ∈ ts, lo ≤ t) → ts.Pairwise (· ≤ ·) →
      passed lo hi (run m (some w) ts) ≤ (m.limit - w.count) + m.limit
  | [], _, _, _ => Nat.zero_le _
  | t :: ts, w, hlo, hsorted => by
    rw [List.pairwise_cons] at hsorted
    by_cases hpast : m.past w.start t = true
    · have hhit := hit_past hpast
      have hlast := passed_last hshort (w := ⟨t, 1⟩) (hlo t List.mem_cons_self) hsorted.1 hsorted.2
      rw [run, passed_cons, hhit]
      simp only [decide_eq_true_eq] at hlast ⊢
      split_ifs with hin <;> omega
    · have hhit := hit_open (by simpa using hpast)
      have ih := passed_inside hshort (w := ⟨w.start, w.count + 1⟩)
        (fun t' ht' => hlo t' (List.mem_cons_of_mem t ht')) hsorted.2
      rw [run, passed_cons, hhit]
      simp only [decide_eq_true_eq] at ih ⊢
      split_ifs with hin <;> omega

/-- However the hits come, at most twice the limit is let through in a stretch no longer than a
window. -/
theorem passed_within (hshort : ∀ s t, lo ≤ s → s ≤ t → t ≤ hi → m.past s t = false) :
    ∀ {ts : List τ} {w : Option (Window τ)}, ts.Pairwise (· ≤ ·) →
      passed lo hi (run m w ts) ≤ 2 * m.limit
  | [], _, _ => Nat.zero_le _
  | t :: ts, w, hsorted => by
    rw [List.pairwise_cons] at hsorted
    rw [run, passed_cons]
    by_cases hlo : lo ≤ t
    · have hin := passed_inside hshort (w := hit m w t)
        (fun t' ht' => le_trans hlo (hsorted.1 t' ht')) hsorted.2
      have hcount : 1 ≤ (hit m w t).count := by
        unfold hit
        split
        · split_ifs
          · exact Nat.le_refl 1
          · exact Nat.succ_le_succ (Nat.zero_le _)
        · exact Nat.le_refl 1
      simp only [decide_eq_true_eq]
      split_ifs <;> omega
    · rw [if_neg fun hin => hlo hin.2.1]
      exact passed_within hshort hsorted.2

/-- A window begins with a hit, and counts no more than the hits since. -/
theorem windowAfter_count {ts : List τ} (hsorted : ts.Pairwise (· ≤ ·)) :
    ∀ w ∈ windowAfter m none ts, w.start ∈ ts ∧ w.count ≤ ts.countP (w.start ≤ ·) := by
  induction ts using List.reverseRecOn with
  | nil => exact fun w hw => nomatch hw
  | append_singleton ts t ih =>
    obtain ⟨hts, -, hlast⟩ := List.pairwise_append.1 hsorted
    have hnew : t ∈ ts ++ [t] ∧ 1 ≤ (ts ++ [t]).countP (t ≤ ·) := by
      rw [List.countP_append, List.countP_singleton]
      simp
    intro w hw
    rw [windowAfter_concat, Option.mem_some_iff] at hw
    subst hw
    rcases hbefore : windowAfter m none ts with _ | w
    · exact hnew
    · obtain ⟨hmem, hcount⟩ := ih hts w hbefore
      by_cases hpast : m.past w.start t = true
      · rw [hit_past hpast]
        exact hnew
      · rw [hit_open (by simpa using hpast), List.countP_append, List.countP_singleton]
        refine ⟨List.mem_append_left _ hmem, ?_⟩
        simp only [hlast w.start hmem t List.mem_cons_self, decide_true, if_true]
        omega

/-- A hit past the limit comes when the limit was reached in a window that was not over. -/
theorem crowded {ts : List τ} {t : τ} (hsorted : (ts ++ [t]).Pairwise (· ≤ ·))
    (h : m.limit < (hit m (windowAfter m none ts) t).count) :
    m.limit = 0 ∨ ∃ s ∈ ts, m.past s t = false ∧ m.limit ≤ ts.countP (s ≤ ·) := by
  rcases hbefore : windowAfter m none ts with _ | w
  · rw [hbefore] at h
    exact .inl (Nat.lt_one_iff.1 h)
  · rw [hbefore] at h
    obtain ⟨hmem, hcount⟩ := windowAfter_count (List.pairwise_append.1 hsorted).1 w hbefore
    by_cases hpast : m.past w.start t = true
    · rw [hit_past hpast] at h
      exact .inl (Nat.lt_one_iff.1 h)
    · have hopen : m.past w.start t = false := by simpa using hpast
      rw [hit_open hopen] at h
      exact .inr ⟨w.start, hmem, hopen, Nat.le_trans (Nat.le_of_lt_succ h) hcount⟩

end FixedWindow
