import Mathlib.Data.List.Basic
import Mathlib.Tactic.SplitIfs

/-!
# Searching a text

The first occurrence of a mark splits a text (`breakOn`), and no occurrence is earlier
(`breakOn_first`).  A scan that looks at one place after another and goes on behind each match
(`segments`) finds every place that matches, where no match begins inside another (`mem_segments`).
-/

namespace Search

variable {α β : Type}

section Marks

variable [DecidableEq α]

/-- What follows the mark at the front of a text. -/
def after : List α → List α → Option (List α)
  | [], s => some s
  | _ :: _, [] => none
  | m :: ms, c :: s => if m = c then after ms s else none

/-- A text before and after the first occurrence of the mark. -/
def breakOn (mark : List α) : List α → Option (List α × List α)
  | [] => (after mark []).map ([], ·)
  | c :: s =>
    match after mark (c :: s) with
    | some rest => some ([], rest)
    | none => (breakOn mark s).map fun r => (c :: r.1, r.2)

def occurs (mark s : List α) : Bool := (breakOn mark s).isSome

/-- The mark behind the text occurs there for the first time. -/
def EndsAt (mark s : List α) : Prop := ∀ x y, s ++ mark = x ++ (mark ++ y) → y = []

theorem after_eq_some : ∀ {mark s rest : List α}, after mark s = some rest ↔ s = mark ++ rest
  | [], s, rest => by simp [after]
  | m :: ms, [], rest => by simp [after]
  | m :: ms, c :: s, rest => by
    unfold after
    split_ifs with hc
    · rw [after_eq_some, hc, List.cons_append, List.cons.injEq, and_iff_right rfl]
    · simp only [List.cons_append, List.cons.injEq, false_iff]
      rintro ⟨rfl, -⟩
      exact hc rfl

theorem breakOn_eq : ∀ {mark s before rest : List α}, breakOn mark s = some (before, rest) →
    s = before ++ (mark ++ rest)
  | mark, [], before, rest, h => by
    simp only [breakOn, Option.map_eq_some_iff, Prod.mk.injEq] at h
    obtain ⟨r, hr, rfl, rfl⟩ := h
    rw [List.nil_append]
    exact after_eq_some.1 hr
  | mark, c :: s, before, rest, h => by
    unfold breakOn at h
    split at h
    · next r hr =>
      simp only [Option.some.injEq, Prod.mk.injEq] at h
      obtain ⟨rfl, rfl⟩ := h
      rw [List.nil_append]
      exact after_eq_some.1 hr
    · simp only [Option.map_eq_some_iff, Prod.mk.injEq, Prod.exists] at h
      obtain ⟨b, r, hbr, rfl, rfl⟩ := h
      rw [List.cons_append, ← breakOn_eq hbr]

/-- No occurrence is before the one found. -/
theorem breakOn_first : ∀ {mark s before rest x y : List α}, breakOn mark s = some (before, rest) →
    s = x ++ (mark ++ y) → before.length ≤ x.length
  | mark, [], before, rest, x, y, h, _ => by
    simp only [breakOn, Option.map_eq_some_iff, Prod.mk.injEq] at h
    obtain ⟨r, hr, rfl, rfl⟩ := h
    exact Nat.zero_le _
  | mark, c :: s, before, rest, x, y, h, hs => by
    unfold breakOn at h
    split at h
    · simp only [Option.some.injEq, Prod.mk.injEq] at h
      obtain ⟨rfl, rfl⟩ := h
      exact Nat.zero_le _
    · next hnone =>
      simp only [Option.map_eq_some_iff, Prod.mk.injEq, Prod.exists] at h
      obtain ⟨b, r, hbr, rfl, rfl⟩ := h
      cases x with
      | nil =>
        rw [List.nil_append] at hs
        rw [after_eq_some.2 hs] at hnone
        cases hnone
      | cons d x =>
        have := breakOn_first hbr (List.cons.inj hs).2
        simpa using this

theorem breakOn_endsAt {mark s before rest : List α} (h : breakOn mark s = some (before, rest)) :
    EndsAt mark before := by
  intro x y hxy
  have hs : s = x ++ (mark ++ (y ++ rest)) := by
    rw [breakOn_eq h, ← List.append_assoc, hxy]
    simp only [List.append_assoc]
  have hle := breakOn_first h hs
  have hlen := congrArg List.length hxy
  simp only [List.length_append] at hlen
  exact List.length_eq_zero_iff.1 (by omega)

theorem breakOn_none : ∀ {mark s : List α}, breakOn mark s = none → ∀ x y, s ≠ x ++ (mark ++ y)
  | mark, [], h, x, y => by
    intro hs
    obtain ⟨rfl, hy⟩ := List.append_eq_nil_iff.1 hs.symm
    simp [breakOn, after_eq_some.2 hy.symm] at h
  | mark, c :: s, h, x, y => by
    intro hs
    unfold breakOn at h
    split at h
    · cases h
    · next hnone =>
      cases x with
      | nil =>
        rw [List.nil_append] at hs
        rw [after_eq_some.2 hs] at hnone
        cases hnone
      | cons d x => exact breakOn_none (by simpa using h) x y (List.cons.inj hs).2

theorem occurs_eq_false {mark s : List α} (h : occurs mark s = false) :
    ¬ mark <:+: s := by
  rintro ⟨x, y, hxy⟩
  have hnone : breakOn mark s = none := by simpa [occurs] using h
  exact breakOn_none hnone x y (by rw [← hxy, List.append_assoc])

end Marks

section Pieces

/-- A text in segments, from where so many of its characters are to be passed over: a match is given
with its length, and the scan goes on behind it. -/
def segments (m : List α → Option (β × Nat)) : Nat → List α → List (α ⊕ β)
  | _, [] => []
  | k + 1, _ :: s => segments m k s
  | 0, c :: s =>
    match m (c :: s) with
    | some (b, n) => .inr b :: segments m (n - 1) s
    | none => .inl c :: segments m 0 s

/-- No match begins inside another. -/
def Apart (m : List α → Option (β × Nat)) : Prop :=
  ∀ s b n, m s = some (b, n) → ∀ k, 0 < k → k < n → m (s.drop k) = none

theorem mem_segments {m : List α → Option (β × Nat)} (h : Apart m) {b : β} {n : Nat} :
    ∀ {s : List α} {k : Nat} {x y : List α}, (∀ i < k, m (s.drop i) = none) → s = x ++ y →
      y ≠ [] → m y = some (b, n) → .inr b ∈ segments m k s
  | [], _, x, y, _, hs, hy, _ => by
    obtain ⟨-, rfl⟩ := List.append_eq_nil_iff.1 hs.symm
    exact absurd rfl hy
  | c :: s, k, [], y, hk, hs, _, hm => by
    rw [List.nil_append] at hs
    subst hs
    cases k with
    | zero =>
      unfold segments
      rw [hm]
      exact List.mem_cons_self
    | succ k =>
      have := hk 0 (Nat.zero_lt_succ k)
      rw [List.drop_zero, hm] at this
      cases this
  | c :: s, k, d :: x, y, hk, hs, hy, hm => by
    have hrest := (List.cons.inj hs).2
    cases k with
    | zero =>
      unfold segments
      split
      · next b' n' hmatch =>
        refine List.mem_cons_of_mem _ (mem_segments h (fun i hi => ?_) hrest hy hm)
        exact h _ _ _ hmatch (i + 1) (Nat.zero_lt_succ i) (by omega)
      · exact List.mem_cons_of_mem _ (mem_segments h (fun i hi => absurd hi (Nat.not_lt_zero i))
          hrest hy hm)
    | succ k =>
      show .inr b ∈ segments m k s
      exact mem_segments h (fun i hi => hk (i + 1) (by omega)) hrest hy hm

end Pieces

end Search
