import Mathlib.Data.List.Basic
import Mathlib.Data.List.InsertIdx
import Mathlib.Data.List.NodupEquivFin

/-!
# Places

Things in groups, each thing with a number in its group.  A list lays a group out when its elements
are numbered from one in its order (`LaidOut`); it lists the group when it has its elements in the
order of their numbers, gaps or none (`Listed`).  Renumbering a list of a group lays it out.

Which of two elements of a list comes first (`Before`) is not changed by a third one that is taken
out or put in.
-/

namespace Places

section Before

variable {α : Type} {l : List α} {a b c : α}

/-- `a` comes before `b` in the list. -/
def Before (l : List α) (a b : α) : Prop := ∃ i j : Nat, i < j ∧ l[i]? = some a ∧ l[j]? = some b

theorem before_iff_sublist : Before l a b ↔ [a, b].Sublist l := by
  constructor
  · rintro ⟨i, j, hij, ha, hb⟩
    obtain ⟨hi, rfl⟩ := List.getElem?_eq_some_iff.1 ha
    have hmem : b ∈ l.drop (i + 1) := by
      refine List.mem_iff_getElem?.2 ⟨j - (i + 1), ?_⟩
      rw [List.getElem?_drop, Nat.add_sub_cancel' hij]
      exact hb
    have hcons : (l[i] :: l.drop (i + 1)).Sublist l := by
      rw [← List.drop_eq_getElem_cons hi]
      exact List.drop_sublist i l
    exact ((List.singleton_sublist.2 hmem).cons_cons _).trans hcons
  · intro h
    obtain ⟨f, hf⟩ := List.sublist_iff_exists_orderEmbedding_getElem?_eq.1 h
    exact ⟨f 0, f 1, f.lt_iff_lt.2 Nat.one_pos, (hf 0).symm, (hf 1).symm⟩

theorem before_filter (p : α → Bool) :
    Before (l.filter p) a b ↔ Before l a b ∧ p a = true ∧ p b = true := by
  simp only [before_iff_sublist]
  constructor
  · intro h
    have ha := List.mem_filter.1 (h.subset (by simp : a ∈ [a, b]))
    have hb := List.mem_filter.1 (h.subset (by simp : b ∈ [a, b]))
    exact ⟨h.trans List.filter_sublist, ha.2, hb.2⟩
  · rintro ⟨h, ha, hb⟩
    simpa [ha, hb] using h.filter p

variable [DecidableEq α]

theorem filter_insertIdx (a : α) : ∀ (l : List α) (i : Nat),
    (l.insertIdx i a).filter (· ≠ a) = l.filter (· ≠ a)
  | l, 0 => by simp
  | [], i + 1 => by simp
  | b :: l, i + 1 => by
    rw [List.insertIdx_succ_cons, List.filter_cons, List.filter_cons, filter_insertIdx a l i]

theorem filter_ne_of_notMem (h : a ∉ l) : l.filter (· ≠ a) = l := by
  refine List.filter_eq_self.2 fun b hb => decide_eq_true ?_
  rintro rfl
  exact h hb

theorem before_insertIdx {i : Nat} (hb : b ≠ a) (hc : c ≠ a) :
    Before (l.insertIdx i a) b c ↔ Before l b c := by
  have kept := before_filter (l := l.insertIdx i a) (a := b) (b := c) (· ≠ a)
  rw [filter_insertIdx, before_filter] at kept
  simpa [hb, hc] using kept.symm

theorem before_cons (hb : b ≠ a) (hc : c ≠ a) : Before (a :: l) b c ↔ Before l b c :=
  before_insertIdx (i := 0) hb hc

end Before

section Layout

variable {κ γ : Type} {spot spot' : κ → Option (γ × Nat)} {g g' : γ} {l : List κ} {a b : κ}

/-- The list is the group, numbered from one in its order. -/
def LaidOut (spot : κ → Option (γ × Nat)) (g : γ) (l : List κ) : Prop :=
  ∀ a n, spot a = some (g, n) ↔ ∃ i, l[i]? = some a ∧ n = i + 1

/-- The list is the group, in the order of its numbers. -/
structure Listed (spot : κ → Option (γ × Nat)) (g : γ) (l : List κ) : Prop where
  mem : ∀ a, a ∈ l ↔ ∃ n, spot a = some (g, n)
  sorted : l.Pairwise fun a b => ∀ m n, spot a = some (g, m) → spot b = some (g, n) → m < n

theorem LaidOut.unique (h : LaidOut spot g l) {i j : Nat} (hi : l[i]? = some a)
    (hj : l[j]? = some a) : i = j := by
  have hspot := (h a (i + 1)).2 ⟨i, hi, rfl⟩
  have hspot' := (h a (j + 1)).2 ⟨j, hj, rfl⟩
  rw [hspot, Option.some.injEq, Prod.mk.injEq] at hspot'
  omega

theorem LaidOut.nodup (h : LaidOut spot g l) : l.Nodup := by
  rw [List.nodup_iff_getElem?_ne_getElem?]
  intro i j hij hj heq
  rw [List.getElem?_eq_getElem hj] at heq
  exact Nat.ne_of_lt hij (h.unique heq (List.getElem?_eq_getElem hj))

theorem LaidOut.mem (h : LaidOut spot g l) : a ∈ l ↔ ∃ n, spot a = some (g, n) := by
  rw [List.mem_iff_getElem?]
  constructor
  · rintro ⟨i, hi⟩
    exact ⟨i + 1, (h a (i + 1)).2 ⟨i, hi, rfl⟩⟩
  · rintro ⟨n, hn⟩
    obtain ⟨i, hi, -⟩ := (h a n).1 hn
    exact ⟨i, hi⟩

theorem LaidOut.listed (h : LaidOut spot g l) : Listed spot g l := by
  refine ⟨fun a => h.mem, List.pairwise_iff_getElem.2 fun i j hi hj hij m n hm hn => ?_⟩
  obtain ⟨i', hi', rfl⟩ := (h _ _).1 hm
  obtain ⟨j', hj', rfl⟩ := (h _ _).1 hn
  have := h.unique (List.getElem?_eq_getElem hi) hi'
  have := h.unique (List.getElem?_eq_getElem hj) hj'
  omega

/-- The numbers compare as the places in the list do. -/
theorem LaidOut.before (h : LaidOut spot g l) {m n : Nat} (ha : spot a = some (g, m))
    (hb : spot b = some (g, n)) : m < n ↔ Before l a b := by
  obtain ⟨i, hi, rfl⟩ := (h a m).1 ha
  obtain ⟨j, hj, rfl⟩ := (h b n).1 hb
  constructor
  · exact fun hij => ⟨i, j, by omega, hi, hj⟩
  · rintro ⟨i', j', hij, hi', hj'⟩
    have := h.unique hi hi'
    have := h.unique hj hj'
    omega

theorem LaidOut.congr (h : LaidOut spot g l)
    (heq : ∀ a n, spot' a = some (g, n) ↔ spot a = some (g, n)) : LaidOut spot' g l :=
  fun a n => (heq a n).trans (h a n)

theorem LaidOut.nil (h : ∀ a n, spot a ≠ some (g, n)) : LaidOut spot g [] := by
  intro a n
  constructor
  · exact fun hn => absurd hn (h a n)
  · rintro ⟨i, hi, -⟩
    simp at hi

/-- Everyone moved up by one, and a new element first. -/
theorem LaidOut.cons (h : LaidOut spot g l) (hnew : b ∉ l) (hfirst : spot' b = some (g, 1))
    (hshift : ∀ a n, a ≠ b → (spot' a = some (g, n) ↔ ∃ m, spot a = some (g, m) ∧ n = m + 1)) :
    LaidOut spot' g (b :: l) := by
  intro a n
  by_cases hab : a = b
  · subst hab
    rw [hfirst]
    constructor
    · intro heq
      cases heq
      exact ⟨0, rfl, rfl⟩
    · rintro ⟨_ | j, hj, rfl⟩
      · rfl
      · exact absurd (List.mem_of_getElem? (List.getElem?_cons_succ ▸ hj)) hnew
  · rw [hshift a n hab]
    constructor
    · rintro ⟨m, hm, rfl⟩
      obtain ⟨i, hi, rfl⟩ := (h a m).1 hm
      exact ⟨i + 1, hi, rfl⟩
    · rintro ⟨_ | j, hj, rfl⟩
      · exact absurd (Option.some.inj hj).symm hab
      · exact ⟨j + 1, (h a (j + 1)).2 ⟨j, hj, rfl⟩, rfl⟩

theorem Listed.nodup (h : Listed spot g l) : l.Nodup := by
  refine h.sorted.imp_of_mem fun {a b} ha _ hab => ?_
  rintro rfl
  obtain ⟨n, hn⟩ := (h.mem a).1 ha
  exact Nat.lt_irrefl n (hab n n hn hn)

/-- A group has one listing. -/
theorem Listed.eq_of_sorted (h : Listed spot g l) {l' : List κ} (hnodup : l'.Nodup)
    (hmem : ∀ a, a ∈ l' ↔ ∃ n, spot a = some (g, n))
    (hsorted : l'.Pairwise fun a b => ∀ m n, spot a = some (g, m) → spot b = some (g, n) → m ≤ n) :
    l' = l := by
  have hperm : l'.Perm l :=
    (List.perm_ext_iff_of_nodup hnodup h.nodup).2 fun a => (hmem a).trans (h.mem a).symm
  refine hperm.eq_of_pairwise (fun a b ha hb hab hba => ?_) hsorted
    (h.sorted.imp fun hlt m n hm hn => Nat.le_of_lt (hlt m n hm hn))
  obtain ⟨m, hm⟩ := (hmem a).1 ha
  obtain ⟨n, hn⟩ := (h.mem b).1 hb
  have hle := hab m n hm hn
  have hge := hba n m hn hm
  obtain ⟨i, hi, rfl⟩ := List.mem_iff_getElem.1 ((hperm.mem_iff).1 ha)
  obtain ⟨j, hj, rfl⟩ := List.mem_iff_getElem.1 hb
  have hpairs := List.pairwise_iff_getElem.1 h.sorted
  rcases Nat.lt_trichotomy i j with hij | rfl | hij
  · have := hpairs i j hi hj hij m n hm hn
    omega
  · rfl
  · have := hpairs j i hj hi hij n m hn hm
    omega

/-- The elements that stay where they are list what is left of the group. -/
theorem Listed.filter (h : Listed spot g l) (p : κ → Bool)
    (hleft : ∀ a, (∃ n, spot' a = some (g, n)) ↔ (∃ n, spot a = some (g, n)) ∧ p a = true)
    (hkept : ∀ a n, spot' a = some (g, n) → spot a = some (g, n)) :
    Listed spot' g (l.filter p) := by
  refine ⟨fun a => ?_, ?_⟩
  · rw [List.mem_filter, h.mem, hleft]
  · exact (h.sorted.sublist List.filter_sublist).imp fun hab m n hm hn =>
      hab m n (hkept _ _ hm) (hkept _ _ hn)

variable [DecidableEq κ]

/-- The numbers of a list's elements set to their places in it. -/
def renumbered (ids : List κ) (spot : κ → Option (γ × Nat)) (a : κ) : Option (γ × Nat) :=
  (spot a).map fun s => if a ∈ ids then (s.1, ids.idxOf a + 1) else s

theorem renumbered_of_notMem {ids : List κ} (h : a ∉ ids) : renumbered ids spot a = spot a := by
  simp [renumbered, h]

/-- Renumbering the elements of a group lays them out. -/
theorem LaidOut.renumbered {ids : List κ} (hnodup : ids.Nodup)
    (hmem : ∀ a, a ∈ ids ↔ ∃ n, spot a = some (g, n)) : LaidOut (renumbered ids spot) g ids := by
  intro a n
  by_cases ha : a ∈ ids
  · obtain ⟨m, hm⟩ := (hmem a).1 ha
    simp only [Places.renumbered, hm, Option.map_some, ha, if_true, Option.some.injEq,
      Prod.mk.injEq, true_and]
    constructor
    · rintro rfl
      exact ⟨_, List.getElem?_idxOf ha, rfl⟩
    · rintro ⟨i, hi, rfl⟩
      obtain ⟨hlt, rfl⟩ := List.getElem?_eq_some_iff.1 hi
      rw [hnodup.idxOf_getElem]
  · rw [renumbered_of_notMem ha]
    constructor
    · exact fun h => absurd ((hmem a).2 ⟨n, h⟩) ha
    · rintro ⟨i, hi, -⟩
      exact absurd (List.mem_of_getElem? hi) ha

/-- Renumbering leaves the other groups as they are. -/
theorem LaidOut.renumbered_of_ne {ids : List κ} (h : LaidOut spot g' l) (hne : g' ≠ g)
    (hmem : ∀ a ∈ ids, ∃ n, spot a = some (g, n)) : LaidOut (Places.renumbered ids spot) g' l := by
  refine h.congr fun a n => ?_
  by_cases ha : a ∈ ids
  · obtain ⟨m, hm⟩ := hmem a ha
    simp [Places.renumbered, hm, ha, Ne.symm hne]
  · rw [renumbered_of_notMem ha]

end Layout

end Places
