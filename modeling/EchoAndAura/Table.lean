import Mathlib.Data.List.AList
import Mathlib.Algebra.BigOperators.Group.List.Lemmas
import Mathlib.Algebra.Order.BigOperators.Group.List
import Mathlib.Tactic.Abel

/-!
# Tables

A table of rows by key, with the sum of a weight over its rows.  Changing one row changes the sum
by that row's weight alone (`total_update`), which is all a conservation law about the rows needs.
-/

/-- Rows of type `ν` by a key of type `κ`. -/
abbrev Table (κ ν : Type) := AList fun _ : κ => ν

namespace Table

variable {κ ν : Type}

/-- The rows, without their keys. -/
def rows (t : Table κ ν) : List ν := t.entries.map (·.2)

/-- The sum of `f` over the rows. -/
def total {M : Type} [AddCommMonoid M] (f : ν → M) (t : Table κ ν) : M := (t.rows.map f).sum

/-- The rows `p` holds of. -/
def filter (p : ν → Bool) (t : Table κ ν) : Table κ ν :=
  ⟨t.entries.filter fun row => p row.2, t.nodupKeys.sublist List.filter_sublist⟩

/-- Every row rewritten in its place. -/
def mapRows (f : κ → ν → ν) (t : Table κ ν) : Table κ ν :=
  ⟨t.entries.map fun row => ⟨row.1, f row.1 row.2⟩, by
    have h := t.nodupKeys
    rw [List.NodupKeys, List.keys] at h ⊢
    rw [List.map_map]
    exact h⟩

section Lookup

variable [DecidableEq κ] {t : Table κ ν} {k k' : κ} {v w : ν}

theorem mem_rows : v ∈ t.rows ↔ ∃ k, t.lookup k = some v := by
  simp only [rows, List.mem_map]
  constructor
  · rintro ⟨⟨k, u⟩, h, rfl⟩
    exact ⟨k, AList.mem_lookup_iff.2 h⟩
  · rintro ⟨k, h⟩
    exact ⟨⟨k, v⟩, AList.mem_lookup_iff.1 h, rfl⟩

theorem lookup_insert_eq (t : Table κ ν) (k k' : κ) (v : ν) :
    (t.insert k v).lookup k' = if k' = k then some v else t.lookup k' := by
  split_ifs with h
  · subst h
    exact AList.lookup_insert t
  · exact AList.lookup_insert_ne h

theorem lookup_erase_eq (t : Table κ ν) (k k' : κ) :
    (t.erase k).lookup k' = if k' = k then none else t.lookup k' := by
  split_ifs with h
  · subst h
    exact AList.lookup_erase k' t
  · exact AList.lookup_erase_ne h

theorem lookup_filter {p : ν → Bool} :
    (t.filter p).lookup k = some v ↔ t.lookup k = some v ∧ p v = true := by
  rw [← Option.mem_def, ← Option.mem_def, AList.mem_lookup_iff, AList.mem_lookup_iff]
  show _ ∈ t.entries.filter (fun row => p row.2) ↔ _
  rw [List.mem_filter]

theorem lookup_mapRows (f : κ → ν → ν) (t : Table κ ν) (k : κ) :
    (t.mapRows f).lookup k = (t.lookup k).map (f k) := by
  refine Option.ext fun v => ?_
  rw [← Option.mem_def, ← Option.mem_def, AList.mem_lookup_iff, Option.mem_map]
  simp only [AList.mem_lookup_iff, mapRows, List.mem_map, Sigma.mk.injEq, Sigma.exists]
  constructor
  · rintro ⟨k', w, hw, rfl, hv⟩
    exact ⟨w, hw, eq_of_heq hv⟩
  · rintro ⟨w, hw, rfl⟩
    exact ⟨k, w, hw, rfl, HEq.rfl⟩

theorem lookup_singleton {k k' : κ} {v w : ν} :
    (AList.singleton k v : Table κ ν).lookup k' = some w ↔ k' = k ∧ w = v := by
  rw [← AList.insert_empty, lookup_insert_eq]
  split_ifs with h
  · simp [h, eq_comm]
  · simp [h, AList.lookup_empty]

end Lookup

section Total

variable [DecidableEq κ] {M : Type} [AddCommMonoid M] {t : Table κ ν} {k : κ} {v w : ν}

theorem perm_cons_kerase :
    ∀ {l : List (Sigma fun _ : κ => ν)}, l.dlookup k = some v → l.Perm (⟨k, v⟩ :: l.kerase k)
  | [], h => by simp at h
  | ⟨k', w⟩ :: l, h => by
    by_cases hk : k = k'
    · subst hk
      simp only [List.dlookup_cons_eq, Option.some.injEq] at h
      subst h
      have he : List.kerase k (⟨k, w⟩ :: l) = l := List.kerase_cons_eq rfl
      rw [he]
    · rw [List.dlookup_cons_ne l ⟨k', w⟩ hk] at h
      rw [List.kerase_cons_ne hk]
      exact ((perm_cons_kerase h).cons _).trans (List.Perm.swap _ _ _)

theorem total_insert (f : ν → M) (t : Table κ ν) (k : κ) (v : ν) :
    total f (t.insert k v) = f v + total f (t.erase k) := by
  have he : (t.erase k).entries = List.kerase k t.entries := rfl
  simp [total, rows, AList.entries_insert, he]

theorem total_of_lookup (f : ν → M) (h : t.lookup k = some v) :
    total f t = f v + total f (t.erase k) := by
  have hp : t.entries.Perm (⟨k, v⟩ :: (t.erase k).entries) := perm_cons_kerase h
  simpa [total, rows, Function.comp_def] using (hp.map fun e => f e.2).sum_eq

theorem erase_of_lookup_none (h : t.lookup k = none) : t.erase k = t := by
  refine AList.ext ?_
  exact List.kerase_of_notMem_keys (AList.lookup_eq_none.1 h)

theorem total_insert_new (f : ν → M) (h : t.lookup k = none) (v : ν) :
    total f (t.insert k v) = f v + total f t := by
  rw [total_insert, erase_of_lookup_none h]

theorem rows_insert_new (h : t.lookup k = none) (v : ν) :
    rows (t.insert k v) = v :: t.rows := by
  have hk : List.kerase k t.entries = t.entries :=
    List.kerase_of_notMem_keys (AList.lookup_eq_none.1 h)
  simp only [rows, AList.entries_insert, List.map_cons, hk]

theorem rows_insert (t : Table κ ν) (k : κ) (v : ν) :
    rows (t.insert k v) = v :: rows (t.erase k) := by
  have he : (t.erase k).entries = List.kerase k t.entries := rfl
  simp only [rows, AList.entries_insert, List.map_cons, he]

theorem rows_perm_of_lookup (h : t.lookup k = some v) : t.rows.Perm (v :: rows (t.erase k)) := by
  have hp : t.entries.Perm (⟨k, v⟩ :: (t.erase k).entries) := perm_cons_kerase h
  exact hp.map (·.2)

/-- One row's change is the whole change of the sum. -/
theorem total_update (f : ν → M) (h : t.lookup k = some v) (w : ν) :
    total f (t.insert k w) + f v = f w + total f t := by
  rw [total_insert, total_of_lookup f h]
  abel

/-- A change that keeps the row's weight keeps the sum. -/
theorem total_update_same (f : ν → M) (h : t.lookup k = some v) (hw : f w = f v) :
    total f (t.insert k w) = total f t := by
  rw [total_insert, total_of_lookup f h, hw]

theorem total_eq_zero {f : ν → M} (h : ∀ k v, t.lookup k = some v → f v = 0) : total f t = 0 := by
  refine List.sum_eq_zero fun x hx => ?_
  obtain ⟨v, hv, rfl⟩ := List.mem_map.1 hx
  obtain ⟨k, hk⟩ := mem_rows.1 hv
  exact h k v hk

omit [DecidableEq κ] in
theorem total_ite (p : ν → Bool) (f : ν → M) (t : Table κ ν) :
    total (fun v => if p v then f v else 0) t = ((t.rows.filter p).map f).sum := by
  unfold total
  induction t.rows with
  | nil => rfl
  | cons v l ih =>
    rw [List.map_cons, List.sum_cons, ih, List.filter_cons]
    split_ifs <;> simp

end Total

section InsertAll

variable [DecidableEq κ] {M : Type} [AddCommMonoid M]

/-- One insert after another. -/
def insertAll (l : List (κ × ν)) (t : Table κ ν) : Table κ ν :=
  l.foldl (fun t e => t.insert e.1 e.2) t

theorem lookup_insertAll_of_notMem {k : κ} :
    ∀ {l : List (κ × ν)} (t : Table κ ν), k ∉ l.map (·.1) → (insertAll l t).lookup k = t.lookup k
  | [], _, _ => rfl
  | e :: l, t, h => by
    simp only [List.map_cons, List.mem_cons, not_or] at h
    exact (lookup_insertAll_of_notMem _ h.2).trans (AList.lookup_insert_ne h.1)

theorem lookup_insertAll_of_mem {e : κ × ν} :
    ∀ {l : List (κ × ν)} (t : Table κ ν), (l.map (·.1)).Nodup → e ∈ l →
      (insertAll l t).lookup e.1 = some e.2
  | e' :: l, t, hn, h => by
    simp only [List.map_cons, List.nodup_cons] at hn
    rcases List.mem_cons.1 h with rfl | h
    · exact (lookup_insertAll_of_notMem _ hn.1).trans (AList.lookup_insert t)
    · exact lookup_insertAll_of_mem (t.insert e'.1 e'.2) hn.2 h

theorem total_insertAll_new (f : ν → M) :
    ∀ {l : List (κ × ν)} {t : Table κ ν}, (l.map (·.1)).Nodup → (∀ e ∈ l, t.lookup e.1 = none) →
      total f (insertAll l t) = (l.map fun e => f e.2).sum + total f t
  | [], _, _, _ => by simp [insertAll]
  | e :: l, t, hn, h => by
    simp only [List.map_cons, List.nodup_cons] at hn
    have hfresh : ∀ e' ∈ l, (t.insert e.1 e.2).lookup e'.1 = none := fun e' he' => by
      have hne : e'.1 ≠ e.1 := fun heq => hn.1 (heq ▸ List.mem_map_of_mem he')
      rw [AList.lookup_insert_ne hne]
      exact h e' (by simp [he'])
    have hone := total_insert_new f (h e (by simp)) e.2
    calc total f (insertAll (e :: l) t)
        = (l.map fun e => f e.2).sum + total f (t.insert e.1 e.2) :=
          total_insertAll_new f hn.2 hfresh
      _ = ((e :: l).map fun e => f e.2).sum + total f t := by
          rw [hone, List.map_cons, List.sum_cons]
          abel

/-- Changes that keep each row's weight keep the sum. -/
theorem total_insertAll_same (f : ν → M) :
    ∀ {l : List (κ × ν)} {t : Table κ ν}, (l.map (·.1)).Nodup →
      (∀ e ∈ l, ∃ v, t.lookup e.1 = some v ∧ f e.2 = f v) → total f (insertAll l t) = total f t
  | [], _, _, _ => rfl
  | e :: l, t, hn, h => by
    simp only [List.map_cons, List.nodup_cons] at hn
    obtain ⟨v, hv, hf⟩ := h e (by simp)
    have hrest : ∀ e' ∈ l, ∃ v, (t.insert e.1 e.2).lookup e'.1 = some v ∧ f e'.2 = f v := by
      intro e' he'
      have hne : e'.1 ≠ e.1 := fun heq => hn.1 (heq ▸ List.mem_map_of_mem he')
      rw [AList.lookup_insert_ne hne]
      exact h e' (by simp [he'])
    exact (total_insertAll_same f hn.2 hrest).trans (total_update_same f hv hf)

end InsertAll

end Table
