import EchoAndAura.Table

/-!
# Joins

Rows joined to a table on its key, as a query does.  A key has at most one row, so an inner join
keeps or drops a row (`innerJoin_eq`) and a left join keeps it once (`leftJoin_eq`).
-/

namespace Table

variable {κ ν α : Type} [DecidableEq κ]

/-- The rows of a key; no key, as NULL, has any. -/
def matching (t : Table κ ν) : Option κ → List ν
  | none => []
  | some k => (t.entries.filter fun e => e.1 == k).map (·.2)

def innerJoin (l : List α) (t : Table κ ν) (key : α → Option κ) : List (α × ν) :=
  l.flatMap fun a => (t.matching (key a)).map (a, ·)

/-- A row of a left join: with its matches, or with none of them. -/
def orNull (a : α) : List ν → List (α × Option ν)
  | [] => [(a, none)]
  | vs => vs.map fun v => (a, some v)

def leftJoin (l : List α) (t : Table κ ν) (key : α → Option κ) (on : α → ν → Bool) :
    List (α × Option ν) :=
  l.flatMap fun a => orNull a ((t.matching (key a)).filter (on a))

theorem filter_key (k : κ) : ∀ {l : List (Sigma fun _ : κ => ν)}, l.NodupKeys →
    (l.filter fun e => e.1 == k).map (·.2) = (l.dlookup k).toList
  | [], _ => rfl
  | ⟨k', v⟩ :: l, h => by
    obtain ⟨hnot, hl⟩ := List.nodupKeys_cons.1 h
    have ih := filter_key k hl
    by_cases hk : k' = k
    · subst hk
      rw [List.dlookup_eq_none.2 hnot, Option.toList_none, List.map_eq_nil_iff] at ih
      simp [ih]
    · rw [List.filter_cons_of_neg (by simpa using hk), ih, List.dlookup_cons_ne _ _ (Ne.symm hk)]

theorem matching_eq (t : Table κ ν) (k : Option κ) : t.matching k = (k.bind t.lookup).toList := by
  rcases k with _ | k
  · rfl
  · exact filter_key k t.nodupKeys

theorem orNull_toList (a : α) (v : Option ν) : orNull a v.toList = [(a, v)] := by
  rcases v with _ | v <;> rfl

theorem innerJoin_eq (l : List α) (t : Table κ ν) (key : α → Option κ) :
    innerJoin l t key = l.filterMap fun a => ((key a).bind t.lookup).map (a, ·) := by
  induction l with
  | nil => rfl
  | cons a l ih =>
    unfold innerJoin at ih ⊢
    rw [List.flatMap_cons, ih, matching_eq, List.filterMap_cons]
    rcases (key a).bind t.lookup with _ | v <;> rfl

theorem leftJoin_eq (l : List α) (t : Table κ ν) (key : α → Option κ) (on : α → ν → Bool) :
    leftJoin l t key on = l.map fun a => (a, ((key a).bind t.lookup).filter (on a)) := by
  induction l with
  | nil => rfl
  | cons a l ih =>
    unfold leftJoin at ih ⊢
    have hone : ((key a).bind t.lookup).toList.filter (on a) =
        (((key a).bind t.lookup).filter (on a)).toList := by
      rcases (key a).bind t.lookup with _ | v
      · rfl
      · by_cases hv : on a v <;> simp [hv, Option.filter]
    rw [List.flatMap_cons, ih, matching_eq, hone, orNull_toList, List.map_cons]
    rfl

end Table
