import EchoAndAura.Table

/-!
# Caches by name

The Cache API.  Opening a name gives a handle to the cache that has it, made empty if none has.
Deleting a name takes it away from its cache, which only the handles opened before still reach.
-/

/-- A cache: the name it was opened by and its number among all caches made. -/
structure CacheHandle where
  name : String
  number : Nat
  deriving DecidableEq, Repr

/-- The cache that has each name, how many were made, and what each stores by key. -/
structure CacheStorage (ρ : Type) where
  live : Table String Nat
  made : Nat
  stored : Table CacheHandle (Table String ρ)

namespace CacheStorage

section Operations

variable {ρ : Type}

def empty : CacheStorage ρ := ⟨∅, 0, ∅⟩

variable (s : CacheStorage ρ)

/-- The handle `open` gives, and the storage after it. -/
def openCache (name : String) : CacheStorage ρ × CacheHandle :=
  match s.live.lookup name with
  | some number => (s, ⟨name, number⟩)
  | none =>
    ({ s with live := s.live.insert name s.made, made := s.made + 1 }, ⟨name, s.made⟩)

def delete (name : String) : CacheStorage ρ := { s with live := s.live.erase name }

def entries (h : CacheHandle) : Table String ρ := (s.stored.lookup h).getD ∅

def put (h : CacheHandle) (key : String) (r : ρ) : CacheStorage ρ :=
  { s with stored := s.stored.insert h ((s.entries h).insert key r) }

def remove (h : CacheHandle) (key : String) : CacheStorage ρ :=
  { s with stored := s.stored.insert h ((s.entries h).erase key) }

def keys (h : CacheHandle) : List String := (s.entries h).keys

/-- `match`, on the whole key. -/
def find (h : CacheHandle) (key : String) : Option ρ := (s.entries h).lookup key

/-- `match` with `ignoreSearch`: on the key up to its query. -/
def findPath (h : CacheHandle) (path : String) : Option ρ :=
  ((s.entries h).entries.find? fun e => e.1.toList.takeWhile (· != '?') == path.toList).map (·.2)

end Operations

section Freshness

variable {ρ : Type} {s : CacheStorage ρ} {h h' : CacheHandle} {name key : String} {r : ρ}

/-- A name's cache, and every cache with something stored, has been made. -/
structure Made (s : CacheStorage ρ) : Prop where
  live : ∀ name number, s.live.lookup name = some number → number < s.made
  stored : ∀ h, s.made ≤ h.number → s.entries h = ∅

theorem Made.empty : (CacheStorage.empty : CacheStorage ρ).Made :=
  ⟨fun _ _ h => by simp [CacheStorage.empty] at h, fun _ _ => rfl⟩

theorem entries_insert {t : Table String ρ} : CacheStorage.entries
    { s with stored := s.stored.insert h t } h' = if h' = h then t else s.entries h' := by
  unfold entries
  rw [Table.lookup_insert_eq]
  split_ifs <;> rfl

theorem entries_put : (s.put h key r).entries h' =
    if h' = h then (s.entries h).insert key r else s.entries h' := entries_insert

theorem entries_remove : (s.remove h key).entries h' =
    if h' = h then (s.entries h).erase key else s.entries h' := entries_insert

theorem openCache_cases (s : CacheStorage ρ) (name : String) :
    (∃ n, s.live.lookup name = some n ∧ s.openCache name = (s, ⟨name, n⟩)) ∨
      s.live.lookup name = none ∧ s.openCache name =
        ({ s with live := s.live.insert name s.made, made := s.made + 1 }, ⟨name, s.made⟩) := by
  unfold openCache
  rcases s.live.lookup name with _ | n
  · exact .inr ⟨rfl, rfl⟩
  · exact .inl ⟨n, rfl, rfl⟩

theorem openCache_name : (s.openCache name).2.name = name := by
  rcases s.openCache_cases name with ⟨n, -, heq⟩ | ⟨-, heq⟩ <;> rw [heq]

theorem openCache_entries : (s.openCache name).1.entries h = s.entries h := by
  rcases s.openCache_cases name with ⟨n, -, heq⟩ | ⟨-, heq⟩ <;> rw [heq]
  rfl

theorem made_le_openCache : s.made ≤ (s.openCache name).1.made := by
  rcases s.openCache_cases name with ⟨n, -, heq⟩ | ⟨-, heq⟩ <;> rw [heq]
  exact Nat.le_succ s.made

theorem Made.openCache (hs : s.Made) (name : String) :
    (s.openCache name).1.Made ∧ (s.openCache name).2.number < (s.openCache name).1.made := by
  rcases s.openCache_cases name with ⟨n, hn, heq⟩ | ⟨-, heq⟩ <;> rw [heq]
  · exact ⟨hs, hs.live name n hn⟩
  · refine ⟨⟨fun name' number h => ?_, fun h hh => hs.stored h (Nat.le_of_succ_le hh)⟩,
      Nat.lt_succ_self s.made⟩
    have h : (s.live.insert name s.made).lookup name' = some number := h
    rw [Table.lookup_insert_eq] at h
    split_ifs at h
    · cases h
      exact Nat.lt_succ_self s.made
    · exact Nat.lt_succ_of_lt (hs.live name' number h)

theorem Made.delete (hs : s.Made) : (s.delete name).Made := by
  refine ⟨fun name' number h => ?_, hs.stored⟩
  have h : (s.live.erase name).lookup name' = some number := h
  rw [Table.lookup_erase_eq] at h
  split_ifs at h
  exact hs.live name' number h

theorem Made.put (hs : s.Made) (hh : h.number < s.made) : (s.put h key r).Made := by
  refine ⟨hs.live, fun h' hh' => ?_⟩
  rw [entries_put, if_neg]
  · exact hs.stored h' hh'
  · rintro rfl
    exact Nat.lt_irrefl _ (Nat.lt_of_lt_of_le hh hh')

theorem Made.remove (hs : s.Made) (hh : h.number < s.made) : (s.remove h key).Made := by
  refine ⟨hs.live, fun h' hh' => ?_⟩
  rw [entries_remove, if_neg]
  · exact hs.stored h' hh'
  · rintro rfl
    exact Nat.lt_irrefl _ (Nat.lt_of_lt_of_le hh hh')

end Freshness

end CacheStorage
