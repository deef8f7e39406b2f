import EchoAndAura.Places
import EchoAndAura.Sponsors
import EchoAndAura.Stepwise

/-!
# Sponsor placement

A table is laid out by one list of ids for each level (`Layout`), numbered from one.  Whatever a
request writes before it renumbers, the level it places a sponsor in is numbered anew from the list
it placed it in, and the level the sponsor left from what is listed there: so a request takes a
layout to a layout, the one of `Levels.put` or `Levels.remove` after `Levels.displaced`.
-/

namespace EchoAndAura

open Places

/-- The level and the position of a sponsor. -/
def Sponsors.spot (t : Sponsors) (id : Id) : Option (SponsorLevel × Nat) :=
  (t.lookup id).map fun row => (row.level, row.position)

/-- The positions of a level's sponsors, in no order. -/
def Sponsors.positions (t : Sponsors) (level : SponsorLevel) : List Nat :=
  ((Table.rows t).filter (·.level == level)).map (·.position)

/-- Every level is numbered 1 to n, no number missing and none twice, and at most one sponsor is
presenting. -/
structure Sponsors.WellPlaced (t : Sponsors) : Prop where
  positions : ∀ level, (t.positions level).Perm (List.range' 1 (t.positions level).length)
  presenting : (t.positions .presenting).length ≤ 1

section Spots

variable {t : Sponsors} {id a : Id} {row : SponsorRecord} {g : SponsorLevel} {n : Nat}

theorem spot_eq_some : t.spot a = some (g, n) ↔
    ∃ row, t.lookup a = some row ∧ row.level = g ∧ row.position = n := by
  simp [Sponsors.spot]

theorem spot_insert : Sponsors.spot (t.insert id row) a =
    if a = id then some (row.level, row.position) else t.spot a := by
  unfold Sponsors.spot
  rw [Table.lookup_insert_eq]
  split_ifs <;> rfl

theorem spot_erase : Sponsors.spot (t.erase id) a = if a = id then none else t.spot a := by
  unfold Sponsors.spot
  rw [Table.lookup_erase_eq]
  split_ifs <;> rfl

theorem spot_renumber (ids : List Id) :
    Sponsors.spot (t.mapRows (sponsorsRepository.renumberRow ids)) = renumbered ids t.spot := by
  funext a
  unfold Sponsors.spot renumbered
  rw [Table.lookup_mapRows, Option.map_map, Option.map_map]
  congr 1
  funext row
  simp only [Function.comp_apply, sponsorsRepository.renumberRow]
  split_ifs <;> rfl

theorem spot_shiftPartner : Sponsors.spot (t.mapRows sponsorsRepository.shiftPartner) a =
    (t.spot a).map fun s => if s.1 = .partner then (s.1, s.2 + 1) else s := by
  unfold Sponsors.spot
  rw [Table.lookup_mapRows, Option.map_map, Option.map_map]
  congr 1
  funext row
  simp only [Function.comp_apply, sponsorsRepository.shiftPartner]
  split_ifs <;> rfl

end Spots

section Listing

variable {t : Sponsors} {g : SponsorLevel} {l : List Id} {a : Id} {n : Nat}

/-- A level's rows in display order. -/
def Sponsors.rowsByLevel (t : Sponsors) (g : SponsorLevel) : List (Sigma fun _ : Id => SponsorRecord) :=
  (t.entries.filter (·.2.level == g)).insertionSort displayOrder

theorem rowsByLevel_perm : (t.rowsByLevel g).Perm (t.entries.filter (·.2.level == g)) :=
  List.perm_insertionSort _ _

theorem mem_rowsByLevel {e : Sigma fun _ : Id => SponsorRecord} :
    e ∈ t.rowsByLevel g ↔ t.lookup e.1 = some e.2 ∧ e.2.level = g := by
  rw [rowsByLevel_perm.mem_iff, List.mem_filter, beq_iff_eq, ← AList.mem_lookup_iff,
    Option.mem_def]

theorem displayOrder_total (e e' : Sigma fun _ : Id => SponsorRecord) :
    displayOrder e e' ∨ displayOrder e' e := by
  rcases Nat.lt_trichotomy e.2.position e'.2.position with h | h | h
  · exact .inl (.inl h)
  · rcases Int.lt_trichotomy e.2.createdAt e'.2.createdAt with ht | ht | ht
    · exact .inl (.inr ⟨h, .inl ht⟩)
    · rcases Nat.le_total e.1 e'.1 with hi | hi
      · exact .inl (.inr ⟨h, .inr ⟨ht, hi⟩⟩)
      · exact .inr (.inr ⟨h.symm, .inr ⟨ht.symm, hi⟩⟩)
    · exact .inr (.inr ⟨h.symm, .inl ht⟩)
  · exact .inr (.inl h)

theorem displayOrder_trans {e₁ e₂ e₃ : Sigma fun _ : Id => SponsorRecord}
    (h : displayOrder e₁ e₂) (h' : displayOrder e₂ e₃) : displayOrder e₁ e₃ := by
  rcases h with h | ⟨h, hc | ⟨hc, hi⟩⟩ <;> rcases h' with h' | ⟨h', hc' | ⟨hc', hi'⟩⟩
  all_goals first | exact .inl (by omega) | refine .inr ⟨h.trans h', ?_⟩
  · exact .inl (Int.lt_trans hc hc')
  · exact .inl (hc' ▸ hc)
  · exact .inl (hc ▸ hc')
  · exact .inr ⟨hc.trans hc', Nat.le_trans hi hi'⟩

theorem rowsByLevel_sorted :
    (t.rowsByLevel g).Pairwise fun a b => a.2.position ≤ b.2.position := by
  have : Std.Total displayOrder := ⟨displayOrder_total⟩
  have : IsTrans _ displayOrder := ⟨fun _ _ _ => displayOrder_trans⟩
  refine (List.pairwise_insertionSort displayOrder _).imp fun h => ?_
  rcases h with h | ⟨h, -⟩ <;> omega

theorem idsByLevel_nodup : (sponsorsRepository.idsByLevel t g).Nodup := by
  have hkeys : (t.rowsByLevel g).map (·.1) = sponsorsRepository.idsByLevel t g := rfl
  rw [← hkeys, (rowsByLevel_perm.map _).nodup_iff]
  exact List.Nodup.sublist (List.filter_sublist.map _) t.nodupKeys

theorem mem_idsByLevel : a ∈ sponsorsRepository.idsByLevel t g ↔ ∃ n, t.spot a = some (g, n) := by
  have hkeys : sponsorsRepository.idsByLevel t g = (t.rowsByLevel g).map (·.1) := rfl
  rw [hkeys, List.mem_map]
  constructor
  · rintro ⟨e, he, rfl⟩
    obtain ⟨hrow, hlevel⟩ := mem_rowsByLevel.1 he
    exact ⟨_, spot_eq_some.2 ⟨_, hrow, hlevel, rfl⟩⟩
  · rintro ⟨n, hn⟩
    obtain ⟨row, hrow, hlevel, -⟩ := spot_eq_some.1 hn
    exact ⟨⟨a, row⟩, mem_rowsByLevel.2 ⟨hrow, hlevel⟩, rfl⟩

theorem idsByLevel_of_listed (h : Listed t.spot g l) : sponsorsRepository.idsByLevel t g = l := by
  refine h.eq_of_sorted idsByLevel_nodup (fun a => mem_idsByLevel) ?_
  have hkeys : sponsorsRepository.idsByLevel t g = (t.rowsByLevel g).map (·.1) := rfl
  rw [hkeys, List.pairwise_map]
  refine rowsByLevel_sorted.imp_of_mem fun {e e'} he he' hle m n hm hn => ?_
  have hspot := spot_eq_some.2 ⟨_, (mem_rowsByLevel.1 he).1, rfl, rfl⟩
  have hspot' := spot_eq_some.2 ⟨_, (mem_rowsByLevel.1 he').1, rfl, rfl⟩
  rw [hspot, Option.some.injEq, Prod.mk.injEq] at hm
  rw [hspot', Option.some.injEq, Prod.mk.injEq] at hn
  omega

theorem positions_perm : (t.positions g).Perm ((t.rowsByLevel g).map (·.2.position)) := by
  have hrows : t.positions g = (t.entries.filter (·.2.level == g)).map (·.2.position) := by
    unfold Sponsors.positions Table.rows
    rw [List.filter_map, List.map_map]
    rfl
  rw [hrows]
  exact (rowsByLevel_perm.map _).symm

/-- A level is numbered 1 to n exactly when its listing lays it out. -/
theorem positions_perm_range :
    (t.positions g).Perm (List.range' 1 (t.positions g).length) ↔
      LaidOut t.spot g (sponsorsRepository.idsByLevel t g) := by
  have hlen : (t.positions g).length = (t.rowsByLevel g).length := by
    rw [positions_perm.length_eq, List.length_map]
  have hkey : ∀ i : Nat, (sponsorsRepository.idsByLevel t g)[i]? =
      (t.rowsByLevel g)[i]?.map Sigma.fst := fun i => List.getElem?_map
  rw [hlen]
  constructor
  · intro h
    -- both are sorted, so the positions in display order are 1, 2, ...
    have hsorted : ((t.rowsByLevel g).map (·.2.position)).Pairwise (· ≤ ·) :=
      List.pairwise_map.2 rowsByLevel_sorted
    have heq : (t.rowsByLevel g).map (·.2.position) = List.range' 1 (t.rowsByLevel g).length :=
      (positions_perm.symm.trans h).eq_of_pairwise (fun a b _ _ => Nat.le_antisymm) hsorted
        ((List.pairwise_lt_range' ..).imp Nat.le_of_lt)
    have hplace : ∀ i e, (t.rowsByLevel g)[i]? = some e → e.2.position = i + 1 := by
      intro i e hi
      have hget := congrArg (·[i]?) heq
      simp only [List.getElem?_map, hi, Option.map_some] at hget
      obtain ⟨hlt, -⟩ := List.getElem?_eq_some_iff.1 hi
      rw [List.getElem?_range' hlt, Option.some.injEq] at hget
      omega
    intro a n
    constructor
    · intro hspot
      obtain ⟨row, hrow, hlevel, rfl⟩ := spot_eq_some.1 hspot
      have hmem : (⟨a, row⟩ : Sigma fun _ : Id => SponsorRecord) ∈ t.rowsByLevel g :=
        mem_rowsByLevel.2 ⟨hrow, hlevel⟩
      obtain ⟨i, hi⟩ := List.mem_iff_getElem?.1 hmem
      exact ⟨i, by rw [hkey, hi]; rfl, hplace i _ hi⟩
    · rintro ⟨i, hi, rfl⟩
      rw [hkey, Option.map_eq_some_iff] at hi
      obtain ⟨e, he, rfl⟩ := hi
      obtain ⟨hrow, hlevel⟩ := mem_rowsByLevel.1 (List.mem_of_getElem? he)
      exact spot_eq_some.2 ⟨_, hrow, hlevel, hplace i e he⟩
  · intro h
    refine positions_perm.trans (List.Perm.of_eq (List.ext_getElem (by simp) fun i hi _ => ?_))
    rw [List.length_map] at hi
    have he := List.getElem?_eq_getElem hi
    obtain ⟨hrow, hlevel⟩ := mem_rowsByLevel.1 (List.mem_of_getElem? he)
    have hspot := (h (t.rowsByLevel g)[i].1 (i + 1)).2 ⟨i, by rw [hkey, he]; rfl, rfl⟩
    obtain ⟨row, hrow', -, hn⟩ := spot_eq_some.1 hspot
    rw [hrow, Option.some.injEq] at hrow'
    rw [List.getElem_map, List.getElem_range', hrow', hn]
    omega

end Listing

/-- The ids of each level, first to last. -/
abbrev Levels := SponsorLevel → List Id

namespace Levels

section Moves

variable {L : Levels} {id a b : Id} {level g : SponsorLevel} {i : Nat}

/-- Whoever is presenting made first of the partners, unless it is `keepId`. -/
def demoted (keepId : Option Id) (L : Levels) : Levels :=
  match (L .presenting).filter (keepId ≠ some ·) with
  | [] => L
  | c :: _ => fun
    | .presenting => []
    | .partner => c :: L .partner
    | .supporter => L .supporter

/-- What placing a sponsor in a level makes of the others. -/
def displaced (keepId : Option Id) (level : SponsorLevel) (L : Levels) : Levels :=
  if level = .presenting then L.demoted keepId else L

/-- `id` at index `i` of a level, and nowhere else. -/
def put (id : Id) (level : SponsorLevel) (i : Nat) (L : Levels) : Levels := fun g =>
  if g = level then ((L g).filter (· ≠ id)).insertIdx i id else (L g).filter (· ≠ id)

/-- `id` where it is placed in a level, the others displaced first. -/
def placed (keepId : Option Id) (id : Id) (level : SponsorLevel) (requested : Option Int)
    (L : Levels) : Levels :=
  let rest := (L.displaced keepId level level).filter (· ≠ id)
  (L.displaced keepId level).put id level ((placeIn rest id requested).position - 1)

def remove (id : Id) (L : Levels) : Levels := fun g => (L g).filter (· ≠ id)

theorem demoted_cases (keepId : Option Id) (L : Levels) :
    ((L .presenting).filter (keepId ≠ some ·) = [] ∧ L.demoted keepId = L) ∨
      ∃ c rest, (L .presenting).filter (keepId ≠ some ·) = c :: rest ∧
        L.demoted keepId .presenting = [] ∧ L.demoted keepId .partner = c :: L .partner ∧
        L.demoted keepId .supporter = L .supporter := by
  unfold demoted
  rcases (L .presenting).filter (keepId ≠ some ·) with _ | ⟨c, rest⟩
  · exact .inl ⟨rfl, rfl⟩
  · exact .inr ⟨c, rest, rfl, rfl, rfl, rfl⟩

/-- Whoever else is presenting is out of the way. -/
theorem displaced_filter {keepId : Option Id} (hkeep : ∀ c, c ≠ id → keepId ≠ some c) :
    (L.displaced keepId .presenting .presenting).filter (· ≠ id) = [] := by
  show (L.demoted keepId .presenting).filter (· ≠ id) = []
  rcases L.demoted_cases keepId with ⟨hnobody, heq⟩ | ⟨c, rest, -, hpres, -⟩
  · rw [heq, List.filter_eq_nil_iff]
    intro a ha hne
    exact List.filter_eq_nil_iff.1 hnobody a ha (decide_eq_true (hkeep a (of_decide_eq_true hne)))
  · rw [hpres]
    rfl

theorem mem_of_mem_displaced (h : id ∈ L.displaced (some id) level g) : id ∈ L g := by
  unfold displaced at h
  split_ifs at h
  · rcases L.demoted_cases (some id) with ⟨-, heq⟩ | ⟨c, rest, hc, hpres, hpart, hsupp⟩
    · rwa [heq] at h
    · have hne : (some id ≠ some c) := of_decide_eq_true
        (List.mem_filter.1 (hc ▸ List.mem_cons_self : c ∈ (L .presenting).filter _)).2
      cases g with
      | presenting =>
        rw [hpres] at h
        cases h
      | partner =>
        rw [hpart, List.mem_cons] at h
        exact h.resolve_left fun heq => hne (congrArg some heq)
      | supporter => rwa [hsupp] at h
  · exact h

theorem put_self : put id level i L level = ((L level).filter (· ≠ id)).insertIdx i id := if_pos rfl

theorem put_of_ne (hg : g ≠ level) : put id level i L g = (L g).filter (· ≠ id) := if_neg hg

theorem mem_put : a ∈ put id level i L g → a ≠ id → a ∈ L g := by
  intro h ha
  unfold put at h
  split_ifs at h with hg
  · rcases List.eq_or_mem_of_mem_insertIdx h with rfl | h
    · exact absurd rfl ha
    · exact List.mem_of_mem_filter h
  · exact List.mem_of_mem_filter h

theorem before_put (ha : a ≠ id) (hb : b ≠ id) :
    Before (put id level i L g) a b ↔ Before (L g) a b := by
  unfold put
  split_ifs
  · rw [before_insertIdx ha hb, before_filter]
    simp [ha, hb]
  · rw [before_filter]
    simp [ha, hb]

theorem before_remove (ha : a ≠ id) (hb : b ≠ id) :
    Before (remove id L g) a b ↔ Before (L g) a b := by
  unfold remove
  rw [before_filter]
  simp [ha, hb]

end Moves

end Levels

/-- The lists lay the table out, and at most one sponsor is presenting. -/
structure Layout (t : Sponsors) (L : Levels) : Prop where
  laidOut : ∀ g, LaidOut t.spot g (L g)
  presenting : (L .presenting).length ≤ 1

section Layouts

variable {t : Sponsors} {L : Levels}

theorem Sponsors.WellPlaced.layout (h : t.WellPlaced) :
    Layout t (sponsorsRepository.idsByLevel t) := by
  refine ⟨fun g => positions_perm_range.1 (h.positions g), ?_⟩
  have hlen := h.presenting
  rw [positions_perm.length_eq, List.length_map] at hlen
  exact (List.length_map ..).trans_le hlen

theorem Layout.idsByLevel (h : Layout t L) (g : SponsorLevel) :
    sponsorsRepository.idsByLevel t g = L g :=
  idsByLevel_of_listed (h.laidOut g).listed

theorem Layout.length_positions (h : Layout t L) (g : SponsorLevel) :
    (t.positions g).length = (L g).length := by
  rw [positions_perm.length_eq, List.length_map, ← h.idsByLevel g]
  exact (List.length_map ..).symm

theorem Layout.wellPlaced (h : Layout t L) : t.WellPlaced := by
  refine ⟨fun g => positions_perm_range.2 ?_, ?_⟩
  · rw [h.idsByLevel g]
    exact h.laidOut g
  · rw [h.length_positions]
    exact h.presenting

/-- A sponsor is in one level. -/
theorem Layout.level_unique (h : Layout t L) {a : Id} {g g' : SponsorLevel} (ha : a ∈ L g)
    (ha' : a ∈ L g') : g = g' := by
  obtain ⟨n, hn⟩ := (h.laidOut g).mem.1 ha
  obtain ⟨n', hn'⟩ := (h.laidOut g').mem.1 ha'
  rw [hn, Option.some.injEq, Prod.mk.injEq] at hn'
  exact hn'.1

/-- With someone else presenting, that one is all there is. -/
theorem Layout.presenting_eq (h : Layout t L) {p : Id → Bool} {c : Id} {rest : List Id}
    (hc : (L .presenting).filter p = c :: rest) : L .presenting = [c] ∧ p c = true := by
  have hmem := List.mem_filter.1 (hc ▸ List.mem_cons_self : c ∈ (L .presenting).filter p)
  refine ⟨?_, hmem.2⟩
  obtain ⟨d, hd⟩ : ∃ d, L .presenting = [d] := by
    rw [← List.length_eq_one_iff]
    exact Nat.le_antisymm h.presenting (List.length_pos_of_mem hmem.1)
  rw [hd] at hmem ⊢
  rw [List.mem_singleton.1 hmem.1]

end Layouts

section Statements

variable {α β : Type} {t t' : Sponsors} {id : Id} {L : Levels}

theorem SponsorTx.bind_ok {x : SponsorTx α} {f : α → SponsorTx β} {b : β}
    (h : (x >>= f) t = .ok (b, t')) : ∃ a s, x t = .ok (a, s) ∧ f a s = .ok (b, t') := by
  have h : ((x t).bind fun p => f p.1 p.2) = .ok (b, t') := h
  rcases hx : x t with e | ⟨a, s⟩
  · rw [hx] at h
    cases h
  · rw [hx] at h
    exact ⟨a, s, rfl, h⟩

theorem SponsorTx.pure_ok {a b : α} (h : (pure a : SponsorTx α) t = .ok (b, t')) :
    b = a ∧ t' = t := by
  cases h
  exact ⟨rfl, rfl⟩

theorem store_ok {row r : SponsorRecord} (h : sponsorsRepository.store id row t = .ok (r, t')) :
    t' = t.insert id row := by
  unfold sponsorsRepository.store at h
  split at h
  · cases h
  · dsimp only at h
    split_ifs at h
    cases h
    rfl

theorem insert_ok {values r : SponsorRecord}
    (h : sponsorsRepository.insert id values t = .ok (r, t')) :
    t.lookup id = none ∧ t' = t.insert id values := by
  obtain ⟨t₀, s, hget, h⟩ := SponsorTx.bind_ok h
  cases hget
  rcases hrow : t.lookup id with _ | row
  · rw [hrow] at h
    exact ⟨rfl, store_ok h⟩
  · rw [hrow] at h
    cases h

theorem update_ok {patch : SponsorRecord → SponsorRecord} {r : Option SponsorRecord}
    (h : sponsorsRepository.update id patch t = .ok (r, t')) :
    (t.lookup id = none ∧ r = none ∧ t' = t) ∨
      ∃ row, t.lookup id = some row ∧ t' = t.insert id (patch row) := by
  obtain ⟨t₀, s, hget, h⟩ := SponsorTx.bind_ok h
  cases hget
  rcases hrow : t.lookup id with _ | row
  · rw [hrow] at h
    obtain ⟨rfl, rfl⟩ := SponsorTx.pure_ok h
    exact .inl ⟨rfl, rfl, rfl⟩
  · rw [hrow] at h
    obtain ⟨r', s', hstore, h⟩ := SponsorTx.bind_ok h
    obtain ⟨-, rfl⟩ := SponsorTx.pure_ok h
    exact .inr ⟨row, rfl, store_ok hstore⟩

theorem findById_ok {r : Option SponsorRecord}
    (h : sponsorsRepository.findById id t = .ok (r, t')) : r = t.lookup id ∧ t' = t := by
  cases h
  exact ⟨rfl, rfl⟩

theorem get_ok {r : SponsorRecord} (h : sponsorsService.get id t = .ok (r, t')) :
    t.lookup id = some r ∧ t' = t := by
  obtain ⟨found, s, hfind, h⟩ := SponsorTx.bind_ok h
  obtain ⟨hfound, hs⟩ := findById_ok hfind
  rw [hfound, hs] at h
  rcases hrow : t.lookup id with _ | row
  · rw [hrow] at h
    cases h
  · rw [hrow] at h
    obtain ⟨rfl, rfl⟩ := SponsorTx.pure_ok h
    exact ⟨rfl, rfl⟩

theorem Layout.demoted_of_spot (h : Layout t L) {c : Id} (hL : L .presenting = [c])
    (hspot : ∀ a, t'.spot a = if a = c then some (.partner, 1) else
      (t.spot a).map fun s => if s.1 = .partner then (s.1, s.2 + 1) else s) :
    LaidOut t'.spot .presenting [] ∧ LaidOut t'.spot .partner (c :: L .partner) ∧
      LaidOut t'.spot .supporter (L .supporter) := by
  have hc : c ∈ L .presenting := hL ▸ List.mem_singleton_self c
  have hother : ∀ a g n, a ≠ c → (t'.spot a = some (g, n) ↔
      ∃ m, t.spot a = some (g, m) ∧ n = if g = .partner then m + 1 else m) := by
    intro a g n ha
    rw [hspot, if_neg ha, Option.map_eq_some_iff]
    constructor
    · rintro ⟨⟨g', m⟩, hm, heq⟩
      split_ifs at heq with hg <;> cases heq
      · exact ⟨_, hm, (if_pos hg).symm⟩
      · exact ⟨_, hm, (if_neg hg).symm⟩
    · rintro ⟨m, hm, rfl⟩
      refine ⟨_, hm, ?_⟩
      split_ifs <;> rfl
  refine ⟨LaidOut.nil fun a n hn => ?_, (h.laidOut _).cons (fun hmem => ?_) ?_ fun a n ha => ?_,
    (h.laidOut _).congr fun a n => ?_⟩
  · by_cases ha : a = c
    · rw [hspot, if_pos ha] at hn
      cases hn
    · obtain ⟨m, hm, -⟩ := (hother a _ n ha).1 hn
      have hmem := (h.laidOut _).mem.2 ⟨m, hm⟩
      rw [hL, List.mem_singleton] at hmem
      exact ha hmem
  · cases h.level_unique hc hmem
  · rw [hspot, if_pos rfl]
  · simpa using hother a .partner n ha
  · by_cases ha : a = c
    · subst ha
      rw [hspot, if_pos rfl]
      constructor
      · exact fun heq => by cases heq
      · intro hn
        cases h.level_unique hc ((h.laidOut _).mem.2 ⟨n, hn⟩)
    · simpa using hother a .supporter n ha

/-- The demotion, on the lists. -/
theorem demotePresenting_layout (h : Layout t L) {keepId : Option Id} {time : Time}
    {r : Option SponsorRecord}
    (hrun : sponsorsRepository.demotePresenting keepId time t = .ok (r, t')) :
    Layout t' (L.demoted keepId) := by
  obtain ⟨t₀, s, hget, hrun⟩ := SponsorTx.bind_ok hrun
  cases hget
  rcases hfind : t.entries.find? fun e => e.2.level == .presenting && keepId != some e.1 with _ | e
  · rw [hfind] at hrun
    obtain ⟨-, rfl⟩ := SponsorTx.pure_ok hrun
    have hnobody : (L .presenting).filter (keepId ≠ some ·) = [] := by
      rw [List.filter_eq_nil_iff]
      intro a ha hkeep
      obtain ⟨n, hn⟩ := (h.laidOut _).mem.1 ha
      obtain ⟨row, hrow, hlevel, -⟩ := spot_eq_some.1 hn
      have hno := List.find?_eq_none.1 hfind ⟨a, row⟩ (AList.mem_lookup_iff.1 hrow)
      simp [hlevel] at hno
      exact of_decide_eq_true hkeep hno
    rcases L.demoted_cases keepId with ⟨-, heq⟩ | ⟨c, rest, hc, -⟩
    · rw [heq]
      exact h
    · rw [hnobody] at hc
      cases hc
  · rw [hfind] at hrun
    obtain ⟨u, s, hshift, hrun⟩ := SponsorTx.bind_ok hrun
    cases hshift
    have hpred := List.find?_some hfind
    simp only [Bool.and_eq_true, beq_iff_eq, bne_iff_ne] at hpred
    have hrow : t.lookup e.1 = some e.2 := AList.mem_lookup_iff.2 (List.mem_of_find?_eq_some hfind)
    have hspot : t.spot e.1 = some (.presenting, e.2.position) :=
      spot_eq_some.2 ⟨e.2, hrow, hpred.1, rfl⟩
    have hmem : e.1 ∈ L .presenting := (h.laidOut _).mem.2 ⟨_, hspot⟩
    rcases update_ok hrun with ⟨hnone, -⟩ | ⟨row, -, ht'⟩
    · rw [Table.lookup_mapRows, hrow] at hnone
      cases hnone
    rcases L.demoted_cases keepId with ⟨hnobody, -⟩ | ⟨c, rest, hc, hpres, hpart, hsupp⟩
    · have := List.filter_eq_nil_iff.1 hnobody e.1 hmem
      simp [hpred.2] at this
    · obtain ⟨hL, -⟩ := h.presenting_eq hc
      rw [hL, List.mem_singleton] at hmem
      subst hmem
      have hspot' : ∀ a, t'.spot a = if a = e.1 then some (.partner, 1) else
          (t.spot a).map fun s => if s.1 = .partner then (s.1, s.2 + 1) else s := by
        intro a
        rw [ht', spot_insert, spot_shiftPartner]
      obtain ⟨hpres', hpart', hsupp'⟩ := h.demoted_of_spot hL hspot'
      refine ⟨fun g => ?_, by rw [hpres]; exact Nat.zero_le 1⟩
      cases g with
      | presenting => rwa [hpres]
      | partner => rwa [hpart]
      | supporter => rwa [hsupp]

theorem demoteFor_layout (h : Layout t L) {level : SponsorLevel} {keepId : Option Id} {time : Time}
    {r : Option SponsorRecord} (hrun : sponsorsService.demoteFor level keepId time t = .ok (r, t')) :
    Layout t' (L.displaced keepId level) := by
  unfold sponsorsService.demoteFor at hrun
  unfold Levels.displaced
  split_ifs at hrun ⊢
  · exact demotePresenting_layout h hrun
  · obtain ⟨-, rfl⟩ := SponsorTx.pure_ok hrun
    exact h

end Statements

section Placing

variable {t t₁ t₂ t₃ : Sponsors} {L : Levels} {id a : Id} {level old : SponsorLevel} {i : Nat}

theorem placeIn_pos (order : List Id) (id : Id) (requested : Option Int) :
    1 ≤ (placeIn order id requested).position := by
  rcases requested with _ | n <;> simp only [placeIn, Option.elim] <;> omega

theorem placeIn_le (order : List Id) (id : Id) (requested : Option Int) :
    (placeIn order id requested).position - 1 ≤ order.length := by
  rcases requested with _ | n <;> simp only [placeIn, Option.elim] <;> omega

/-- Once the level is renumbered, the sponsor is in its place and the other levels list what they
have left. -/
theorem Layout.put (h : Layout t L) (hother : ∀ a, a ≠ id → t₁.spot a = t.spot a)
    (hid : ∃ n, t₁.spot id = some (level, n)) (hi : i ≤ ((L level).filter (· ≠ id)).length)
    (hren : t₂.spot = renumbered (L.put id level i level) t₁.spot) :
    LaidOut t₂.spot level (L.put id level i level) ∧
      (∀ g, g ≠ level → Listed t₂.spot g (L.put id level i g)) ∧
      ∀ g, g ≠ level → id ∉ L g → LaidOut t₂.spot g (L.put id level i g) := by
  have hmem : ∀ a, a ∈ L.put id level i level ↔ ∃ n, t₁.spot a = some (level, n) := by
    intro a
    rw [Levels.put_self, List.mem_insertIdx hi, List.mem_filter, decide_eq_true_eq]
    by_cases ha : a = id
    · simp [ha, hid]
    · rw [hother a ha, (h.laidOut level).mem]
      simp [ha]
  have hnodup : (L.put id level i level).Nodup := by
    rw [Levels.put_self, (List.perm_insertIdx id _ hi).nodup_iff, List.nodup_cons]
    exact ⟨by simp, (h.laidOut level).nodup.filter _⟩
  have hrest : ∀ g, g ≠ level → ∀ a n, t₂.spot a = some (g, n) ↔
      a ≠ id ∧ t.spot a = some (g, n) := by
    intro g hg a n
    rw [hren]
    by_cases ha : a ∈ L.put id level i level
    · obtain ⟨m, hm⟩ := (hmem a).1 ha
      constructor
      · intro heq
        simp only [renumbered, hm, ha, if_true, Option.map_some, Option.some.injEq,
          Prod.mk.injEq] at heq
        exact absurd heq.1.symm hg
      · rintro ⟨hne, heq⟩
        rw [← hother a hne, hm, Option.some.injEq, Prod.mk.injEq] at heq
        exact absurd heq.1.symm hg
    · rw [renumbered_of_notMem ha]
      have hne : a ≠ id := fun heq => ha ((hmem a).2 (heq ▸ hid))
      rw [hother a hne]
      simp [hne]
  refine ⟨hren ▸ LaidOut.renumbered hnodup hmem, fun g hg => ?_, fun g hg hnew => ?_⟩
  · rw [Levels.put_of_ne hg]
    refine (h.laidOut g).listed.filter _ (fun a => ?_) fun a n hn => ((hrest g hg a n).1 hn).2
    rw [decide_eq_true_eq]
    constructor
    · rintro ⟨n, hn⟩
      exact ⟨⟨n, ((hrest g hg a n).1 hn).2⟩, ((hrest g hg a n).1 hn).1⟩
    · rintro ⟨⟨n, hn⟩, hne⟩
      exact ⟨n, (hrest g hg a n).2 ⟨hne, hn⟩⟩
  · rw [Levels.put_of_ne hg, filter_ne_of_notMem hnew]
    refine (h.laidOut g).congr fun a n => ?_
    rw [hrest g hg]
    refine and_iff_right_of_imp fun hn heq => hnew ?_
    exact heq ▸ (h.laidOut g).mem.2 ⟨n, hn⟩

theorem Levels.length_put_le (hone : (L .presenting).length ≤ 1)
    (hroom : level = .presenting → (L .presenting).filter (· ≠ id) = []) :
    (L.put id level i .presenting).length ≤ 1 := by
  unfold Levels.put
  split_ifs with hg
  · rw [hroom hg.symm]
    exact List.length_insertIdx_le_succ
  · exact (List.length_filter_le _ _).trans hone

/-- A level that only lists what it has is laid out by renumbering it. -/
theorem Layout.close {L : Levels} (hone : (L .presenting).length ≤ 1)
    (hold : Listed t₂.spot old (L old)) (hrest : ∀ g, g ≠ old → LaidOut t₂.spot g (L g))
    (hren : t₃.spot = renumbered (L old) t₂.spot) : Layout t₃ L := by
  refine ⟨fun g => ?_, hone⟩
  rw [hren]
  by_cases hg : g = old
  · subst hg
    exact LaidOut.renumbered hold.nodup hold.mem
  · exact (hrest g hg).renumbered_of_ne hg fun a ha => (hold.mem a).1 ha

end Placing

section Requests

variable {t t' : Sponsors} {L : Levels} {id : Id}

theorem listIdsByLevel_ok {level : SponsorLevel} {l : List Id}
    (h : sponsorsRepository.listIdsByLevel level t = .ok (l, t')) :
    l = sponsorsRepository.idsByLevel t level ∧ t' = t := by
  cases h
  exact ⟨rfl, rfl⟩

theorem renumber_ok {ids : List Id} {u : Unit}
    (h : sponsorsRepository.renumber ids t = .ok (u, t')) : t'.spot = renumbered ids t.spot := by
  cases h
  exact spot_renumber ids

theorem checkLogo_ok {logo : SponsorLogoUpload} {r : Rat × Rat}
    (h : sponsorsService.checkLogo logo t = .ok (r, t')) : t' = t := by
  unfold sponsorsService.checkLogo at h
  rcases hlogo : logo.inspected with reason | shape
  · rw [hlogo] at h
    cases h
  · rw [hlogo] at h
    exact (SponsorTx.pure_ok h).2

theorem storeLogo_ok {logo : SponsorLogoUpload} {r : String}
    (h : sponsorsService.storeLogo logo t = .ok (r, t')) : t' = t := by
  unfold sponsorsService.storeLogo at h
  rcases hlogo : logo.stored with _ | key
  · rw [hlogo] at h
    cases h
  · rw [hlogo] at h
    exact (SponsorTx.pure_ok h).2

theorem mapM_ok {α β : Type} {f : α → SponsorTx β} {x : Option α} {r : Option β}
    (hf : ∀ a r t', f a t = .ok (r, t') → t' = t) (h : x.mapM f t = .ok (r, t')) : t' = t := by
  rcases x with _ | a
  · exact (SponsorTx.pure_ok h).2
  · have h : ((f a t).bind fun p => .ok (some p.1, p.2)) = .ok (r, t') := h
    rcases hfa : f a t with e | ⟨b, s⟩
    · rw [hfa] at h
      cases h
    · rw [hfa] at h
      cases h
      exact hf a b _ hfa

theorem Layout.not_mem (h : Layout t L) (hnew : t.lookup id = none) (g : SponsorLevel) :
    id ∉ L g := by
  intro hmem
  obtain ⟨n, hn⟩ := (h.laidOut g).mem.1 hmem
  obtain ⟨row, hrow, -⟩ := spot_eq_some.1 hn
  rw [hnew] at hrow
  cases hrow

/-- A sponsor that stays in its level displaces nobody. -/
theorem Layout.displaced_eq (h : Layout t L) {level : SponsorLevel} (hmem : id ∈ L level) :
    L.displaced (some id) level = L := by
  unfold Levels.displaced
  split_ifs with hpres
  · rcases L.demoted_cases (some id) with ⟨-, heq⟩ | ⟨c, rest, hc, -⟩
    · exact heq
    · obtain ⟨hL, hne⟩ := h.presenting_eq hc
      rw [hpres, hL, List.mem_singleton] at hmem
      exact absurd (congrArg some hmem) (of_decide_eq_true hne)
  · rfl

/-- Nobody is lost. -/
theorem Layout.mem_displaced (h : Layout t L) {keepId : Option Id} {level g : SponsorLevel}
    (hmem : id ∈ L g) : ∃ g', id ∈ L.displaced keepId level g' := by
  unfold Levels.displaced
  split_ifs
  · rcases L.demoted_cases keepId with ⟨-, heq⟩ | ⟨c, rest, hc, -, hpart, hsupp⟩
    · exact ⟨g, by rwa [heq]⟩
    · cases g with
      | presenting =>
        rw [(h.presenting_eq hc).1, List.mem_singleton] at hmem
        exact ⟨.partner, hpart ▸ hmem ▸ List.mem_cons_self⟩
      | partner => exact ⟨.partner, hpart ▸ List.mem_cons_of_mem c hmem⟩
      | supporter => exact ⟨.supporter, hsupp ▸ hmem⟩
  · exact ⟨g, hmem⟩

theorem create_layout (h : Layout t L) {input : SponsorInput} {logo : SponsorLogoUpload}
    {time : Time} {r : SponsorRecord}
    (hrun : sponsorsService.create id input logo time t = .ok (r, t')) :
    (∀ g, id ∉ L g) ∧ Layout t' (L.placed none id input.level input.position) := by
  obtain ⟨shape, s₁, hcheck, hrun⟩ := SponsorTx.bind_ok hrun
  obtain ⟨key, s₂, hstore, hrun⟩ := SponsorTx.bind_ok hrun
  obtain ⟨demoted, s₃, hdemote, hrun⟩ := SponsorTx.bind_ok hrun
  obtain ⟨order, s₄, hlist, hrun⟩ := SponsorTx.bind_ok hrun
  obtain ⟨row, s₅, hinsert, hrun⟩ := SponsorTx.bind_ok hrun
  obtain ⟨u, s₆, hrenumber, hrun⟩ := SponsorTx.bind_ok hrun
  obtain ⟨-, rfl⟩ := SponsorTx.pure_ok hrun
  have hs₂ := (storeLogo_ok hstore).trans (checkLogo_ok hcheck)
  rw [hs₂] at hdemote
  have h₃ := demoteFor_layout h hdemote
  obtain ⟨horder, hs₄⟩ := listIdsByLevel_ok hlist
  rw [h₃.idsByLevel] at horder
  obtain ⟨hnew, hs₅⟩ := insert_ok hinsert
  rw [hs₄] at hnew hs₅
  have hnot := h₃.not_mem hnew
  have hfilter : order.filter (· ≠ id) = order := filter_ne_of_notMem (horder ▸ hnot input.level)
  have hren := renumber_ok hrenumber
  rw [← hfilter, horder] at hren
  have hid : ∃ n, s₅.spot id = some (input.level, n) := ⟨_, by rw [hs₅, spot_insert, if_pos rfl]⟩
  obtain ⟨hlevel, -, hrest⟩ := h₃.put (fun a ha => by rw [hs₅, spot_insert, if_neg ha]) hid
    (placeIn_le _ id input.position) (hren.trans (by rw [Levels.put_self]; rfl))
  refine ⟨fun g hg => ?_, fun g => ?_, Levels.length_put_le h₃.presenting fun hpres => ?_⟩
  · obtain ⟨g', hg'⟩ := h.mem_displaced hg
    exact hnot g' hg'
  · by_cases hg : g = input.level
    · exact hg ▸ hlevel
    · exact hrest g hg (hnot g)
  · rw [hpres]
    exact Levels.displaced_filter fun c _ => nofun

theorem update_layout (h : Layout t L) {input : SponsorInput} {logo : Option SponsorLogoUpload}
    {time : Time} {r : SponsorRecord}
    (hrun : sponsorsService.update id input logo time t = .ok (r, t')) :
    ∃ current, t.lookup id = some current ∧ Layout t' (L.placed (some id) id input.level
      (input.position <|> if current.level = input.level then some (current.position : Int) else none)) := by
  obtain ⟨shape, s₁, hcheck, hrun⟩ := SponsorTx.bind_ok hrun
  obtain ⟨found, s₂, hfound, hrun⟩ := SponsorTx.bind_ok hrun
  obtain ⟨key, s₃, hstore, hrun⟩ := SponsorTx.bind_ok hrun
  obtain ⟨current, s₄, hcurrent, hrun⟩ := SponsorTx.bind_ok hrun
  obtain ⟨demoted, s₅, hdemote, hrun⟩ := SponsorTx.bind_ok hrun
  obtain ⟨order, s₆, hlist, hrun⟩ := SponsorTx.bind_ok hrun
  obtain ⟨row, s₇, hupdate, hrun⟩ := SponsorTx.bind_ok hrun
  have hs₃ : s₃ = t := (mapM_ok (fun _ _ _ => storeLogo_ok) hstore).trans
    ((get_ok hfound).2.trans (mapM_ok (fun _ _ _ => checkLogo_ok) hcheck))
  obtain ⟨hrow, hs₄⟩ := get_ok hcurrent
  rw [hs₄, hs₃] at hdemote
  rw [hs₃] at hrow
  have h₅ := demoteFor_layout h hdemote
  obtain ⟨horder, hs₆⟩ := listIdsByLevel_ok hlist
  rw [h₅.idsByLevel] at horder
  refine ⟨current, hrow, ?_⟩
  rcases row with _ | row
  · cases hrun
  obtain ⟨u, s₈, hrenumber, hrun⟩ := SponsorTx.bind_ok hrun
  rcases update_ok hupdate with ⟨-, hnone, -⟩ | ⟨row', -, hs₇⟩
  · cases hnone
  have hren := renumber_ok hrenumber
  rw [hs₆] at hs₇
  rw [horder] at hren
  have hid : ∃ n, s₇.spot id = some (input.level, n) :=
    ⟨_, by rw [hs₇, spot_insert, if_pos rfl]; rfl⟩
  obtain ⟨hlevel, hlisted, hrest⟩ := h₅.put (fun a ha => by rw [hs₇, spot_insert, if_neg ha]) hid
    (placeIn_le _ id _) (hren.trans (by rw [Levels.put_self]; rfl))
  have hnot : ∀ g, g ≠ current.level → id ∉ L.displaced (some id) input.level g := by
    intro g hg hmem
    refine hg (h.level_unique (Levels.mem_of_mem_displaced hmem) ?_)
    exact (h.laidOut _).mem.2 ⟨_, spot_eq_some.2 ⟨current, hrow, rfl, rfl⟩⟩
  have hone : (L.placed (some id) id input.level (input.position <|>
      if current.level = input.level then some (current.position : Int) else none)
        .presenting).length ≤ 1 := by
    refine Levels.length_put_le h₅.presenting fun hpres => ?_
    rw [hpres]
    exact Levels.displaced_filter fun c hc heq => hc (Option.some.inj heq).symm
  by_cases hsame : current.level = input.level
  · rw [if_neg (not_not.2 hsame)] at hrun
    obtain ⟨-, rfl⟩ := SponsorTx.pure_ok hrun
    refine ⟨fun g => ?_, hone⟩
    by_cases hg : g = input.level
    · exact hg ▸ hlevel
    · exact hrest g hg (hnot g (hsame ▸ hg))
  · rw [if_pos hsame] at hrun
    obtain ⟨left, s₉, hleft, hrun⟩ := SponsorTx.bind_ok hrun
    obtain ⟨u', s₁₀, hclose, hrun⟩ := SponsorTx.bind_ok hrun
    obtain ⟨-, rfl⟩ := SponsorTx.pure_ok hrun
    obtain ⟨hids, hs₉⟩ := listIdsByLevel_ok hleft
    rw [idsByLevel_of_listed (hlisted _ hsame)] at hids
    have hren' := renumber_ok hclose
    rw [hids, hs₉] at hren'
    refine Layout.close hone (hlisted _ hsame) (fun g hg => ?_) hren'
    by_cases hg' : g = input.level
    · exact hg' ▸ hlevel
    · exact hrest g hg' (hnot g hg)

theorem setActive_spot {active : Bool} {time : Time} {r : SponsorRecord}
    (hrun : sponsorsService.setActive id active time t = .ok (r, t')) : t'.spot = t.spot := by
  obtain ⟨row, s, hupdate, hrun⟩ := SponsorTx.bind_ok hrun
  rcases row with _ | row
  · cases hrun
  obtain ⟨-, rfl⟩ := SponsorTx.pure_ok hrun
  rcases update_ok hupdate with ⟨-, hnone, -⟩ | ⟨row', hrow', rfl⟩
  · cases hnone
  funext a
  rw [spot_insert]
  split_ifs with ha
  · rw [ha]
    exact (spot_eq_some.2 ⟨row', hrow', rfl, rfl⟩).symm
  · rfl

theorem setPosition_layout (h : Layout t L) {position : Int} {r : SponsorRecord}
    (hrun : sponsorsService.setPosition id position t = .ok (r, t')) :
    ∃ current, t.lookup id = some current ∧
      Layout t' (L.placed (some id) id current.level (some position)) := by
  obtain ⟨current, s₁, hcurrent, hrun⟩ := SponsorTx.bind_ok hrun
  obtain ⟨order, s₂, hlist, hrun⟩ := SponsorTx.bind_ok hrun
  obtain ⟨u, s₃, hrenumber, hrun⟩ := SponsorTx.bind_ok hrun
  obtain ⟨-, rfl⟩ := SponsorTx.pure_ok hrun
  obtain ⟨hrow, hs₁⟩ := get_ok hcurrent
  obtain ⟨horder, hs₂⟩ := listIdsByLevel_ok hlist
  rw [hs₁, h.idsByLevel] at horder
  have hren := renumber_ok hrenumber
  rw [hs₂, hs₁, horder] at hren
  have hspot := spot_eq_some.2 ⟨current, hrow, rfl, rfl⟩
  have hmem : id ∈ L current.level := (h.laidOut _).mem.2 ⟨_, hspot⟩
  refine ⟨current, hrow, ?_⟩
  unfold Levels.placed
  simp only [h.displaced_eq hmem]
  obtain ⟨hlevel, -, hrest⟩ := h.put (fun a _ => rfl) ⟨_, hspot⟩ (placeIn_le _ id (some position))
    (hren.trans (by rw [Levels.put_self]; rfl))
  refine ⟨fun g => ?_, Levels.length_put_le h.presenting fun hpres => ?_⟩
  · by_cases hg : g = current.level
    · exact hg ▸ hlevel
    · exact hrest g hg fun hg' => hg (h.level_unique hg' hmem)
  · have hself := h.displaced_eq hmem
    rw [hpres] at hself
    rw [← hself]
    exact Levels.displaced_filter fun c hc heq => hc (Option.some.inj heq).symm

theorem delete_layout (h : Layout t L) {u : Unit}
    (hrun : sponsorsService.delete id t = .ok (u, t')) : Layout t' (L.remove id) := by
  obtain ⟨row, s, hdelete, hrun⟩ := SponsorTx.bind_ok hrun
  have hrow : row = t.lookup id ∧ s = t.erase id := by
    cases hdelete
    exact ⟨rfl, rfl⟩
  rcases row with _ | deleted
  · cases hrun
  obtain ⟨left, s₂, hleft, hclose⟩ := SponsorTx.bind_ok hrun
  obtain ⟨hids, hs₂⟩ := listIdsByLevel_ok hleft
  have hspot : ∀ a g n, s.spot a = some (g, n) ↔ a ≠ id ∧ t.spot a = some (g, n) := by
    intro a g n
    rw [hrow.2, spot_erase]
    split_ifs with ha <;> simp [ha]
  have hlisted : ∀ g, Listed s.spot g (L.remove id g) := by
    refine fun g => (h.laidOut g).listed.filter _ (fun a => ?_) fun a n hn => ((hspot a g n).1 hn).2
    simp only [hspot, decide_eq_true_eq, exists_and_left, and_comm]
  have hren := renumber_ok hclose
  rw [hids, hs₂, idsByLevel_of_listed (hlisted _)] at hren
  refine Layout.close ((List.length_filter_le _ _).trans h.presenting) (hlisted _) (fun g hg => ?_)
    hren
  have hnot : id ∉ L g := fun hmem => hg (h.level_unique hmem ((h.laidOut _).mem.2
    ⟨_, spot_eq_some.2 ⟨deleted, hrow.1.symm, rfl, rfl⟩⟩))
  have hkept : L.remove id g = L g := filter_ne_of_notMem hnot
  rw [hkept]
  refine (h.laidOut g).congr fun a n => (hspot a g n).trans (and_iff_right_of_imp fun hn heq => ?_)
  exact hnot (heq ▸ (h.laidOut g).mem.2 ⟨n, hn⟩)

end Requests

section Placements

/-- What a request places: a sponsor in a level, its own when none is named, at a position. -/
structure Placement where
  id : Id
  level : Option SponsorLevel
  requested : Option Int

def SponsorOp.placement : SponsorOp → Option Placement
  | .create id input _ _ | .update id input _ _ => some ⟨id, some input.level, input.position⟩
  | .setPosition id position => some ⟨id, none, some position⟩
  | .setActive _ _ _ | .delete _ => none

def SponsorOp.id : SponsorOp → Id
  | .create id _ _ _ | .update id _ _ _ | .setActive id _ _ | .setPosition id _ | .delete id => id

/-- The level it is placed in. -/
def Placement.levelIn (p : Placement) (t : Sponsors) : Option SponsorLevel :=
  p.level <|> (t.spot p.id).map (·.1)

/-- The sponsor is in the level, at the position requested as far as the level goes; with none
requested it keeps its own, and in a level new to it comes last. -/
structure Placement.Sits (p : Placement) (t t' : Sponsors) (level : SponsorLevel) (n : Nat) :
    Prop where
  spot : t'.spot p.id = some (level, n)
  requested : ∀ r, p.requested = some r →
    (n : Int) = min (max r 1) ((t'.positions level).length : Int)
  own : p.requested = none → ∀ m, t.spot p.id = some (level, m) → n = m
  last : p.requested = none → (∀ m, t.spot p.id ≠ some (level, m)) →
    n = (t'.positions level).length

/-- What a request that commits does to the places: every sponsor it is not about stays in its level,
in the same order, but for the one displaced from presenting. -/
structure Rearranged (t : Sponsors) (op : SponsorOp) (t' : Sponsors) : Prop where
  placed : ∀ p, op.placement = some p → ∃ level n, p.levelIn t = some level ∧ p.Sits t t' level n
  order : ∀ a b g m n m' n', (∀ p, op.placement = some p → a ≠ p.id ∧ b ≠ p.id) →
    t.spot a = some (g, m) → t.spot b = some (g, n) →
    t'.spot a = some (g, m') → t'.spot b = some (g, n') → (m < n ↔ m' < n')
  displaced : ∀ p, op.placement = some p → p.levelIn t = some .presenting → ∀ c n, c ≠ p.id →
    t.spot c = some (.presenting, n) → t'.spot c = some (.partner, 1)
  stays : ∀ a g n, a ≠ op.id → t.spot a = some (g, n) → (∃ n', t'.spot a = some (g, n')) ∨
    g = .presenting ∧ ∃ p, op.placement = some p ∧ p.levelIn t = some .presenting

end Placements

section Rearranging

variable {t t' : Sponsors} {L : Levels} {keepId : Option Id} {id a b c : Id} {level g : SponsorLevel}
  {requested : Option Int}

theorem Layout.placed_spot (h' : Layout t' (L.placed keepId id level requested)) :
    ∃ n, t'.spot id = some (level, n) ∧ (n : Int) = requested.elim
      ((t'.positions level).length : Int) fun r => min (max r 1) ((t'.positions level).length : Int) := by
  let rest := (L.displaced keepId level level).filter (· ≠ id)
  have horder : L.placed keepId id level requested level =
      rest.insertIdx ((placeIn rest id requested).position - 1) id := Levels.put_self
  have hle := placeIn_le rest id requested
  have hpos := placeIn_pos rest id requested
  have hsize : (t'.positions level).length = rest.length + 1 := by
    rw [h'.length_positions, horder, List.length_insertIdx_of_le_length hle]
  refine ⟨(placeIn rest id requested).position, ((h'.laidOut level) _ _).2
    ⟨(placeIn rest id requested).position - 1, ?_, by omega⟩, ?_⟩
  · rw [horder, List.getElem?_insertIdx_self, if_pos hle]
  · rw [hsize]
    rcases requested with _ | r <;> simp only [placeIn, Option.elim] <;> omega

/-- Its own position is within the level it stays in. -/
theorem Layout.own_le (h : Layout t L) (h' : Layout t' (L.placed (some id) id level requested))
    {m : Nat} (hm : t.spot id = some (level, m)) : 1 ≤ m ∧ m ≤ (t'.positions level).length := by
  obtain ⟨i, hi, rfl⟩ := (h.laidOut level id m).1 hm
  have hmem := List.mem_of_getElem? hi
  obtain ⟨hlt, -⟩ := List.getElem?_eq_some_iff.1 hi
  have hrest : (L level).length = ((L level).filter (· ≠ id)).length + 1 := by
    have herase : (L level).erase id = (L level).filter (· ≠ id) := by
      rw [(h.laidOut level).nodup.erase_eq_filter]
      exact List.filter_congr fun a _ =>
        Bool.eq_iff_iff.2 (bne_iff_ne.trans decide_eq_true_iff.symm)
    rw [← herase, List.length_erase_of_mem hmem]
    omega
  rw [h'.length_positions]
  show 1 ≤ i + 1 ∧ i + 1 ≤ ((L.displaced (some id) level).put id level _ level).length
  rw [h.displaced_eq hmem, Levels.put_self, List.length_insertIdx_of_le_length]
  · omega
  · have := placeIn_le ((L level).filter (· ≠ id)) id requested
    rwa [← h.displaced_eq hmem] at this ⊢

theorem Layout.before_displaced (h : Layout t L) (ha : a ∈ L g) (hb : b ∈ L g)
    (ha' : a ∈ L.displaced keepId level g) :
    Before (L.displaced keepId level g) a b ↔ Before (L g) a b := by
  unfold Levels.displaced at ha' ⊢
  split_ifs at ha' ⊢
  · rcases L.demoted_cases keepId with ⟨-, heq⟩ | ⟨c, rest, hc, hpres, hpart, hsupp⟩
    · rw [heq]
    · have hout : ∀ x, x ∈ L .partner → x ≠ c := by
        rintro x hx rfl
        have hmem := (List.mem_filter.1 (hc ▸ List.mem_cons_self : x ∈ (L .presenting).filter _)).1
        cases h.level_unique hx hmem
      cases g with
      | presenting =>
        rw [hpres] at ha'
        cases ha'
      | partner => rw [hpart, before_cons (hout a ha) (hout b hb)]
      | supporter => rw [hsupp]
  · rfl

theorem Layout.placed_order (h : Layout t L) (h' : Layout t' (L.placed keepId id level requested))
    (ha : a ≠ id) (hb : b ≠ id) {m n m' n' : Nat} (hm : t.spot a = some (g, m))
    (hn : t.spot b = some (g, n)) (hm' : t'.spot a = some (g, m'))
    (hn' : t'.spot b = some (g, n')) : m < n ↔ m' < n' := by
  have hkept : a ∈ L.displaced keepId level g :=
    Levels.mem_put ((h'.laidOut g).mem.2 ⟨m', hm'⟩) ha
  rw [(h.laidOut g).before hm hn, (h'.laidOut g).before hm' hn']
  refine Iff.trans ?_ (Levels.before_put ha hb).symm
  exact (h.before_displaced ((h.laidOut g).mem.2 ⟨m, hm⟩) ((h.laidOut g).mem.2 ⟨n, hn⟩) hkept).symm

/-- Whoever was presenting is first of the partners. -/
theorem Layout.placed_displaced (h : Layout t L) (hkeep : ∀ c, c ≠ id → keepId ≠ some c)
    (h' : Layout t' (L.placed keepId id .presenting requested)) (hc : c ≠ id) {n : Nat}
    (hn : t.spot c = some (.presenting, n)) : t'.spot c = some (.partner, 1) := by
  have hmem : c ∈ (L .presenting).filter (keepId ≠ some ·) :=
    List.mem_filter.2 ⟨(h.laidOut _).mem.2 ⟨n, hn⟩, decide_eq_true (hkeep c hc)⟩
  rcases L.demoted_cases keepId with ⟨hnobody, -⟩ | ⟨d, rest, hd, -, hpart, -⟩
  · rw [hnobody] at hmem
    cases hmem
  · obtain ⟨hL, -⟩ := h.presenting_eq hd
    have heq := (List.mem_filter.1 hmem).1
    rw [hL, List.mem_singleton] at heq
    subst heq
    refine ((h'.laidOut .partner) c 1).2 ⟨0, ?_, rfl⟩
    show ((L.demoted keepId).put id .presenting _ .partner)[0]? = some c
    rw [Levels.put_of_ne (by decide : SponsorLevel.partner ≠ .presenting), hpart, List.filter_cons, if_pos (decide_eq_true hc)]
    rfl

theorem Layout.placed_stays (h : Layout t L) (h' : Layout t' (L.placed keepId id level requested))
    (ha : a ≠ id) {n : Nat} (hn : t.spot a = some (g, n)) :
    (∃ n', t'.spot a = some (g, n')) ∨ g = .presenting ∧ level = .presenting := by
  have hmem := (h.laidOut g).mem.2 ⟨n, hn⟩
  by_cases hdis : g = .presenting ∧ level = .presenting
  · exact .inr hdis
  · have hkept : a ∈ L.displaced keepId level g := by
      unfold Levels.displaced
      split_ifs with hpres
      · rcases L.demoted_cases keepId with ⟨-, heq⟩ | ⟨c, rest, -, -, hpart, hsupp⟩
        · rwa [heq]
        · cases g with
          | presenting => exact absurd ⟨rfl, hpres⟩ hdis
          | partner => exact hpart ▸ List.mem_cons_of_mem c hmem
          | supporter => rwa [hsupp]
      · exact hmem
    have hrest : a ∈ (L.displaced keepId level g).filter (· ≠ id) :=
      List.mem_filter.2 ⟨hkept, decide_eq_true ha⟩
    refine .inl ((h'.laidOut g).mem.1 ?_)
    show a ∈ (L.displaced keepId level).put id level _ g
    by_cases hg : g = level
    · subst hg
      rw [Levels.put_self, List.mem_insertIdx (placeIn_le _ id requested)]
      exact .inr hrest
    · rwa [Levels.put_of_ne hg]

/-- A placement rearranges the table as its lists say. -/
theorem Layout.rearranged (h : Layout t L) {op : SponsorOp} {p : Placement}
    (hp : op.placement = some p) (h' : Layout t' (L.placed keepId p.id level requested))
    (hlevel : p.levelIn t = some level) (hkeep : ∀ c, c ≠ p.id → keepId ≠ some c)
    (hid : op.id = p.id)
    (hsits : ∀ n, t'.spot p.id = some (level, n) → (n : Int) = requested.elim
      ((t'.positions level).length : Int) (fun r => min (max r 1) ((t'.positions level).length : Int)) →
      p.Sits t t' level n) : Rearranged t op t' := by
  have hthis : ∀ q, op.placement = some q → q = p := fun q hq => Option.some.inj (hq.symm.trans hp)
  refine ⟨fun q hq => ?_, fun a b g m n m' n' hother => ?_, fun q hq hpres c n => ?_,
    fun a g n ha hn => ?_⟩
  · rw [hthis q hq]
    obtain ⟨n, hn, hclamp⟩ := h'.placed_spot
    exact ⟨level, n, hlevel, hsits n hn hclamp⟩
  · exact h.placed_order h' (hother p hp).1 (hother p hp).2
  · rw [hthis q hq] at hpres ⊢
    rw [hlevel, Option.some.injEq] at hpres
    subst hpres
    exact fun hc hn => h.placed_displaced hkeep h' hc hn
  · refine (h.placed_stays h' (hid ▸ ha) hn).imp_right fun hpres => ?_
    exact ⟨hpres.1, p, hp, hpres.2 ▸ hlevel⟩

end Rearranging

section Steps

variable {t t' : Sponsors} {L : Levels}

theorem discard_ok {α : Type} {x : SponsorTx α} {u : Unit} (h : (discard x) t = .ok (u, t')) :
    ∃ r, x t = .ok (r, t') := by
  have h : ((x t).bind fun p => .ok (PUnit.unit, p.2)) = .ok (u, t') := h
  rcases hx : x t with e | ⟨r, s⟩
  · rw [hx] at h
    cases h
  · rw [hx] at h
    cases h
    exact ⟨r, rfl⟩

theorem create_rearranged (h : Layout t L) {id : Id} {input : SponsorInput}
    {logo : SponsorLogoUpload} {time : Time} {r : SponsorRecord}
    (hrun : sponsorsService.create id input logo time t = .ok (r, t')) :
    Rearranged t (.create id input logo time) t' := by
  obtain ⟨hnew, h'⟩ := create_layout h hrun
  refine h.rearranged rfl h' rfl (fun c _ => nofun) rfl fun n hn hclamp => ?_
  have hout : ∀ m, t.spot id ≠ some (input.level, m) := fun m hm =>
    hnew input.level ((h.laidOut _).mem.2 ⟨m, hm⟩)
  refine ⟨hn, fun r hr => ?_, fun _ m hm => absurd hm (hout m), fun hr _ => ?_⟩ <;>
    have hr : input.position = _ := hr <;> rw [hr] at hclamp
  · exact hclamp
  · exact Int.ofNat.inj hclamp

theorem keepId_ne {id c : Id} (hc : c ≠ id) : some id ≠ some c :=
  fun heq => hc (Option.some.inj heq).symm

theorem update_rearranged (h : Layout t L) {id : Id} {input : SponsorInput}
    {logo : Option SponsorLogoUpload} {time : Time} {r : SponsorRecord}
    (hrun : sponsorsService.update id input logo time t = .ok (r, t')) :
    Rearranged t (.update id input logo time) t' := by
  obtain ⟨current, hrow, h'⟩ := update_layout h hrun
  refine h.rearranged rfl h' rfl (fun c => keepId_ne) rfl fun n hn hclamp => ?_
  have hspot := spot_eq_some.2 ⟨current, hrow, rfl, rfl⟩
  refine ⟨hn, fun r hr => ?_, fun hr m hm => ?_, fun hr hout => ?_⟩ <;>
    have hr : input.position = _ := hr <;> rw [hr] at hclamp
  · exact hclamp
  · have hown := h.own_le h' hm
    have hm : t.spot id = some (input.level, m) := hm
    rw [hspot, Option.some.injEq, Prod.mk.injEq] at hm
    rw [if_pos hm.1] at hclamp
    have hclamp : (n : Int) = min (max (current.position : Int) 1) _ := hclamp
    omega
  · have hlevel : ¬current.level = input.level := fun heq => hout current.position (heq ▸ hspot)
    rw [if_neg hlevel] at hclamp
    exact Int.ofNat.inj hclamp

theorem setPosition_rearranged (h : Layout t L) {id : Id} {position : Int} {r : SponsorRecord}
    (hrun : sponsorsService.setPosition id position t = .ok (r, t')) :
    Rearranged t (.setPosition id position) t' := by
  obtain ⟨current, hrow, h'⟩ := setPosition_layout h hrun
  have hspot := spot_eq_some.2 ⟨current, hrow, rfl, rfl⟩
  refine h.rearranged rfl h' ?_ (fun c => keepId_ne) rfl fun n hn hclamp => ?_
  · exact congrArg (Option.map _) hspot
  · refine ⟨hn, fun r hr => ?_, nofun, nofun⟩
    cases hr
    exact hclamp

/-- Nothing is placed: who is left keeps its place in the order. -/
theorem Layout.rearranged_of_none (h : Layout t L) {op : SponsorOp} {L' : Levels}
    (hop : op.placement = none) (h' : Layout t' L')
    (horder : ∀ a b g, a ∈ L' g → b ∈ L' g → (Before (L' g) a b ↔ Before (L g) a b))
    (hkept : ∀ a g, a ≠ op.id → a ∈ L g → a ∈ L' g) : Rearranged t op t' := by
  have hnone : ∀ p, op.placement ≠ some p := fun p hp => by
    rw [hop] at hp
    cases hp
  refine ⟨fun p hp => absurd hp (hnone p), fun a b g m n m' n' _ hm hn hm' hn' => ?_,
    fun p hp => absurd hp (hnone p), fun a g n ha hn => ?_⟩
  · rw [(h.laidOut g).before hm hn, (h'.laidOut g).before hm' hn']
    exact (horder a b g ((h'.laidOut g).mem.2 ⟨m', hm'⟩) ((h'.laidOut g).mem.2 ⟨n', hn'⟩)).symm
  · exact .inl ((h'.laidOut g).mem.1 (hkept a g ha ((h.laidOut g).mem.2 ⟨n, hn⟩)))

theorem setActive_rearranged (h : Layout t L) {id : Id} {active : Bool} {time : Time}
    {r : SponsorRecord} (hrun : sponsorsService.setActive id active time t = .ok (r, t')) :
    Layout t' L ∧ Rearranged t (.setActive id active time) t' := by
  have h' : Layout t' L := ⟨fun g => setActive_spot hrun ▸ h.laidOut g, h.presenting⟩
  exact ⟨h', h.rearranged_of_none rfl h' (fun _ _ _ _ _ => Iff.rfl) fun _ _ _ ha => ha⟩

theorem delete_rearranged (h : Layout t L) {id : Id} {u : Unit}
    (hrun : sponsorsService.delete id t = .ok (u, t')) : Rearranged t (.delete id) t' := by
  refine h.rearranged_of_none rfl (delete_layout h hrun) (fun a b g ha hb => ?_) fun a g ha hmem => ?_
  · exact Levels.before_remove (of_decide_eq_true (List.mem_filter.1 ha).2)
      (of_decide_eq_true (List.mem_filter.1 hb).2)
  · exact List.mem_filter.2 ⟨hmem, decide_eq_true ha⟩

/-- A request that commits keeps the table laid out, and rearranges it as it says. -/
theorem run_rearranged (h : Layout t L) (op : SponsorOp) {u : Unit} (hrun : op.run t = .ok (u, t')) :
    (∃ L', Layout t' L') ∧ Rearranged t op t' := by
  cases op with
  | create id input logo time =>
    obtain ⟨r, hrun⟩ := discard_ok hrun
    exact ⟨⟨_, (create_layout h hrun).2⟩, create_rearranged h hrun⟩
  | update id input logo time =>
    obtain ⟨r, hrun⟩ := discard_ok hrun
    obtain ⟨current, -, h'⟩ := update_layout h hrun
    exact ⟨⟨_, h'⟩, update_rearranged h hrun⟩
  | setActive id active time =>
    obtain ⟨r, hrun⟩ := discard_ok hrun
    obtain ⟨h', hrearranged⟩ := setActive_rearranged h hrun
    exact ⟨⟨L, h'⟩, hrearranged⟩
  | setPosition id position =>
    obtain ⟨r, hrun⟩ := discard_ok hrun
    obtain ⟨current, -, h'⟩ := setPosition_layout h hrun
    exact ⟨⟨_, h'⟩, setPosition_rearranged h hrun⟩
  | delete id => exact ⟨⟨_, delete_layout h hrun⟩, delete_rearranged h hrun⟩

theorem step_eq_of_ok {op : SponsorOp} {u : Unit} (hrun : op.run t = .ok (u, t')) :
    t.step op = t' := by
  unfold Sponsors.step
  rw [hrun]

theorem Sponsors.WellPlaced.step (h : t.WellPlaced) (op : SponsorOp) : (t.step op).WellPlaced := by
  rcases hrun : op.run t with e | ⟨u, t'⟩
  · unfold Sponsors.step
    rw [hrun]
    exact h
  · obtain ⟨⟨L', h'⟩, -⟩ := run_rearranged h.layout op hrun
    rw [step_eq_of_ok hrun]
    exact h'.wellPlaced

/-- Over any sequence of requests to a well-placed list: it stays well placed after every one, and
every one that commits rearranges it as it says. -/
theorem sponsors_wellPlaced (h : t.WellPlaced) (ops : List SponsorOp) :
    (ops.foldl Sponsors.step t).WellPlaced ∧ EveryStep Sponsors.step (fun t op =>
      (t.step op).WellPlaced ∧ ∀ u t', op.run t = .ok (u, t') → t.step op = t' ∧ Rearranged t op t')
      t ops := by
  have hsteps : EveryStep Sponsors.step (fun t op =>
      (t.step op).WellPlaced ∧ ∀ u t', op.run t = .ok (u, t') → t.step op = t' ∧ Rearranged t op t')
      t ops :=
    EveryStep.of_invariant (fun _ op h => h.step op) (fun _ op h => ⟨h.step op, fun _ _ hrun =>
      ⟨step_eq_of_ok hrun, (run_rearranged h.layout op hrun).2⟩⟩) h
  exact ⟨EveryStep.keeps (fun _ op h _ => h.step op) h hsteps, hsteps⟩

/-- A presenting sponsor and two partners. -/
def threeSponsors : Sponsors :=
  let row (level : SponsorLevel) (position : Nat) (logoKey : String) : SponsorRecord :=
    ⟨"Sponsor", none, level, logoKey, 2, 1, .light, true, position, 0, 0⟩
  ((AList.singleton 1 (row .presenting 1 "a.svg")).insert 2 (row .partner 1 "b.svg")).insert 3
    (row .partner 2 "c.svg")

/-- The last partner takes over as presenting. -/
def takeover : SponsorOp := .update 3 ⟨"Sponsor", none, .presenting, .light, true, none⟩ none 5

/-- The one it displaces is first of the partners, before the partner that was there. -/
theorem sponsors_wellPlaced_takeover :
    ([takeover].foldl Sponsors.step threeSponsors).WellPlaced ∧
      (threeSponsors.step takeover).spot 3 = some (.presenting, 1) ∧
      (threeSponsors.step takeover).spot 1 = some (.partner, 1) ∧
      (threeSponsors.step takeover).spot 2 = some (.partner, 2) :=
  ⟨(sponsors_wellPlaced (t := threeSponsors)
      ⟨fun level => by cases level <;> decide +kernel, by decide +kernel⟩ [takeover]).1,
    by decide +kernel, by decide +kernel, by decide +kernel⟩

end Steps

end EchoAndAura
