import EchoAndAura.Keyset
import EchoAndAura.Proofs.Replicas

/-!
# Catching up

A change of a row puts it past every cursor there has been (`MovedOn`), so what a phone missed is
what is past its cursor.  The backlog has each of these rows once, tombstones too, in as many pages
as it takes, and brings a replica of then up to now (`backlog_complete`).
-/

namespace EchoAndAura

open room

variable {s s₀ s₁ s' : RoomStore} {who : Option Sender} {rows page : List StoredCheckIn}
  {row r : StoredCheckIn} {id : String} {cursor : Nat} {ps : List (List StoredCheckIn)}

section Sequence

/-- The rows' numbers are different, positive, and none is past the top. -/
def RoomStore.Sequenced (s : RoomStore) : Prop :=
  (s.rows.map (·.seq)).Nodup ∧ ∀ r ∈ s.rows, 0 < r.seq ∧ r.seq ≤ s.seq

/-- A ticket's row is as it was in `s₀`, or got a number that `s₀` had not handed out. -/
structure MovedOn (s₀ s : RoomStore) : Prop where
  epoch : s.epoch = s₀.epoch
  top : s₀.seq ≤ s.seq
  changed : ∀ id, s.get id = s₀.get id ∨ ∃ r, s.get id = some r ∧ s₀.seq < r.seq

theorem MovedOn.refl (s : RoomStore) : MovedOn s s := ⟨rfl, le_rfl, fun _ => .inl rfl⟩

theorem MovedOn.trans (h : MovedOn s₀ s₁) (h' : MovedOn s₁ s) : MovedOn s₀ s := by
  refine ⟨h'.epoch.trans h.epoch, h.top.trans h'.top, fun id => ?_⟩
  rcases h'.changed id with hget | ⟨r, hr, hlt⟩
  · rw [hget]
    exact h.changed id
  · exact .inr ⟨r, hr, h.top.trans_lt hlt⟩

theorem movedOn_put (s : RoomStore) (row : StoredCheckIn) (drawn : row.seq = s.nextSeq) :
    MovedOn s (s.put row drawn) := by
  refine ⟨rfl, Nat.le_succ _, fun id => ?_⟩
  rw [RoomStore.get_put]
  split_ifs
  · exact .inr ⟨row, rfl, drawn ▸ Nat.lt_succ_self _⟩
  · exact .inl rfl

theorem RoomChanges.movedOn (h : RoomChanges who s₀ rows s) : MovedOn s₀ s :=
  h.preserves (P := MovedOn s₀) (fun hs _ => hs.trans (movedOn_put _ _ _)) (.refl s₀)

theorem take_movedOn (s : RoomStore) (m : Incoming) : MovedOn s (take s m).2 := by
  obtain ⟨who, s₀, rows, hrows, hs₀, -⟩ := take_changes s m
  rcases hs₀ with rfl | ⟨p, rfl⟩
  · exact hrows.movedOn
  · obtain ⟨hepoch, htop, hchanged⟩ := hrows.movedOn
    exact ⟨hepoch, htop, hchanged⟩

theorem runRoom_movedOn : ∀ (ms : List Incoming) (s : RoomStore), MovedOn s (runRoom s ms)
  | [], s => .refl s
  | m :: ms, s => (take_movedOn s m).trans (runRoom_movedOn ms (take s m).2)

/-- In a room that started empty every row has been put by a change. -/
theorem MovedOn.sequenced {epoch : String} {revoked : List String}
    (h : MovedOn (.empty epoch revoked) s) : s.Sequenced := by
  refine ⟨List.pairwise_map.2 (s.ordered.imp Nat.ne_of_lt), fun r hr => ⟨?_, s.bounded r hr⟩⟩
  have hget := RoomStore.get_of_mem hr
  rcases h.changed r.ticketId with hempty | ⟨r', hr', hlt⟩
  · rw [hget] at hempty
    cases hempty
  · obtain rfl := Option.some.inj (hget.symm.trans hr')
    exact hlt

end Sequence

section Paging

/-- A page as it is sent. -/
def room.pageMessages (page : List StoredCheckIn) : List RoomMessage :=
  let rows := (page.filter (·.removed.isNone)).map wire
  (if rows.isEmpty then [] else [.checkins rows]) ++
    (page.filter (·.removed.isSome)).map undoMessage

theorem after_eq (s : RoomStore) (cursor limit : Nat) :
    s.after cursor limit = (Keyset.past (·.seq) s.rows cursor).take limit := by
  unfold RoomStore.after
  rw [List.mergeSort_of_pairwise]
  · rfl
  · exact (s.ordered.filter _).imp fun h => by simpa using h.le

/-- With a round for every page and one more, the loop sends them all. -/
theorem pages_eq (h : Keyset.Pages (·.seq) s.rows backlogPage cursor ps) :
    ∀ {fuel : Nat}, ps.length < fuel → pages s cursor fuel = ps.flatMap pageMessages := by
  induction h with
  | nothing none =>
    rintro (_ | fuel) hfuel
    · cases hfuel
    · simp only [pages, after_eq, none]
      rfl
  | short some few =>
    rintro (_ | fuel) hfuel
    · cases hfuel
    · obtain ⟨last, hlast⟩ := Option.isSome_iff_exists.1 (List.getLast?_isSome.2 some)
      simp only [pages, after_eq, hlast, if_pos few]
      simp [pageMessages]
  | full ends many rest ih =>
    rintro (_ | fuel) hfuel
    · cases hfuel
    · have hrest := ih (Nat.lt_of_succ_lt_succ hfuel)
      simp only [pages, after_eq, ends, if_neg many, hrest]
      simp [pageMessages]

theorem pageMessages_eq (page : List StoredCheckIn) :
    pageMessages page = merge (page.map announce) := by
  unfold merge
  dsimp only
  rw [rows_announce, rest_announce]
  rfl

def RoomMessage.isUndo : RoomMessage → Bool
  | .undo .. => true
  | _ => false

theorem pageMessages_rows (page : List StoredCheckIn) :
    (pageMessages page).flatMap (·.rows) = (page.filter (·.removed.isNone)).map wire := by
  unfold pageMessages
  dsimp only
  have hundos : ∀ l : List StoredCheckIn, (l.map undoMessage).flatMap (·.rows) = [] := by
    intro l
    induction l with
    | nil => rfl
    | cons t l ih => rw [List.map_cons, List.flatMap_cons, ih]; rfl
  rw [List.flatMap_append, hundos, List.append_nil]
  split_ifs with hnone
  · rw [List.isEmpty_iff.1 hnone]
    rfl
  · simp [RoomMessage.rows]

theorem pageMessages_undos (page : List StoredCheckIn) :
    (pageMessages page).filter (·.isUndo) = (page.filter (·.removed.isSome)).map undoMessage := by
  unfold pageMessages
  dsimp only
  rw [List.filter_append]
  have hundos : ((page.filter (·.removed.isSome)).map undoMessage).filter (·.isUndo) =
      (page.filter (·.removed.isSome)).map undoMessage := by
    refine List.filter_eq_self.2 fun m hm => ?_
    obtain ⟨t, -, rfl⟩ := List.mem_map.1 hm
    rfl
  rw [hundos]
  split_ifs <;> rfl

theorem flatMap_rows (ps : List (List StoredCheckIn)) :
    (ps.flatMap pageMessages).flatMap (·.rows) =
      (ps.flatten.filter (·.removed.isNone)).map wire := by
  induction ps with
  | nil => rfl
  | cons page ps ih =>
    rw [List.flatMap_cons, List.flatMap_append, ih, pageMessages_rows, List.flatten_cons,
      List.filter_append, List.map_append]

theorem flatMap_undos (ps : List (List StoredCheckIn)) :
    (ps.flatMap pageMessages).filter (·.isUndo) =
      (ps.flatten.filter (·.removed.isSome)).map undoMessage := by
  induction ps with
  | nil => rfl
  | cons page ps ih =>
    rw [List.flatMap_cons, List.filter_append, ih, pageMessages_undos, List.flatten_cons,
      List.filter_append, List.map_append]

end Paging

section Applying

variable {v : Replica}

theorem applyAll_append (v : Replica) (ms ms' : List RoomMessage) :
    v.applyAll (ms ++ ms') = (v.applyAll ms).applyAll ms' := List.foldl_append

theorem applyAll_announce_notMem : ∀ {rows : List StoredCheckIn} {v : Replica},
    id ∉ rows.map (·.ticketId) → v.applyAll (rows.map announce) id = v id
  | [], _, _ => rfl
  | row :: rows, v, h => by
    rw [List.map_cons, List.mem_cons, not_or] at h
    rw [List.map_cons, Replica.applyAll, List.foldl_cons]
    exact (applyAll_announce_notMem h.2).trans (by rw [apply_announce, if_neg h.1])

/-- Of rows of different tickets, each is what its ticket becomes. -/
theorem applyAll_announce_mem : ∀ {rows : List StoredCheckIn} {v : Replica},
    (rows.map (·.ticketId)).Nodup → r ∈ rows →
      v.applyAll (rows.map announce) r.ticketId = (standing (some r)).map wire
  | row :: rows, v, hnodup, hr => by
    rw [List.map_cons, List.nodup_cons] at hnodup
    rw [List.map_cons, Replica.applyAll, List.foldl_cons]
    rcases List.mem_cons.1 hr with rfl | hr
    · exact (applyAll_announce_notMem hnodup.1).trans (by rw [apply_announce, if_pos rfl])
    · exact applyAll_announce_mem hnodup.2 hr

theorem applyAll_page (hnodup : (page.map (·.ticketId)).Nodup) (v : Replica) :
    v.applyAll (pageMessages page) = v.applyAll (page.map announce) := by
  funext id
  rw [pageMessages_eq]
  by_cases htaken : TakenBack page id
  · rw [(applyAll_merge v page id).1 htaken]
    obtain ⟨t, ht, rfl, hremoved⟩ := htaken
    obtain ⟨by_, hby⟩ := Option.isSome_iff_exists.1 hremoved
    have hout : standing (some t) = none := standing_eq_none.2 (by simp [hby])
    rw [applyAll_announce_mem hnodup ht, hout]
    rfl
  · exact (applyAll_merge v page id).2 htaken

/-- Pages of different tickets do what their rows do one by one. -/
theorem applyAll_pages : ∀ {ps : List (List StoredCheckIn)} {v : Replica},
    (ps.flatten.map (·.ticketId)).Nodup →
      v.applyAll (ps.flatMap pageMessages) = v.applyAll (ps.flatten.map announce)
  | [], _, _ => rfl
  | page :: ps, v, h => by
    rw [List.flatten_cons, List.map_append, List.nodup_append] at h
    rw [List.flatMap_cons, List.flatten_cons, List.map_append, applyAll_append, applyAll_append,
      applyAll_page h.1, applyAll_pages h.2.1]

/-- What is past the top of then brings a replica of then up to now. -/
theorem MovedOn.applyAll (h : MovedOn s₀ s) :
    s₀.replica.applyAll ((Keyset.past (·.seq) s.rows s₀.seq).map announce) = s.replica := by
  have hnodup : ((Keyset.past (·.seq) s.rows s₀.seq).map (·.ticketId)).Nodup :=
    s.unique.sublist (List.filter_sublist.map _)
  funext id
  rcases h.changed id with hsame | ⟨r, hr, hlt⟩
  · have hnot : id ∉ (Keyset.past (·.seq) s.rows s₀.seq).map (·.ticketId) := by
      intro hmem
      obtain ⟨r, hr, rfl⟩ := List.mem_map.1 hmem
      obtain ⟨hrow, hlt⟩ := Keyset.mem_past.1 hr
      rw [RoomStore.get_of_mem hrow] at hsame
      exact absurd (RoomStore.seq_le_of_get hsame.symm) (not_le.2 hlt)
    rw [applyAll_announce_notMem hnot]
    unfold RoomStore.replica
    rw [hsame]
  · obtain ⟨hrow, rfl⟩ := RoomStore.get_eq_some.1 hr
    rw [applyAll_announce_mem hnodup (Keyset.mem_past.2 ⟨hrow, hlt⟩)]
    unfold RoomStore.replica
    rw [hr]

end Applying

/-- The backlog is a greeting, and the pages of what is past its start. -/
theorem backlog_pages (s : RoomStore) (cursor : Nat) (known : Option String) :
    ∃ ps, Keyset.Pages (·.seq) s.rows backlogPage
        (if known = some s.epoch ∧ cursor ≤ s.seq then cursor else 0) ps ∧
      backlog cursor known s = .hello s.epoch s.seq :: ps.flatMap pageMessages := by
  have hstart : (if (decide (known ≠ some s.epoch) || decide (s.seq < cursor)) = true then 0
      else cursor) = if known = some s.epoch ∧ cursor ≤ s.seq then cursor else 0 := by
    by_cases hknown : known = some s.epoch
    · by_cases hcursor : cursor ≤ s.seq
      · rw [if_neg (by simp [hknown, hcursor]), if_pos ⟨hknown, hcursor⟩]
      · rw [if_pos (by simpa [hknown] using hcursor), if_neg fun h => hcursor h.2]
    · rw [if_pos (by simp [hknown]), if_neg fun h => hknown h.1]
  obtain ⟨ps, hps⟩ := Keyset.exists_pages s.ordered (n := backlogPage) (by decide)
    (if known = some s.epoch ∧ cursor ≤ s.seq then cursor else 0)
  have hlength : ps.length < s.count + 1 := Nat.lt_succ_of_le (hps.length_le s.ordered (by decide))
  refine ⟨ps, hps, ?_⟩
  unfold backlog
  dsimp only
  rw [hstart, pages_eq hps hlength]

/-- In every room that messages can lead to: the rows are sequenced, and every message leaves a row
as it is or puts it past the top; a catch-up from any cursor ends, and has each row past its start
once, a standing one as a check-in and a tombstone as an undo; and it brings a replica that was the
room's at an earlier time, with the top of then as its cursor, up to the room's now. -/
theorem backlog_complete (epoch : String) (revoked : List String) (ms₀ ms : List Incoming)
    (cursor : Nat) (known : Option String) :
    let s₀ := runRoom (.empty epoch revoked) ms₀
    let s := runRoom s₀ ms
    let start := if known = some s.epoch ∧ cursor ≤ s.seq then cursor else 0
    let missed := s.rows.filter (start < ·.seq)
    s.Sequenced ∧ (∀ m, MovedOn s (take s m).2) ∧
      (∃ ps, Keyset.Pages (·.seq) s.rows backlogPage start ps ∧ ps.flatten = missed ∧
        backlog cursor known s = .hello s.epoch s.seq :: ps.flatMap pageMessages) ∧
      (backlog cursor known s).flatMap (·.rows) =
        (missed.filter (·.removed.isNone)).map wire ∧
      (backlog cursor known s).filter (·.isUndo) =
        (missed.filter (·.removed.isSome)).map undoMessage ∧
      s₀.replica.applyAll (backlog s₀.seq (some s₀.epoch) s) = s.replica := by
  intro s₀ s start missed
  have hmoved : MovedOn s₀ s := runRoom_movedOn ms s₀
  obtain ⟨ps, hps, hbacklog⟩ := backlog_pages s cursor known
  have hmissed : ps.flatten = missed := hps.flatten s.ordered (by decide)
  refine ⟨((runRoom_movedOn ms₀ _).trans hmoved).sequenced, take_movedOn s,
    ⟨ps, hps, hmissed, hbacklog⟩, ?_, ?_, ?_⟩
  · rw [hbacklog, List.flatMap_cons, flatMap_rows, hmissed]
    rfl
  · rw [hbacklog, List.filter_cons_of_neg (by simp [RoomMessage.isUndo]), flatMap_undos, hmissed]
  · obtain ⟨qs, hqs, hcatchup⟩ := backlog_pages s s₀.seq (some s₀.epoch)
    have hstart : (if some s₀.epoch = some s.epoch ∧ s₀.seq ≤ s.seq then s₀.seq else 0) = s₀.seq :=
      if_pos ⟨congrArg some hmoved.epoch.symm, hmoved.top⟩
    rw [hstart] at hqs
    have hpast := hqs.flatten s.ordered (by decide)
    rw [hcatchup, Replica.applyAll, List.foldl_cons]
    show s₀.replica.applyAll (qs.flatMap pageMessages) = s.replica
    rw [applyAll_pages, hpast, hmoved.applyAll]
    rw [hpast]
    exact s.unique.sublist (List.filter_sublist.map _)

end EchoAndAura
