import EchoAndAura.RelayLink
import EchoAndAura.Proofs.Backlog

/-!
# Catching up over dropped links

What the room sends on a connection, cut anywhere, leaves a phone with each ticket as the room has
it, or with the ticket's row among what it missed (`SentUpTo`).  So if nothing it missed is older
than what it heard, it knows the room up to its cursor (`Knows`), and a connection it hears to the
end brings it level.  A catch-up sends its check-ins before its undos, though, and a link that drops
between them leaves the cursor past undos that were not heard.
-/

namespace EchoAndAura

open room

variable {s s' s'' : RoomStore} {who : Option Sender} {rows : List StoredCheckIn}
  {row r : StoredCheckIn} {id : String} {v : Replica}

section Entries

/-- The tickets a message is about, with the numbers of their rows. -/
def RoomMessage.entries : RoomMessage → List (String × Nat)
  | .hello _ _ => []
  | .checkins rows => rows.map fun row => (row.ticketId, row.seq)
  | .undo ticketId _ _ seq => [(ticketId, seq)]

def entries (ms : List RoomMessage) : List (String × Nat) := ms.flatMap (·.entries)

theorem entries_append (ms ms' : List RoomMessage) :
    entries (ms ++ ms') = entries ms ++ entries ms' := List.flatMap_append

theorem entries_announce (row : StoredCheckIn) :
    (announce row).entries = [(row.ticketId, row.seq)] := by
  unfold announce
  split_ifs <;> rfl

theorem entries_map_announce (rows : List StoredCheckIn) :
    entries (rows.map announce) = rows.map fun row => (row.ticketId, row.seq) := by
  unfold entries
  rw [List.flatMap_map, ← List.flatMap_singleton' (rows.map _), List.flatMap_map]
  exact List.flatMap_congr fun row _ => entries_announce row

theorem entries_undos (tombs : List StoredCheckIn) :
    entries (tombs.map undoMessage) = tombs.map fun row => (row.ticketId, row.seq) := by
  induction tombs with
  | nil => rfl
  | cons t tombs ih =>
    rw [List.map_cons, entries, List.flatMap_cons]
    exact congrArg ((t.ticketId, t.seq) :: ·) ih

theorem setRows_notMem : ∀ {rows : List RoomCheckIn} {v : Replica}, id ∉ rows.map (·.ticketId) →
    v.setRows rows id = v id
  | [], _, _ => rfl
  | row :: rows, v, h => by
    rw [List.map_cons, List.mem_cons, not_or] at h
    exact (setRows_notMem h.2).trans (Function.update_of_ne h.1 _ _)

/-- A message that is not about a ticket leaves it alone. -/
theorem apply_notMem {m : RoomMessage} (h : id ∉ m.entries.map (·.1)) : v.apply m id = v id := by
  cases m with
  | hello _ _ => rfl
  | checkins rows =>
    refine setRows_notMem ?_
    simpa [RoomMessage.entries, List.map_map] using h
  | undo ticketId _ _ _ =>
    have hne : id ≠ ticketId := by simpa [RoomMessage.entries] using h
    exact Function.update_of_ne hne _ _

theorem applyAll_notMem : ∀ {ms : List RoomMessage} {v : Replica}, id ∉ (entries ms).map (·.1) →
    v.applyAll ms id = v id
  | [], _, _ => rfl
  | m :: ms, v, h => by
    rw [entries, List.flatMap_cons, List.map_append, List.mem_append, not_or] at h
    exact (applyAll_notMem h.2).trans (apply_notMem h.1)

end Entries

section Broadcasts

/-- A ticket that a chain of changes touches ends as the last row they put for it. -/
theorem RoomChanges.last (h : RoomChanges who s rows s') (id : String) :
    (id ∉ rows.map (·.ticketId) ∧ s'.get id = s.get id) ∨ ∃ before r after,
      rows = before ++ r :: after ∧ r.ticketId = id ∧ id ∉ after.map (·.ticketId) ∧
        s'.get id = some r ∧ s.seq < r.seq := by
  induction h with
  | nil => exact .inl ⟨List.not_mem_nil, rfl⟩
  | cons first rest ih =>
    rename_i s row rows s'
    rcases ih with ⟨hnot, hsame⟩ | ⟨before, r, after, rfl, hid, hafter, hget, hlt⟩
    · by_cases hid : row.ticketId = id
      · refine .inr ⟨[], row, rows, rfl, hid, hnot, ?_, ?_⟩
        · rw [hsame, RoomStore.get_put, if_pos hid.symm]
        · rw [first.drawn]
          exact Nat.lt_succ_self _
      · refine .inl ⟨?_, ?_⟩
        · rw [List.map_cons, List.mem_cons, not_or]
          exact ⟨Ne.symm hid, hnot⟩
        · rw [hsame, RoomStore.get_put, if_neg (Ne.symm hid)]
    · exact .inr ⟨row :: before, r, after, rfl, hid, hafter, hget,
        Nat.lt_of_le_of_lt (Nat.le_succ _) hlt⟩

theorem RoomChanges.seq_le (h : RoomChanges who s rows s') : ∀ r ∈ rows, r.seq ≤ s'.seq := by
  induction h with
  | nil => simp
  | cons first rest ih =>
    rename_i s row rows s'
    rw [List.forall_mem_cons]
    refine ⟨?_, ih⟩
    rw [first.drawn]
    exact rest.movedOn.top

/-- What a step of the room sends tells of every ticket it changed: cut anywhere, a replica has the
ticket as the room does, or the ticket's row is among what was cut off. -/
structure Tells (s s' : RoomStore) (sent : List RoomMessage) : Prop where
  bounded : ∀ e ∈ entries sent, e.2 ≤ s'.seq
  tells : ∀ id, (id ∉ (entries sent).map (·.1) ∧ s'.get id = s.get id) ∨ ∃ r, s'.get id = some r ∧
    s.seq < r.seq ∧ (id, r.seq) ∈ entries sent ∧ ∀ {got lost : List RoomMessage} (v : Replica),
      sent = got ++ lost → (id, r.seq) ∉ entries lost → v.applyAll got id = s'.replica id

theorem applyAll_last {before after : List StoredCheckIn} (v : Replica)
    (h : id ∉ after.map (·.ticketId)) (hid : r.ticketId = id) :
    v.applyAll ((before ++ r :: after).map announce) id = (standing (some r)).map wire := by
  rw [List.map_append, List.map_cons, applyAll_append, Replica.applyAll, List.foldl_cons]
  exact (applyAll_announce_notMem h).trans (by rw [apply_announce, if_pos hid.symm])

theorem RoomChanges.tells (h : RoomChanges who s rows s') : Tells s s' (rows.map announce) := by
  refine ⟨?_, fun id => ?_⟩
  · rw [entries_map_announce, List.forall_mem_map]
    exact h.seq_le
  · rcases h.last id with ⟨hnot, hsame⟩ | ⟨before, r, after, rfl, hid, hafter, hget, hlt⟩
    · refine .inl ⟨?_, hsame⟩
      rw [entries_map_announce, List.map_map]
      exact hnot
    · refine .inr ⟨r, hget, hlt, ?_, fun {got lost} v hsplit hlost => ?_⟩
      · rw [entries_map_announce]
        exact List.mem_map.2 ⟨r, by simp, by rw [hid]⟩
      · obtain ⟨rows₁, rows₂, hrows, rfl, rfl⟩ := List.map_eq_append_iff.1 hsplit
        have hr : r ∉ rows₂ := fun hr => by
          refine hlost ?_
          rw [entries_map_announce]
          exact List.mem_map.2 ⟨r, hr, by rw [hid]⟩
        rw [RoomStore.replica, hget]
        rcases List.append_eq_append_iff.1 hrows with ⟨mid, rfl, hmid⟩ | ⟨mid, rfl, rfl⟩
        · cases mid with
          | nil =>
            rw [List.nil_append] at hmid
            exact absurd (hmid ▸ List.mem_cons_self) hr
          | cons r' mid =>
            rw [List.cons_append, List.cons.injEq] at hmid
            obtain ⟨rfl, rfl⟩ := hmid
            rw [List.map_append, List.mem_append, not_or] at hafter
            exact applyAll_last v hafter.1 hid
        · exact absurd (List.mem_append_right _ List.mem_cons_self) hr

theorem mem_entries_undos {tombs : List StoredCheckIn} (hr : r ∈ tombs) :
    (r.ticketId, r.seq) ∈ entries (tombs.map undoMessage) := by
  rw [entries_undos]
  exact List.mem_map.2 ⟨r, hr, rfl⟩

/-- What a batch sends, cut anywhere: nothing, or its check-ins and some of its undos. -/
theorem merge_split {got lost : List RoomMessage}
    (h : merge (rows.map announce) = got ++ lost) :
    (got = [] ∧ lost = merge (rows.map announce)) ∨ ∃ tombs tombs',
      rows.filter (·.removed.isSome) = tombs ++ tombs' ∧ lost = tombs'.map undoMessage ∧
        ∀ v : Replica, v.applyAll got =
          (v.setRows ((rows.filter (·.removed.isNone)).map wire)).applyAll
            (tombs.map undoMessage) := by
  unfold merge at h ⊢
  dsimp only at h ⊢
  rw [rows_announce, rest_announce] at h ⊢
  split_ifs at h ⊢ with he
  · rw [List.nil_append] at h
    obtain ⟨tombs, tombs', htombs, rfl, rfl⟩ := List.map_eq_append_iff.1 h
    refine .inr ⟨tombs, tombs', htombs, rfl, fun v => ?_⟩
    rw [List.isEmpty_iff.1 he]
    rfl
  · cases got with
    | nil => exact .inl ⟨rfl, h.symm⟩
    | cons m got =>
      rw [List.cons_append, List.nil_append, List.cons_append, List.cons.injEq] at h
      obtain ⟨rfl, h⟩ := h
      obtain ⟨tombs, tombs', htombs, rfl, rfl⟩ := List.map_eq_append_iff.1 h
      exact .inr ⟨tombs, tombs', htombs, rfl, fun v => rfl⟩

theorem mem_entries_merge (hr : r ∈ rows) :
    (r.ticketId, r.seq) ∈ entries (merge (rows.map announce)) := by
  unfold merge
  dsimp only
  rw [rows_announce, rest_announce, entries_append, List.mem_append]
  cases hremoved : r.removed with
  | none =>
    have hmem : r ∈ rows.filter (·.removed.isNone) := List.mem_filter.2 ⟨hr, by simp [hremoved]⟩
    have hwire : wire r ∈ (rows.filter (·.removed.isNone)).map wire := List.mem_map_of_mem hmem
    rw [if_neg (by simpa [List.isEmpty_iff] using List.ne_nil_of_mem hwire)]
    refine .inl ?_
    rw [entries, List.flatMap_singleton]
    exact List.mem_map.2 ⟨wire r, hwire, rfl⟩
  | some by_ =>
    exact .inr (mem_entries_undos (List.mem_filter.2 ⟨hr, by simp [hremoved]⟩))

theorem mem_of_entries_merge {e : String × Nat} (h : e ∈ entries (merge (rows.map announce))) :
    ∃ r ∈ rows, e = (r.ticketId, r.seq) := by
  unfold merge at h
  dsimp only at h
  rw [rows_announce, rest_announce, entries_append, List.mem_append] at h
  rcases h with h | h
  · split_ifs at h with he
    · cases h
    · rw [entries, List.flatMap_singleton] at h
      obtain ⟨row, hrow, rfl⟩ := List.mem_map.1 h
      obtain ⟨r, hr, rfl⟩ := List.mem_map.1 hrow
      exact ⟨r, (List.mem_filter.1 hr).1, rfl⟩
  · rw [entries_undos] at h
    obtain ⟨r, hr, rfl⟩ := List.mem_map.1 h
    exact ⟨r, (List.mem_filter.1 hr).1, rfl⟩

/-- Merged, a chain of changes tells as much, if it leaves no ticket in that it took back. -/
theorem RoomChanges.tells_merged (h : RoomChanges who s rows s')
    (hout : ∀ id, TakenBack rows id → standing (s'.get id) = none) :
    Tells s s' (merge (rows.map announce)) := by
  refine ⟨fun e he => ?_, fun id => ?_⟩
  · obtain ⟨r, hr, rfl⟩ := mem_of_entries_merge he
    exact h.seq_le r hr
  · rcases h.last id with ⟨hnot, hsame⟩ | ⟨before, r, after, hrows, hid, hafter, hget, hlt⟩
    · refine .inl ⟨fun hmem => hnot ?_, hsame⟩
      obtain ⟨e, he, rfl⟩ := List.mem_map.1 hmem
      obtain ⟨r, hr, rfl⟩ := mem_of_entries_merge he
      exact List.mem_map.2 ⟨r, hr, rfl⟩
    · have hr : r ∈ rows := by
        rw [hrows]
        simp
      have hentry := mem_entries_merge hr
      rw [hid] at hentry
      refine .inr ⟨r, hget, hlt, hentry, fun {got lost} v hsplit hlost => ?_⟩
      rcases merge_split hsplit with ⟨-, hall⟩ | ⟨tombs, tombs', htombs, rfl, hgot⟩
      · exact absurd (hall ▸ hentry) hlost
      · rw [hgot, applyAll_undos, RoomStore.replica, hget]
        cases hremoved : r.removed with
        | none =>
          have hstands : standing (some r) = some r := standing_eq_some.2 ⟨rfl, hremoved⟩
          have htaken : ¬ TakenBack rows id := fun ht => by
            have hnone := hout id ht
            rw [hget, hstands] at hnone
            cases hnone
          rw [if_neg, setRows_claims v id rows htaken, hrows]
          · exact applyAll_last v hafter hid
          · rintro ⟨t, ht, htid⟩
            have hmem : t ∈ rows.filter (·.removed.isSome) := by
              rw [htombs]
              exact List.mem_append_left _ ht
            exact htaken ⟨t, (List.mem_filter.1 hmem).1, htid, (List.mem_filter.1 hmem).2⟩
        | some by_ =>
          have hgone : standing (some r) = none := standing_eq_none.2 (by simp [hremoved])
          have hmem : r ∈ rows.filter (·.removed.isSome) :=
            List.mem_filter.2 ⟨hr, by simp [hremoved]⟩
          rw [htombs, List.mem_append] at hmem
          have htomb : r ∈ tombs := hmem.resolve_right fun hlater =>
            hlost (hid ▸ mem_entries_undos hlater)
          rw [if_pos ⟨r, htomb, hid⟩, hgone]
          rfl

end Broadcasts

section Steps

/-- A message the room broadcasts in order: no batch that leaves a ticket in which it took back. -/
def Orderly (s : RoomStore) : Incoming → Prop
  | .phone now sender raw =>
    ∀ items, raw.batch? = some items → ¬ LeavesReclaimed now sender s.seq items s
  | .server _ => True

theorem Tells.of_revoke {p : String} {sent : List RoomMessage} (h : Tells (s.revoke p) s' sent) :
    Tells s s' sent := ⟨h.bounded, h.tells⟩

theorem tells_other {m : Incoming} (h : Orderly s m) :
    Tells s (take s m).2 (LinkEvent.sent s (.other m)) := by
  rcases m with ⟨now, sender, raw⟩ | body
  · rcases hp : fromPhone now sender raw s with ⟨reason | effect, s'⟩
    · simp only [LinkEvent.sent, LinkEvent.incoming, take, hp, fromPhone_reject hp]
      exact (RoomChanges.nil : RoomChanges none _ [] _).tells
    · obtain ⟨rows, hrows, hcast⟩ := fromPhone_changes hp
      have hreplica : s.replica.applyAll (merge (rows.map announce)) = s'.replica := by
        have hlaw := ((broadcasts_replicate s).1 now sender raw).2 h
        rw [hp] at hlaw
        rwa [← hcast]
      simp only [LinkEvent.sent, LinkEvent.incoming, take, hp, hcast]
      exact hrows.tells_merged ((merged_replica hrows).1 hreplica)
  · rcases hb : fromServer body s with _ | ⟨effect, s'⟩
    · simp only [LinkEvent.sent, LinkEvent.incoming, take, hb]
      exact (RoomChanges.nil : RoomChanges none _ [] _).tells
    · obtain ⟨s₀, rows, hs₀, hrows, hcast⟩ := fromServer_changes hb
      simp only [LinkEvent.sent, LinkEvent.incoming, take, hb, hcast]
      rcases hs₀ with rfl | ⟨p, rfl⟩
      · exact hrows.tells
      · exact hrows.tells.of_revoke

end Steps

section Own

variable {now : Time} {sender : Sender} {effect : RoomEffect}

theorem claim_skips {ticketId at_ : Option Json}
    (h : claim now sender ticketId at_ s = some (effect, s')) :
    effect.skipSender = true ∨ effect.broadcast = [] := by
  unfold claim at h
  cases hid : uuid? ticketId with
  | none =>
    rw [hid] at h
    cases h
  | some id =>
    cases hat : plausibleTime now at_ with
    | none =>
      rw [hid, hat] at h
      cases h
    | some atMs =>
      rw [hid, hat] at h
      simp only [Option.bind_eq_bind, Option.bind_some] at h
      split_ifs at h <;> cases h
      · exact .inr rfl
      · exact .inr rfl
      · exact .inr rfl
      · exact .inl rfl

theorem unclaim_skips {ticketId : Option Json}
    (h : unclaim sender ticketId s = some (effect, s')) :
    effect.skipSender = true ∨ effect.broadcast = [] := by
  unfold unclaim at h
  cases hid : uuid? ticketId with
  | none =>
    rw [hid] at h
    cases h
  | some id =>
    rw [hid] at h
    simp only [Option.bind_eq_bind, Option.bind_some] at h
    cases hrow : standing (s.get id) with
    | none =>
      rw [hrow] at h
      cases h
      exact .inr rfl
    | some row =>
      rw [hrow] at h
      dsimp only at h
      split_ifs at h <;> cases h
      · exact .inr rfl
      · exact .inl rfl

theorem fromPhone_skips {raw : Raw} (h : fromPhone now sender raw s = (.ok effect, s')) :
    effect.skipSender = true ∨ effect.broadcast = [] := by
  rcases hb : raw.batch? with _ | items
  · unfold fromPhone at h
    split at h
    · cases h
    split at h
    · cases h
    split at h
    · cases h
    split at h
    · split at h
      · split at h
        · cases h
        · cases h
          exact .inl rfl
      · cases h
    split at h
    · cases h
    split at h
    · split at h
      · rename_i hclaim
        cases h
        exact claim_skips hclaim
      · cases h
    · split at h
      · rename_i hunclaim
        cases h
        exact unclaim_skips hunclaim
      · cases h
    · cases h
  · rw [fromPhone_of_batch hb] at h
    cases h
    exact .inl rfl

theorem sent_mine (now : Time) (sender : Sender) (raw : Raw) (s : RoomStore) :
    LinkEvent.sent s (.mine now sender raw) = [] := by
  rcases hp : fromPhone now sender raw s with ⟨reason | effect, s'⟩
  · simp only [LinkEvent.sent, LinkEvent.incoming, take, hp]
  · simp only [LinkEvent.sent, LinkEvent.incoming, take, hp]
    rcases fromPhone_skips hp with hskip | hnone
    · rw [if_pos hskip]
    · rw [hnone, ite_self]

end Own

section CatchUp

variable {c : Nat}

/-- A replica that has every row of the room as it is, but for rows past its cursor. -/
def CaughtUp (s : RoomStore) (c : Nat) (v : Replica) : Prop :=
  ∀ id, v id = s.replica id ∨ ∃ r, s.get id = some r ∧ c < r.seq

theorem CaughtUp.movedOn (h : CaughtUp s c v) (hm : MovedOn s s') (hc : c ≤ s.seq) :
    CaughtUp s' c v := fun id => by
  rcases hm.changed id with hsame | ⟨r, hr, hlt⟩
  · have hreplica : s'.replica id = s.replica id := by
      unfold RoomStore.replica
      rw [hsame]
    rw [hreplica, hsame]
    exact h id
  · exact .inr ⟨r, hr, Nat.lt_of_le_of_lt hc hlt⟩

/-- A message that says of its tickets what the room has of them. -/
def Current (s : RoomStore) (m : RoomMessage) : Prop :=
  ∀ e ∈ m.entries, (∃ r, s.get e.1 = some r ∧ r.seq = e.2) ∧
    ∀ v : Replica, v.apply m e.1 = s.replica e.1

theorem applyAll_current : ∀ {ms : List RoomMessage} {v : Replica}, (∀ m ∈ ms, Current s m) →
    id ∈ (entries ms).map (·.1) → v.applyAll ms id = s.replica id
  | [], _, _, h => by cases h
  | m :: ms, v, hms, h => by
    rw [List.forall_mem_cons] at hms
    by_cases hlater : id ∈ (entries ms).map (·.1)
    · have htail : (v.apply m).applyAll ms id = s.replica id := applyAll_current hms.2 hlater
      exact htail
    · rw [entries, List.flatMap_cons, List.map_append, List.mem_append] at h
      obtain ⟨e, he, rfl⟩ := List.mem_map.1 (h.resolve_right hlater)
      exact (applyAll_notMem hlater).trans ((hms.1 e he).2 v)

theorem current_hello (epoch : String) (top : Nat) : Current s (.hello epoch top) :=
  fun _ he => absurd he List.not_mem_nil

theorem current_undo (hr : r ∈ s.rows) (hremoved : r.removed.isSome = true) :
    Current s (undoMessage r) := by
  intro e he
  obtain rfl := List.mem_singleton.1 he
  refine ⟨⟨r, RoomStore.get_of_mem hr, rfl⟩, fun v => ?_⟩
  obtain ⟨by_, hby⟩ := Option.isSome_iff_exists.1 hremoved
  have hgone : standing (some r) = none := standing_eq_none.2 (by simp [hby])
  show v.apply (undoMessage r) r.ticketId = s.replica r.ticketId
  rw [RoomStore.replica, RoomStore.get_of_mem hr, hgone]
  exact Function.update_self _ _ _

theorem setRows_mem : ∀ {page : List StoredCheckIn} {v : Replica},
    (page.map (·.ticketId)).Nodup → r ∈ page →
      v.setRows (page.map wire) r.ticketId = some (wire r)
  | row :: page, v, hnodup, hr => by
    rw [List.map_cons, List.nodup_cons] at hnodup
    rw [List.map_cons, Replica.setRows, List.foldl_cons]
    rcases List.mem_cons.1 hr with rfl | hr
    · refine (setRows_notMem ?_).trans (Function.update_self _ _ _)
      rw [List.map_map]
      exact hnodup.1
    · exact setRows_mem hnodup.2 hr

theorem current_checkins {page : List StoredCheckIn} (hpage : page.Sublist s.rows)
    (hstand : ∀ r ∈ page, r.removed = none) : Current s (.checkins (page.map wire)) := by
  intro e he
  obtain ⟨row, hrow, rfl⟩ := List.mem_map.1 he
  obtain ⟨r, hr, rfl⟩ := List.mem_map.1 hrow
  have hget : s.get r.ticketId = some r := RoomStore.get_of_mem (hpage.subset hr)
  have hstands : standing (some r) = some r := standing_eq_some.2 ⟨rfl, hstand r hr⟩
  refine ⟨⟨r, hget, rfl⟩, fun v => ?_⟩
  show v.setRows (page.map wire) r.ticketId = s.replica r.ticketId
  rw [setRows_mem (s.unique.sublist (hpage.map _)) hr, RoomStore.replica, hget, hstands]
  rfl

theorem current_page {page : List StoredCheckIn} (hpage : page.Sublist s.rows) :
    ∀ m ∈ pageMessages page, Current s m := by
  unfold pageMessages
  dsimp only
  rw [List.forall_mem_append]
  constructor
  · intro m hm
    split_ifs at hm
    · cases hm
    · obtain rfl := List.mem_singleton.1 hm
      exact current_checkins (List.filter_sublist.trans hpage) fun r hr => by
        simpa using (List.mem_filter.1 hr).2
  · intro m hm
    obtain ⟨r, hr, rfl⟩ := List.mem_map.1 hm
    obtain ⟨hr, hremoved⟩ := List.mem_filter.1 hr
    exact current_undo (hpage.subset hr) hremoved

theorem sublist_flatten {page : List StoredCheckIn} : ∀ {ps : List (List StoredCheckIn)},
    page ∈ ps → page.Sublist ps.flatten
  | q :: ps, h => by
    rw [List.flatten_cons]
    rcases List.mem_cons.1 h with rfl | h
    · exact List.sublist_append_left _ _
    · exact (sublist_flatten h).trans (List.sublist_append_right _ _)

/-- A catch-up tells only what the room has, and has every row past its cursor. -/
theorem backlog_current (s : RoomStore) (cursor : Nat) (known : Option String) :
    (∀ m ∈ backlog cursor known s, Current s m) ∧
      ∀ r ∈ s.rows, (if known = some s.epoch ∧ cursor ≤ s.seq then cursor else 0) < r.seq →
        (r.ticketId, r.seq) ∈ entries (backlog cursor known s) := by
  obtain ⟨ps, hps, hbacklog⟩ := backlog_pages s cursor known
  have hflatten := hps.flatten s.ordered (by decide)
  rw [hbacklog, List.forall_mem_cons]
  refine ⟨⟨current_hello _ _, fun m hm => ?_⟩, fun r hr hlt => ?_⟩
  · obtain ⟨page, hpage, hm⟩ := List.mem_flatMap.1 hm
    have hsub := sublist_flatten hpage
    rw [hflatten] at hsub
    exact current_page (hsub.trans List.filter_sublist) m hm
  · have hmem : r ∈ ps.flatten := by
      rw [hflatten]
      exact Keyset.mem_past.2 ⟨hr, hlt⟩
    obtain ⟨page, hpage, hin⟩ := List.mem_flatten.1 hmem
    have hentry : (r.ticketId, r.seq) ∈ entries (pageMessages page) := by
      rw [pageMessages_eq]
      exact mem_entries_merge hin
    obtain ⟨m, hm, he⟩ := List.mem_flatMap.1 hentry
    exact List.mem_flatMap.2
      ⟨m, List.mem_cons_of_mem _ (List.mem_flatMap.2 ⟨page, hpage, hm⟩), he⟩

end CatchUp

section Sent

variable {c : Nat} {own : List (String × Nat)} {sent : List RoomMessage}

/-- What was sent on a connection, cut anywhere, leaves a replica that has every ticket as the room
does, but for rows past its cursor that were cut off or that the phone itself put. -/
structure SentUpTo (s : RoomStore) (c : Nat) (v : Replica) (own : List (String × Nat))
    (sent : List RoomMessage) : Prop where
  below : c ≤ s.seq
  bounded : ∀ e ∈ entries sent ++ own, e.2 ≤ s.seq
  cut : ∀ id {got lost : List RoomMessage}, sent = got ++ lost → v.applyAll got id = s.replica id ∨
    ∃ r, s.get id = some r ∧ c < r.seq ∧ (id, r.seq) ∈ entries lost ++ own

theorem sentUpTo_backlog {cursor : Nat} {known : Option String} (h : CaughtUp s c v)
    (hc : c ≤ s.seq)
    (hstart : (if known = some s.epoch ∧ cursor ≤ s.seq then cursor else 0) ≤ c) :
    SentUpTo s c v [] (backlog cursor known s) := by
  obtain ⟨hcurrent, hall⟩ := backlog_current s cursor known
  refine ⟨hc, fun e he => ?_, fun id {got lost} hsplit => ?_⟩
  · rw [List.append_nil] at he
    obtain ⟨m, hm, he⟩ := List.mem_flatMap.1 he
    obtain ⟨⟨r, hr, hseq⟩, -⟩ := hcurrent m hm e he
    rw [← hseq]
    exact RoomStore.seq_le_of_get hr
  · rw [hsplit] at hcurrent hall
    rw [List.forall_mem_append] at hcurrent
    by_cases hmem : id ∈ (entries got).map (·.1)
    · exact .inl (applyAll_current hcurrent.1 hmem)
    · rw [applyAll_notMem hmem]
      refine (h id).imp_right fun ⟨r, hr, hlt⟩ => ⟨r, hr, hlt, ?_⟩
      obtain ⟨hrow, rfl⟩ := RoomStore.get_eq_some.1 hr
      have hentry := hall r hrow (Nat.lt_of_le_of_lt hstart hlt)
      rw [entries_append, List.mem_append] at hentry
      rw [List.append_nil]
      refine hentry.resolve_left fun hgot => hmem ?_
      exact List.mem_map.2 ⟨_, hgot, rfl⟩

theorem SentUpTo.tells {b : List RoomMessage} (h : SentUpTo s c v own sent) (hb : Tells s s' b)
    (hle : s.seq ≤ s'.seq) : SentUpTo s' c v own (sent ++ b) := by
  refine ⟨h.below.trans hle, fun e he => ?_, fun id {got lost} hsplit => ?_⟩
  · rw [entries_append, List.append_assoc, List.mem_append, List.mem_append] at he
    rcases he with he | he | he
    · exact (h.bounded e (List.mem_append_left _ he)).trans hle
    · exact hb.bounded e he
    · exact (h.bounded e (List.mem_append_right _ he)).trans hle
  · rcases hb.tells id with ⟨hnot, hsame⟩ | ⟨r, hr, hlt, hentry, htells⟩
    · have hreplica : s'.replica id = s.replica id := by
        unfold RoomStore.replica
        rw [hsame]
      rw [hreplica, hsame]
      rcases List.append_eq_append_iff.1 hsplit with ⟨got', rfl, hb'⟩ | ⟨lost', rfl, rfl⟩
      · have hgot : id ∉ (entries got').map (·.1) := fun hmem => hnot (by
          rw [hb', entries_append, List.map_append]
          exact List.mem_append_left _ hmem)
        rw [applyAll_append, applyAll_notMem hgot]
        refine (h.cut id (List.append_nil sent).symm).imp_right fun ⟨r, hr, hlt, hown⟩ =>
          ⟨r, hr, hlt, List.mem_append_right _ ?_⟩
        exact hown
      · refine (h.cut id rfl).imp_right fun ⟨r, hr, hlt, hin⟩ => ⟨r, hr, hlt, ?_⟩
        rw [entries_append, List.mem_append, List.mem_append]
        exact (List.mem_append.1 hin).imp_left .inl
    · by_cases hlost : (id, r.seq) ∈ entries lost
      · exact .inr ⟨r, hr, Nat.lt_of_le_of_lt h.below hlt, List.mem_append_left _ hlost⟩
      · rcases List.append_eq_append_iff.1 hsplit with ⟨got', rfl, hb'⟩ | ⟨lost', rfl, rfl⟩
        · rw [applyAll_append]
          exact .inl (htells _ hb' hlost)
        · refine absurd ?_ hlost
          rw [entries_append]
          exact List.mem_append_right _ hentry

/-- The rows a step of the room put, by ticket and number. -/
def putSince (s s' : RoomStore) : List (String × Nat) :=
  (s'.rows.filter (s.seq < ·.seq)).map fun row => (row.ticketId, row.seq)

/-- What the phone's own socket changes is not sent to it. -/
theorem SentUpTo.mine (h : SentUpTo s c v own sent) (hm : MovedOn s s') :
    SentUpTo s' c v (own ++ putSince s s') sent := by
  refine ⟨h.below.trans hm.top, fun e he => ?_, fun id {got lost} hsplit => ?_⟩
  · rw [← List.append_assoc, List.mem_append] at he
    rcases he with he | he
    · exact (h.bounded e he).trans hm.top
    · obtain ⟨r, hr, rfl⟩ := List.mem_map.1 he
      exact s'.bounded r (List.mem_filter.1 hr).1
  · rcases hm.changed id with hsame | ⟨r, hr, hlt⟩
    · have hreplica : s'.replica id = s.replica id := by
        unfold RoomStore.replica
        rw [hsame]
      rw [hreplica, hsame, ← List.append_assoc]
      exact (h.cut id hsplit).imp_right fun ⟨r, hr, hlt, hin⟩ =>
        ⟨r, hr, hlt, List.mem_append_left _ hin⟩
    · refine .inr ⟨r, hr, Nat.lt_of_le_of_lt h.below hlt, ?_⟩
      obtain ⟨hrow, rfl⟩ := RoomStore.get_eq_some.1 hr
      refine List.mem_append_right _ (List.mem_append_right _ ?_)
      exact List.mem_map.2 ⟨r, List.mem_filter.2 ⟨hrow, by simpa using hlt⟩, rfl⟩

end Sent

section Connections

/-- A phone that applies what it is sent: its cursor and its view. -/
structure RelayPhone where
  link : RelayLink
  view : Replica

def RelayPhone.start : RelayPhone := ⟨.start, fun _ => none⟩

def RelayPhone.hear (p : RelayPhone) (m : RoomMessage) : RelayPhone :=
  ⟨p.link.onmessage m, p.view.apply m⟩

def RelayPhone.hearAll (p : RelayPhone) (ms : List RoomMessage) : RelayPhone := ms.foldl hear p

namespace Connection

/-- The rows the phone's own messages put on a connection. -/
def ownEntries (s : RoomStore) : List LinkEvent → List (String × Nat)
  | [] => []
  | .mine now sender raw :: events =>
    let s' := (take s (.phone now sender raw)).2
    putSince s s' ++ ownEntries s' events
  | .other m :: events => ownEntries (take s m).2 events

/-- No message of others leaves a ticket in that it took back. -/
def InOrder (s : RoomStore) : List LinkEvent → Prop
  | [] => True
  | .mine now sender raw :: events => InOrder (take s (.phone now sender raw)).2 events
  | .other m :: events => Orderly s m ∧ InOrder (take s m).2 events

variable (c : Connection) (s : RoomStore) (p : RelayPhone)

def own : List (String × Nat) := ownEntries (c.opened s) c.events

/-- The phone when the connection ends. -/
def after : RelayPhone := p.hearAll (c.got s p.link)

/-- Nothing the phone missed of a connection, cut off or of its own, is older than what it heard. -/
def Clean : Prop :=
  InOrder (c.opened s) c.events ∧
    ∀ e ∈ entries (c.lost s p.link) ++ c.own s, ∀ h ∈ entries (c.got s p.link), h.2 < e.2

end Connection

/-- The room and the phone after some connections. -/
def runLinks (s : RoomStore) (p : RelayPhone) : List Connection → RoomStore × RelayPhone
  | [] => (s, p)
  | c :: cs => runLinks (c.closed s) (c.after s p) cs

def CleanLinks (s : RoomStore) (p : RelayPhone) : List Connection → Prop
  | [] => True
  | c :: cs => c.Clean s p ∧ CleanLinks (c.closed s) (c.after s p) cs

variable {p : RelayPhone} {c : Connection} {n : Nat}

theorem roomAfter_movedOn : ∀ (events : List LinkEvent) (s : RoomStore),
    MovedOn s (Connection.roomAfter s events)
  | [], s => .refl s
  | e :: events, s => (take_movedOn s e.incoming).trans (roomAfter_movedOn events _)

theorem SentUpTo.events : ∀ (events : List LinkEvent) {s : RoomStore} {own : List (String × Nat)}
    {sent : List RoomMessage}, SentUpTo s n v own sent → Connection.InOrder s events →
      SentUpTo (Connection.roomAfter s events) n v (own ++ Connection.ownEntries s events)
        (sent ++ Connection.broadcasts s events)
  | [], s, own, sent, h, _ => by
    rw [Connection.ownEntries, Connection.broadcasts, List.append_nil, List.append_nil]
    exact h
  | .mine now sender raw :: events, s, own, sent, h, ho => by
    have hmine := h.mine (take_movedOn s (.phone now sender raw))
    have hrest := SentUpTo.events events hmine ho
    rw [Connection.ownEntries, Connection.broadcasts, sent_mine, List.nil_append,
      ← List.append_assoc]
    exact hrest
  | .other m :: events, s, own, sent, h, ho => by
    have hother := h.tells (tells_other ho.1) (take_movedOn s m).top
    have hrest := SentUpTo.events events hother ho.2
    rw [Connection.ownEntries, Connection.broadcasts, ← List.append_assoc]
    exact hrest

/-- Where the phone's cursor is in a room. -/
def RelayLink.cursor (l : RelayLink) (s : RoomStore) : Nat :=
  if l.epoch = s.epoch then l.heard else 0

/-- A catch-up starts at the cursor, or before it. -/
theorem start_le_cursor (l : RelayLink) (s : RoomStore) :
    (if (if l.epoch = "" then none else some l.epoch) = some s.epoch ∧ l.heard ≤ s.seq then l.heard
      else 0) ≤ l.cursor s := by
  split_ifs with hempty hknown hknown
  · exact hknown.1.elim
  · exact Nat.zero_le _
  · unfold RelayLink.cursor
    rw [if_pos (Option.some.inj hknown.1)]
  · exact Nat.zero_le _

/-- The phone knows all of the room up to its cursor. -/
structure Knows (s : RoomStore) (p : RelayPhone) : Prop where
  below : p.link.cursor s ≤ s.seq
  caughtUp : CaughtUp s (p.link.cursor s) p.view

theorem cursor_movedOn (hm : MovedOn s s') (l : RelayLink) : l.cursor s' = l.cursor s := by
  unfold RelayLink.cursor
  rw [hm.epoch]

theorem Knows.movedOn (h : Knows s p) (hm : MovedOn s s') : Knows s' p := by
  constructor
  · rw [cursor_movedOn hm]
    exact h.below.trans hm.top
  · rw [cursor_movedOn hm]
    exact h.caughtUp.movedOn hm h.below

theorem Knows.sentUpTo (h : Knows s p) (hin : Connection.InOrder (c.opened s) c.events) :
    SentUpTo (c.closed s) (p.link.cursor s) p.view (c.own s) (c.sent s p.link) := by
  have hopened : MovedOn s (c.opened s) := runRoom_movedOn c.away s
  have hk := h.movedOn hopened
  have hback := sentUpTo_backlog hk.caughtUp hk.below (start_le_cursor p.link (c.opened s))
  have hevents := SentUpTo.events c.events hback hin
  rw [cursor_movedOn hopened, List.nil_append] at hevents
  exact hevents

theorem view_hearAll : ∀ (ms : List RoomMessage) (p : RelayPhone),
    (p.hearAll ms).view = p.view.applyAll ms
  | [], _ => rfl
  | m :: ms, p => view_hearAll ms (p.hear m)

theorem seen_le {l : RelayLink} {b seq : Nat} (hl : l.heard ≤ b) (hs : seq ≤ b) :
    (l.seen seq).heard ≤ b := by
  unfold RelayLink.seen
  split_ifs
  · exact hs
  · exact hl

theorem onmessage_le {l : RelayLink} {m : RoomMessage} {b : Nat} (hl : l.heard ≤ b)
    (hm : ∀ e ∈ m.entries, e.2 ≤ b) : (l.onmessage m).heard ≤ b := by
  cases m with
  | hello epoch top =>
    show (if epoch ≠ l.epoch then 0 else l.heard) ≤ b
    split_ifs
    · exact Nat.zero_le _
    · exact hl
  | undo ticketId by_ at_ seq => exact seen_le hl (hm _ List.mem_cons_self)
  | checkins rows =>
    rw [RoomMessage.entries, List.forall_mem_map] at hm
    show (rows.foldl (fun l row => l.seen row.seq) l).heard ≤ b
    induction rows generalizing l with
    | nil => exact hl
    | cons row rows ih =>
      rw [List.forall_mem_cons] at hm
      exact ih (seen_le hl hm.1) hm.2

theorem hearAll_le : ∀ {ms : List RoomMessage} {p : RelayPhone} {b : Nat}, p.link.heard ≤ b →
    (∀ e ∈ entries ms, e.2 ≤ b) → (p.hearAll ms).link.heard ≤ b
  | [], _, _, hp, _ => hp
  | m :: ms, p, b, hp, hms => by
    rw [entries, List.flatMap_cons, List.forall_mem_append] at hms
    have hrest : ((p.hear m).hearAll ms).link.heard ≤ b :=
      hearAll_le (onmessage_le hp hms.1) hms.2
    exact hrest

/-- What a phone's cursor is after a prefix of what a connection sends. -/
theorem cursor_got {b : Nat} (hp : p.link.cursor s ≤ b)
    (hgot : ∀ e ∈ entries (c.got s p.link), e.2 ≤ b) :
    (c.after s p).link.cursor (c.closed s) ≤ b := by
  have hopened : MovedOn s (c.opened s) := runRoom_movedOn c.away s
  have hclosed : MovedOn (c.opened s) (c.closed s) := roomAfter_movedOn c.events _
  have hepoch : (c.closed s).epoch = s.epoch := hclosed.epoch.trans hopened.epoch
  rw [cursor_movedOn (hopened.trans hclosed)]
  unfold Connection.after Connection.got at *
  obtain ⟨ps, -, hbacklog⟩ := backlog_pages (c.opened s) p.link.heard
    (if p.link.epoch = "" then none else some p.link.epoch)
  have hsent : ∃ rest, c.sent s p.link = .hello s.epoch (c.opened s).seq :: rest := by
    rw [← hopened.epoch]
    exact ⟨_, congrArg (· ++ _) hbacklog⟩
  obtain ⟨rest, hrest⟩ := hsent
  rw [hrest] at hgot ⊢
  generalize c.delivered = delivered at hgot ⊢
  cases delivered with
  | zero => exact hp
  | succ n =>
    rw [List.take_succ_cons] at hgot ⊢
    have hhello : (p.link.onmessage (.hello s.epoch (c.opened s).seq)).heard ≤ b := by
      show (if s.epoch ≠ p.link.epoch then 0 else p.link.heard) ≤ b
      split_ifs with hne
      · exact Nat.zero_le _
      · unfold RelayLink.cursor at hp
        rwa [if_pos (not_not.1 hne).symm] at hp
    have hle : ((p.hear (.hello s.epoch (c.opened s).seq)).hearAll (rest.take n)).link.heard ≤ b :=
      hearAll_le hhello fun e he => hgot e (List.mem_append_right _ he)
    unfold RelayLink.cursor
    split_ifs
    · exact hle
    · exact Nat.zero_le _

theorem Knows.clean (h : Knows s p) (hc : c.Clean s p) : Knows (c.closed s) (c.after s p) := by
  have hsent := h.sentUpTo hc.1
  have hsplit : c.sent s p.link = c.got s p.link ++ c.lost s p.link :=
    (List.take_append_drop _ _).symm
  have hbounded : ∀ e ∈ entries (c.got s p.link), e.2 ≤ (c.closed s).seq := fun e he => by
    refine hsent.bounded e (List.mem_append_left _ ?_)
    rw [hsplit, entries_append]
    exact List.mem_append_left _ he
  refine ⟨cursor_got hsent.below hbounded, fun id => ?_⟩
  unfold Connection.after
  rw [view_hearAll]
  refine (hsent.cut id hsplit).imp_right fun ⟨r, hr, hlt, hin⟩ => ⟨r, hr, ?_⟩
  have hcursor : (c.after s p).link.cursor (c.closed s) ≤ r.seq - 1 :=
    cursor_got (Nat.le_sub_one_of_lt hlt) fun e he => Nat.le_sub_one_of_lt (hc.2 _ hin e he)
  exact Nat.lt_of_le_of_lt hcursor (Nat.sub_one_lt_of_lt hlt)

theorem Knows.run : ∀ {cs : List Connection} {s : RoomStore} {p : RelayPhone}, Knows s p →
    CleanLinks s p cs → Knows (runLinks s p cs).1 (runLinks s p cs).2
  | [], _, _, h, _ => h
  | _ :: _, _, _, h, hc => (h.clean hc.1).run hc.2

theorem knows_start (epoch : String) (revoked : List String) :
    Knows (.empty epoch revoked) .start := by
  have hcursor : RelayLink.start.cursor (.empty epoch revoked) = 0 := ite_self _
  refine ⟨?_, fun id => .inl rfl⟩
  rw [RelayPhone.start, hcursor]
  exact Nat.zero_le _

/-- A connection heard to its end brings a phone that knows the room level with it. -/
theorem Knows.level (h : Knows s p) (hin : Connection.InOrder (c.opened s) c.events)
    (hlost : c.lost s p.link = []) (hid : id ∉ (c.own s).map (·.1)) :
    (c.after s p).view id = (c.closed s).replica id := by
  have hsplit : c.sent s p.link = c.got s p.link ++ [] := by
    rw [← hlost]
    exact (List.take_append_drop _ _).symm
  rcases (h.sentUpTo hin).cut id hsplit with hview | ⟨r, -, -, hown⟩
  · unfold Connection.after
    rw [view_hearAll]
    exact hview
  · exact absurd (List.mem_map.2 ⟨_, hown, rfl⟩) hid

/-- After connections of which a phone missed nothing older than what it heard, one of which it
hears everything leaves its view as the room is, but for what it changed itself on that one. -/
theorem catchUp_survives (epoch : String) (revoked : List String) (cs : List Connection)
    (c : Connection) :
    let s := (runLinks (.empty epoch revoked) .start cs).1
    let p := (runLinks (.empty epoch revoked) .start cs).2
    CleanLinks (.empty epoch revoked) .start cs → Connection.InOrder (c.opened s) c.events →
      c.lost s p.link = [] → ∀ id ∉ (c.own s).map (·.1),
        (c.after s p).view id = (c.closed s).replica id := by
  intro s p hclean hin hlost id hid
  exact ((knows_start epoch revoked).run hclean).level hin hlost hid

theorem CleanLinks.split {after : List Connection} : ∀ {before : List Connection} {s : RoomStore}
    {p : RelayPhone}, CleanLinks s p (before ++ c :: after) → CleanLinks s p before ∧
      Connection.InOrder (c.opened (runLinks s p before).1) c.events
  | [], _, _, h => ⟨trivial, h.1.1⟩
  | _ :: _, _, _, h => ⟨⟨h.1, (CleanLinks.split h.2).1⟩, (CleanLinks.split h.2).2⟩

/-- On connections of each of which a phone misses nothing older than what it hears, every one that
it hears to the end leaves its view as the room is, but for what it changed itself on that one. -/
theorem reconnects_level (epoch : String) (revoked : List String) (cs : List Connection)
    (hclean : CleanLinks (.empty epoch revoked) .start cs) (before after : List Connection)
    (c : Connection) (hcs : cs = before ++ c :: after) :
    let s := (runLinks (.empty epoch revoked) .start before).1
    let p := (runLinks (.empty epoch revoked) .start before).2
    c.lost s p.link = [] → ∀ id ∉ (c.own s).map (·.1),
      (c.after s p).view id = (c.closed s).replica id := by
  intro s p hlost id hid
  rw [hcs] at hclean
  obtain ⟨hbefore, hin⟩ := hclean.split
  exact ((knows_start epoch revoked).run hbefore).level hin hlost hid

end Connections

section Runs

/-- The server says that a guest came in, or was let out. -/
def serverSays (kind ticketId : String) (at_ : Time) : Incoming :=
  .server (.object [("kind", .string kind), ("ticketId", .string ticketId),
    ("at", .string "" (some at_))])

def guest₁ : String := "11111111-1111-4111-8111-111111111111"
def guest₂ : String := "22222222-2222-4222-8222-222222222222"

/-- A link that drops before it tells of the second guest; the next one catches up with her, and
hears that the first is let out again. -/
theorem catchUp_survives_cutLink :
    let before : Connection :=
      ⟨[serverSays "in" guest₁ 1000], [.other (serverSays "in" guest₂ 2000)], 2⟩
    let s := (runLinks (.empty "epoch-1" []) .start [before]).1
    let p := (runLinks (.empty "epoch-1" []) .start [before]).2
    let c : Connection := ⟨[], [.other (serverSays "undo" guest₁ 1000)], 3⟩
    (p.view guest₁).isSome = true ∧ p.view guest₂ = none ∧
      before.lost (.empty "epoch-1" []) RelayPhone.start.link ≠ [] ∧
      ∀ id, (c.after s p).view id = (c.closed s).replica id := by
  intro before s p c
  refine ⟨by decide +kernel, by decide +kernel, by decide +kernel, fun id => ?_⟩
  have hclean : CleanLinks (.empty "epoch-1" []) .start [before] :=
    ⟨⟨⟨trivial, trivial⟩, by decide +kernel⟩, trivial⟩
  exact catchUp_survives "epoch-1" [] [before] c hclean ⟨trivial, trivial⟩ (by decide +kernel) id
    List.not_mem_nil

/-- A batch of Gate A's phone. -/
def gateSays (length : Nat) (items : List Json) : Incoming :=
  .phone 3000 ⟨"pass-a", "Gate A"⟩
    ⟨length, some (.object [("t", .string "claims"), ("items", .array items)])⟩

def inItem (ticketId : String) : Json :=
  .object [("t", .string "in"), ("ticketId", .string ticketId), ("at", .number 1000)]

def undoItem (ticketId : String) : Json :=
  .object [("t", .string "undo"), ("ticketId", .string ticketId)]

/-- A link that drops and the one that catches up. -/
def twoLinks : List Connection :=
  [⟨[serverSays "in" guest₁ 1000], [.other (serverSays "in" guest₂ 2000)], 2⟩,
    ⟨[], [.other (serverSays "undo" guest₁ 1000)], 3⟩]

/-- The phone is Gate B's, and lets the first guest in again. -/
def letInAgain : Connection where
  away := []
  events := [.mine 3000 ⟨"pass-b", "Gate B"⟩
    ⟨95, some (.object [("t", .string "claims"), ("items", .array [inItem guest₁])])⟩]
  delivered := 1

theorem reconnects_level_threeLinks :
    let s := (runLinks (.empty "epoch-1" []) .start twoLinks).1
    let p := (runLinks (.empty "epoch-1" []) .start twoLinks).2
    (letInAgain.own s).map (·.1) = [guest₁] ∧
      (letInAgain.after s p).view guest₁ ≠ (letInAgain.closed s).replica guest₁ ∧
      ∀ id ≠ guest₁, (letInAgain.after s p).view id = (letInAgain.closed s).replica id := by
  intro s p
  have hclean : CleanLinks (.empty "epoch-1" []) .start (twoLinks ++ [letInAgain]) :=
    ⟨⟨⟨trivial, trivial⟩, by decide +kernel⟩, ⟨⟨trivial, trivial⟩, by decide +kernel⟩,
      ⟨trivial, by decide +kernel⟩, trivial⟩
  have hown : (letInAgain.own s).map (·.1) = [guest₁] := by decide +kernel
  refine ⟨hown, by decide +kernel, fun id hid => ?_⟩
  refine reconnects_level "epoch-1" [] (twoLinks ++ [letInAgain]) hclean twoLinks [] letInAgain rfl
    (by decide +kernel) id ?_
  rw [hown, List.mem_singleton]
  exact hid

/-- Gate A let a guest in, takes it back and lets another in, in one batch.  The link of a phone
that listens drops before the last message it is sent, the undo. -/
def droppedBeforeUndo : Connection where
  away := [gateSays 95 [inItem guest₁]]
  events := [.other (gateSays 158 [undoItem guest₁, inItem guest₂])]
  delivered := 3

/-- The phone has heard of the other guest, so its next catch-up leaves out the undo. -/
theorem catchUp_loses_undo : ¬ ∀ (epoch : String) (revoked : List String) (cs : List Connection)
    (c : Connection),
    let s := (runLinks (.empty epoch revoked) .start cs).1
    let p := (runLinks (.empty epoch revoked) .start cs).2
    c.lost s p.link = [] → ∀ id ∉ (c.own s).map (·.1),
      (c.after s p).view id = (c.closed s).replica id := by
  intro h
  have hview := h "epoch-1" [] [droppedBeforeUndo] ⟨[], [], 1⟩ (by decide +kernel) guest₁
    (by decide +kernel)
  exact absurd hview (by decide +kernel)

end Runs

end EchoAndAura
