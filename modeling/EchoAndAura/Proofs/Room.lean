import EchoAndAura.Room

/-!
# What a message changes in the room

Every message to the room is a chain of single row changes (`RoomChanges`), each a claim, a claim taken
back, a confirmation or the server's undo (`RoomChange`), and it broadcasts those rows
(`fromPhone_changes`, `fromServer_changes`).  What holds of the room is read off one change.
-/

namespace EchoAndAura

namespace RoomStore

variable {s : RoomStore} {row r : StoredCheckIn} {drawn : row.seq = s.nextSeq} {id p : String}

theorem get_eq_some : s.get id = some r ↔ r ∈ s.rows ∧ r.ticketId = id := by
  unfold get
  constructor
  · intro h
    exact ⟨List.mem_of_find?_eq_some h, by simpa using List.find?_some h⟩
  · rintro ⟨hr, rfl⟩
    rcases h : s.rows.find? (·.ticketId == r.ticketId) with _ | r'
    · simp only [List.find?_eq_none, beq_iff_eq] at h
      exact absurd rfl (h r hr)
    · have hid : r'.ticketId = r.ticketId := by simpa using List.find?_some h
      rw [h, List.inj_on_of_nodup_map s.unique (List.mem_of_find?_eq_some h) hr hid]

theorem ticketId_of_get (h : s.get id = some r) : r.ticketId = id := (get_eq_some.1 h).2

theorem get_of_mem (h : r ∈ s.rows) : s.get r.ticketId = some r := get_eq_some.2 ⟨h, rfl⟩

theorem seq_le_of_get (h : s.get id = some r) : r.seq ≤ s.seq :=
  s.bounded r (get_eq_some.1 h).1

@[simp] theorem put_seq : (s.put row drawn).seq = s.seq + 1 := rfl

@[simp] theorem put_epoch : (s.put row drawn).epoch = s.epoch := rfl

@[simp] theorem put_revoked : (s.put row drawn).revoked = s.revoked := rfl

@[simp] theorem revoke_get : (s.revoke p).get = s.get := rfl

@[simp] theorem revoke_rows : (s.revoke p).rows = s.rows := rfl

theorem mem_put :
    r ∈ (s.put row drawn).rows ↔ (r ∈ s.rows ∧ r.ticketId ≠ row.ticketId) ∨ r = row := by
  simp [put]

theorem get_put (s : RoomStore) (row : StoredCheckIn) (drawn : row.seq = s.nextSeq) (id : String) :
    (s.put row drawn).get id = if id = row.ticketId then some row else s.get id := by
  split_ifs with h
  · exact get_eq_some.2 ⟨mem_put.2 (.inr rfl), h.symm⟩
  · refine Option.ext fun r => ?_
    rw [get_eq_some, get_eq_some, mem_put]
    constructor
    · rintro ⟨⟨hr, -⟩ | rfl, hid⟩
      · exact ⟨hr, hid⟩
      · exact absurd hid.symm h
    · rintro ⟨hr, rfl⟩
      exact ⟨.inl ⟨hr, h⟩, rfl⟩

theorem count_put_le : (s.put row drawn).count ≤ s.count + 1 := by
  simp only [count, put, List.length_append, List.length_cons, List.length_nil]
  have := List.length_filter_le (fun r : StoredCheckIn => r.ticketId != row.ticketId) s.rows
  omega

theorem rowsOf_put_le :
    (s.put row drawn).rowsOf p ≤ s.rowsOf p + if row.passId = some p then 1 else 0 := by
  have hle : (s.rows.filter (·.ticketId != row.ticketId)).countP (·.passId == some p) ≤
      s.rows.countP (·.passId == some p) := List.filter_sublist.countP_le
  simp only [rowsOf, put, List.countP_append, List.countP_cons, List.countP_nil, beq_iff_eq]
  omega

/-- A row that is replaced no longer counts for its pass. -/
theorem rowsOf_put_of_get (h : s.get row.ticketId = some r) :
    (s.put row drawn).rowsOf p + (if r.passId = some p then 1 else 0) ≤
      s.rowsOf p + if row.passId = some p then 1 else 0 := by
  obtain ⟨hr, hid⟩ := get_eq_some.1 h
  have hsplit := List.countP_eq_countP_filter_add s.rows (·.passId == some p)
    (·.ticketId != row.ticketId)
  have hpos : (if r.passId = some p then 1 else 0) ≤
      (s.rows.filter fun a => !(a.ticketId != row.ticketId)).countP (·.passId == some p) := by
    split_ifs with hp
    · exact List.countP_pos_iff.2 ⟨r, by simp [hr, hid], by simpa using hp⟩
    · exact Nat.zero_le _
  simp only [rowsOf, put, List.countP_append, List.countP_cons, List.countP_nil, beq_iff_eq]
  omega

theorem count_put_of_get (h : s.get row.ticketId = some r) :
    (s.put row drawn).count ≤ s.count := by
  obtain ⟨hr, hid⟩ := get_eq_some.1 h
  have hlt : (s.rows.filter (·.ticketId != row.ticketId)).length < s.rows.length :=
    List.length_filter_lt_length_iff_exists.2 ⟨r, hr, by simp [hid]⟩
  simp only [count, put, List.length_append, List.length_cons, List.length_nil]
  omega

theorem mem_claimsOf : r ∈ s.claimsOf p ↔
    r ∈ s.rows ∧ r.passId = some p ∧ r.confirmed = false ∧ r.removed = none := by
  simp [claimsOf, and_assoc]

end RoomStore

open room

/-- How the room broadcasts a row it changed. -/
def room.announce (row : StoredCheckIn) : RoomMessage :=
  if row.removed.isSome then undoMessage row else .checkins [wire row]

/-- One change of a row: by a phone, or (`none`) by the server. -/
inductive RoomChange (s : RoomStore) : Option Sender → StoredCheckIn → Prop
  | claim {sender : Sender} {ticketId atMs} (out : standing (s.get ticketId) = none)
      (count : s.count < roomCap) (rowsOf : s.rowsOf sender.passId < passClaimCap) :
      RoomChange s (some sender) ⟨ticketId, atMs, some sender.gate, some sender.passId, false, s.nextSeq, none⟩
  | unclaim {sender : Sender} {row : StoredCheckIn} (current : s.get row.ticketId = some row)
      (stands : row.removed = none) (unconfirmed : row.confirmed = false)
      (own : row.passId = some sender.passId) :
      RoomChange s (some sender) { row with removed := some .gate, seq := s.nextSeq }
  | revoked {row : StoredCheckIn} (current : s.get row.ticketId = some row)
      (stands : row.removed = none) (unconfirmed : row.confirmed = false) :
      RoomChange s none { row with removed := some .gate, seq := s.nextSeq }
  | confirm {ticketId atMs gate} :
      RoomChange s none ⟨ticketId, atMs, gate, none, true, s.nextSeq, none⟩
  | undo {ticketId atMs gate}
      (named : ∀ r, standing (s.get ticketId) = some r → r.confirmed = true → r.atMs = atMs) :
      RoomChange s none ⟨ticketId, atMs, gate, none, true, s.nextSeq, some .server⟩

/-- A changed row has drawn a number. -/
theorem RoomChange.drawn {s : RoomStore} {who : Option Sender} {row : StoredCheckIn}
    (h : RoomChange s who row) : row.seq = s.nextSeq := by
  cases h <;> rfl

/-- A chain of changes, and the rows they put. -/
inductive RoomChanges (who : Option Sender) : RoomStore → List StoredCheckIn → RoomStore → Prop
  | nil {s} : RoomChanges who s [] s
  | cons {s row rows s'} (first : RoomChange s who row)
      (rest : RoomChanges who (s.put row first.drawn) rows s') : RoomChanges who s (row :: rows) s'

section Chains

variable {who : Option Sender} {s s' s'' : RoomStore} {rows rows' : List StoredCheckIn}
  {row : StoredCheckIn}

theorem RoomChanges.append (h : RoomChanges who s rows s') (h' : RoomChanges who s' rows' s'') :
    RoomChanges who s (rows ++ rows') s'' := by
  induction h with
  | nil => exact h'
  | cons first _ ih => exact .cons first (ih h')

theorem RoomChanges.one (h : RoomChange s who row) :
    RoomChanges who s [row] (s.put row h.drawn) := .cons h .nil

/-- What one change keeps, a chain of them keeps. -/
theorem RoomChanges.preserves {P : RoomStore → Prop}
    (step : ∀ {s row}, P s → (h : RoomChange s who row) → P (s.put row h.drawn))
    (h : RoomChanges who s rows s') (hs : P s) : P s' := by
  induction h with
  | nil => exact hs
  | cons first _ ih => exact ih (step hs first)

end Chains

section Phone

variable {now : Time} {sender : Sender} {s s' : RoomStore} {e : RoomEffect}

theorem standing_eq_some {o : Option StoredCheckIn} {row : StoredCheckIn} :
    standing o = some row ↔ o = some row ∧ row.removed = none := by
  simp [standing, Option.filter_eq_some_iff]

theorem standing_eq_none {o : Option StoredCheckIn} :
    standing o = none ↔ ∀ row, o = some row → row.removed ≠ none := by
  simp [standing, Option.filter_eq_none_iff]

theorem claim_changes {ticketId at_ : Option Json}
    (h : claim now sender ticketId at_ s = some (e, s')) :
    ∃ rows, RoomChanges (some sender) s rows s' ∧ rows.length ≤ 1 ∧
      e.broadcast = rows.map announce := by
  simp only [claim, Option.bind_eq_bind, Option.bind_eq_some_iff] at h
  obtain ⟨id, -, atMs, -, h⟩ := h
  split_ifs at h with hs hc hr
  all_goals obtain ⟨rfl, rfl⟩ := Prod.mk.inj (Option.some.inj h)
  · exact ⟨[], .nil, by simp, rfl⟩
  · exact ⟨[], .nil, by simp, rfl⟩
  · exact ⟨[], .nil, by simp, rfl⟩
  · refine ⟨_, .one (.claim ?_ (by omega) (by omega)), by simp, rfl⟩
    simpa using hs

theorem unclaim_changes {ticketId : Option Json} (h : unclaim sender ticketId s = some (e, s')) :
    ∃ rows, RoomChanges (some sender) s rows s' ∧ rows.length ≤ 1 ∧
      e.broadcast = rows.map announce := by
  simp only [unclaim, Option.bind_eq_bind, Option.bind_eq_some_iff] at h
  obtain ⟨id, -, h⟩ := h
  split at h
  · rename_i row hrow
    obtain ⟨hget, hstands⟩ := standing_eq_some.1 hrow
    obtain rfl := RoomStore.ticketId_of_get hget
    split_ifs at h with hown
    all_goals obtain ⟨rfl, rfl⟩ := Prod.mk.inj (Option.some.inj h)
    · exact ⟨[], .nil, by simp, rfl⟩
    · simp only [Bool.or_eq_true, decide_eq_true_eq, not_or, Bool.not_eq_true, not_not] at hown
      exact ⟨_, .one (.unclaim hget hstands hown.1 hown.2), by simp, rfl⟩
  · obtain ⟨rfl, rfl⟩ := Prod.mk.inj (Option.some.inj h)
    exact ⟨[], .nil, by simp, rfl⟩

theorem batchItem_changes {item : Json} (h : batchItem now sender item s = some (e, s')) :
    ∃ rows, RoomChanges (some sender) s rows s' ∧ rows.length ≤ 1 ∧
      e.broadcast = rows.map announce := by
  simp only [batchItem] at h
  split_ifs at h
  split at h
  · exact claim_changes h
  · exact unclaim_changes h
  · cases h

theorem batch_changes : ∀ (items : List Json) (s : RoomStore),
    ∃ rows, RoomChanges (some sender) s rows (batch now sender items s).2.2 ∧
      (batch now sender items s).1 = rows.map announce
  | [], s => ⟨[], .nil, rfl⟩
  | item :: items, s => by
    rcases hi : batchItem now sender item s with _ | ⟨e, s'⟩
    · simp only [batch, hi]
      exact batch_changes items s
    · obtain ⟨rows, hrows, -, hb⟩ := batchItem_changes hi
      obtain ⟨rows', hrows', hb'⟩ := batch_changes items s'
      simp only [batch, hi]
      exact ⟨rows ++ rows', hrows.append hrows', by rw [hb, hb', List.map_append]⟩

theorem merge_announce {rows : List StoredCheckIn} (h : rows.length ≤ 1) :
    merge (rows.map announce) = rows.map announce := by
  rcases rows with _ | ⟨row, _ | ⟨row', rows⟩⟩
  · rfl
  · simp only [List.map_cons, List.map_nil, announce]
    split_ifs <;> rfl
  · simp at h

/-- The items of a message the room takes as a batch. -/
def Raw.batch? (raw : Raw) : Option (List Json) :=
  if maxBatchBytes < raw.length then none
  else
    match raw.json with
    | some m =>
      if m.isObject && Json.text? (m.get "t") == some "claims" then
        match m.get "items" with
        | some (.array items) => if maxBatchItems < items.length then none else some items
        | _ => none
      else none
    | none => none

theorem fromPhone_of_batch {raw : Raw} {items : List Json} (h : raw.batch? = some items) :
    fromPhone now sender raw s =
      (.ok { broadcast := merge (batch now sender items s).1, skipSender := true
             warn := (batch now sender items s).2.1 }, (batch now sender items s).2.2) := by
  unfold Raw.batch? at h
  by_cases hlen : maxBatchBytes < raw.length
  · rw [if_pos hlen] at h
    cases h
  rw [if_neg hlen] at h
  rcases hj : raw.json with _ | m <;> rw [hj] at h
  · cases h
  by_cases hm : (m.isObject && Json.text? (m.get "t") == some "claims") = true
  · simp only [hm, if_true] at h
    split at h
    · rename_i items' hitems
      split_ifs at h with hmany
      obtain rfl := Option.some.inj h
      simp only [Bool.and_eq_true, beq_iff_eq] at hm
      simp [fromPhone, hlen, hj, hm, hitems, hmany]
    · cases h
  · simp only [hm, Bool.false_eq_true, if_false] at h
    cases h

/-- Any other message is rejected, or changes one row at most. -/
theorem fromPhone_of_no_batch {raw : Raw} (h : raw.batch? = none) :
    (∃ reason, fromPhone now sender raw s = (.reject reason, s)) ∨
      ∃ e s', fromPhone now sender raw s = (.ok e, s') ∧
        ∃ rows, RoomChanges (some sender) s rows s' ∧ rows.length ≤ 1 ∧
          e.broadcast = rows.map announce := by
  unfold Raw.batch? at h
  by_cases hlen : maxBatchBytes < raw.length
  · exact .inl ⟨"too large", by simp only [fromPhone, if_pos hlen]⟩
  rw [if_neg hlen] at h
  rcases hj : raw.json with _ | m <;> rw [hj] at h
  · exact .inl ⟨"not JSON", by simp only [fromPhone, if_neg hlen, hj]⟩
  by_cases ho : m.isObject
  swap
  · exact .inl ⟨"not an object", by simp [fromPhone, hlen, hj, ho]⟩
  by_cases ht : Json.text? (m.get "t") = some "claims"
  · refine .inl ⟨"bad batch", ?_⟩
    simp only [ho, ht, beq_self_eq_true, Bool.and_self, if_true] at h
    split at h
    · rename_i items hitems
      split_ifs at h with hmany
      simp [fromPhone, hlen, hj, ho, ht, hitems, hmany]
    · rename_i hitems
      simp only [fromPhone, hlen, hj, ho, ht, Bool.not_true, Bool.false_eq_true, if_true, if_false]
  by_cases hlong : maxMessageBytes < raw.length
  · exact .inl ⟨"too large", by simp [fromPhone, hlen, hj, ho, ht, hlong]⟩
  by_cases hin : Json.text? (m.get "t") = some "in"
  · rcases hc : claim now sender (m.get "ticketId") (m.get "at") s with _ | ⟨e, s'⟩
    · exact .inl ⟨"bad claim", by simp [fromPhone, hlen, hj, ho, hin, hlong, hc]⟩
    · exact .inr ⟨e, s', by simp [fromPhone, hlen, hj, ho, hin, hlong, hc], claim_changes hc⟩
  by_cases hun : Json.text? (m.get "t") = some "undo"
  · rcases hc : unclaim sender (m.get "ticketId") s with _ | ⟨e, s'⟩
    · exact .inl ⟨"bad undo", by simp [fromPhone, hlen, hj, ho, hun, hlong, hc]⟩
    · exact .inr ⟨e, s', by simp [fromPhone, hlen, hj, ho, hun, hlong, hc], unclaim_changes hc⟩
  refine .inl ⟨"unknown message", ?_⟩
  simp only [fromPhone, if_neg hlen, hj, ho, Bool.not_true, Bool.false_eq_true, if_false,
    if_neg ht, if_neg hlong]

/-- A message of a phone changes rows one by one and broadcasts them merged. -/
theorem fromPhone_changes {raw : Raw} (h : fromPhone now sender raw s = (.ok e, s')) :
    ∃ rows, RoomChanges (some sender) s rows s' ∧ e.broadcast = merge (rows.map announce) := by
  rcases hb : raw.batch? with _ | items
  · rcases fromPhone_of_no_batch hb with ⟨reason, hr⟩ | ⟨e', s₁, hr, rows, hrows, hlen, hcast⟩
    · rw [hr] at h
      cases h
    · rw [hr] at h
      obtain ⟨rfl, rfl⟩ : e' = e ∧ s₁ = s' := by simpa using h
      exact ⟨rows, hrows, by rw [merge_announce hlen, hcast]⟩
  · rw [fromPhone_of_batch hb] at h
    obtain ⟨rows, hrows, hcast⟩ := @batch_changes now sender items s
    obtain ⟨rfl, rfl⟩ := (Prod.mk.inj h).imp RoomAction.ok.inj id
    exact ⟨rows, hrows, by rw [hcast]⟩

theorem fromPhone_reject {raw : Raw} {reason : String}
    (h : fromPhone now sender raw s = (.reject reason, s')) : s' = s := by
  rcases hb : raw.batch? with _ | items
  · rcases fromPhone_of_no_batch hb with ⟨reason, hr⟩ | ⟨e', s₁, hr, -⟩
    · rw [hr] at h
      exact (Prod.mk.inj h).2.symm
    · rw [hr] at h
      cases h
  · rw [fromPhone_of_batch hb] at h
    cases h

end Phone

section Server

variable {s s' : RoomStore} {e : RoomEffect}

theorem takeBack_changes : ∀ (rows : List StoredCheckIn) (s : RoomStore),
    (rows.map (·.ticketId)).Nodup →
    (∀ r ∈ rows, s.get r.ticketId = some r ∧ r.removed = none ∧ r.confirmed = false) →
    ∃ tombs, RoomChanges none s tombs (takeBack rows s).2 ∧
      tombs.map (·.ticketId) = rows.map (·.ticketId) ∧ (∀ t ∈ tombs, t.removed = some .gate) ∧
      (takeBack rows s).1 = tombs.map announce
  | [], s, _, _ => ⟨[], .nil, rfl, by simp, rfl⟩
  | row :: rows, s, hn, h => by
    rw [List.map_cons, List.nodup_cons] at hn
    obtain ⟨hcur, hstands, hun⟩ := h row (by simp)
    have hstep : RoomChange s none { row with removed := some .gate, seq := s.nextSeq } :=
      .revoked hcur hstands hun
    have hrest : ∀ r ∈ rows, (s.put _ hstep.drawn).get r.ticketId = some r ∧ r.removed = none ∧
        r.confirmed = false := by
      intro r hr
      have hne : r.ticketId ≠ row.ticketId := fun he => hn.1 (he ▸ List.mem_map_of_mem hr)
      rw [RoomStore.get_put, if_neg hne]
      exact h r (List.mem_cons_of_mem _ hr)
    obtain ⟨tombs, htombs, hids, hgate, hcast⟩ := takeBack_changes rows _ hn.2 hrest
    refine ⟨_ :: tombs, .cons hstep htombs, by simp [hids], ?_, ?_⟩
    · intro t ht
      rcases List.mem_cons.1 ht with rfl | ht
      · rfl
      · exact hgate t ht
    · simp only [takeBack, hcast, List.map_cons]
      rfl

theorem claimsOf_nodup (s : RoomStore) (p : String) :
    ((s.claimsOf p).map (·.ticketId)).Nodup :=
  s.unique.sublist (List.filter_sublist.map _)

/-- A revocation takes back every claim of the pass, and nothing else. -/
theorem serverRevoke_changes (p : String) (until_ : Option Time) (s : RoomStore) :
    ∃ tombs, RoomChanges none (s.revoke p) tombs (serverRevoke p until_ s).2 ∧
      tombs.map (·.ticketId) = (s.claimsOf p).map (·.ticketId) ∧
      (∀ t ∈ tombs, t.removed = some .gate) ∧
      (serverRevoke p until_ s).1.broadcast = tombs.map announce := by
  refine takeBack_changes (s.claimsOf p) (s.revoke p) (claimsOf_nodup s p) fun r hr => ?_
  obtain ⟨hr, -, hun, hstands⟩ := RoomStore.mem_claimsOf.1 hr
  exact ⟨RoomStore.get_of_mem hr, hstands, hun⟩

theorem serverIn_changes (ticketId : String) (atMs : Time) (gate : Option String) (s : RoomStore) :
    ∃ row : Option StoredCheckIn, RoomChanges none s row.toList (serverIn ticketId atMs gate s).2 ∧
      (serverIn ticketId atMs gate s).1.broadcast = row.toList.map announce ∧
      ∀ r ∈ row, r.removed = none := by
  unfold serverIn
  dsimp only
  split_ifs
  · exact ⟨none, .nil, rfl, by simp⟩
  · exact ⟨none, .nil, rfl, by simp⟩
  · exact ⟨some _, .one .confirm, rfl, by simp⟩

theorem serverUndo_changes (ticketId : String) (atMs : Time) (s : RoomStore) :
    ∃ row : Option StoredCheckIn, RoomChanges none s row.toList (serverUndo ticketId atMs s).2 ∧
      (serverUndo ticketId atMs s).1.broadcast = row.toList.map announce ∧
      ∀ r ∈ row, r.ticketId = ticketId ∧ r.atMs = atMs := by
  unfold serverUndo
  dsimp only
  split_ifs with h
  · exact ⟨none, .nil, rfl, by simp⟩
  · refine ⟨some _, .one (.undo fun r hr hc => ?_), rfl, by simp⟩
    simp only [hr, Option.any_some, hc, if_true, decide_eq_true_eq, not_not] at h
    exact h

/-- The check-in a body says was undone. -/
def Json.undoes (body : Json) (ticketId : String) (atMs : Time) : Prop :=
  Json.text? (body.get "kind") = some "undo" ∧ uuid? (body.get "ticketId") = some ticketId ∧
    Json.date? (body.get "at") = some atMs

/-- The pass a body revokes. -/
def Json.revokes (body : Json) (passId : String) : Prop :=
  body.isObject ∧ Json.text? (body.get "kind") = some "revoke" ∧
    uuid? (body.get "passId") = some passId

/-- A body the room takes is a revocation, a check-in or an undo. -/
theorem fromServer_cases {body : Json} (h : fromServer body s = some (e, s')) :
    (∃ p until_, body.revokes p ∧ (e, s') = serverRevoke p until_ s) ∨
      (∃ ticketId atMs gate, (e, s') = serverIn ticketId atMs gate s) ∨
      ∃ ticketId atMs, body.undoes ticketId atMs ∧ (e, s') = serverUndo ticketId atMs s := by
  unfold fromServer at h
  split_ifs at h with ho hk
  · simp only [Option.bind_eq_bind, Option.bind_eq_some_iff] at h
    obtain ⟨p, hp, h⟩ := h
    exact .inl ⟨p, _, ⟨by simpa using ho, hk, hp⟩, (Option.some.inj h).symm⟩
  · simp only [Option.bind_eq_bind, Option.bind_eq_some_iff] at h
    obtain ⟨id, hid, t, ht, h⟩ := h
    split at h
    · exact .inr (.inl ⟨id, t, _, (Option.some.inj h).symm⟩)
    · rename_i hundo
      exact .inr (.inr ⟨id, t, ⟨hundo, hid, ht⟩, (Option.some.inj h).symm⟩)
    · cases h

/-- A body changes rows one by one, those of a revocation once the pass is revoked, and broadcasts
them. -/
theorem fromServer_changes {body : Json} (h : fromServer body s = some (e, s')) :
    ∃ s₀ rows, (s₀ = s ∨ ∃ p, s₀ = s.revoke p) ∧ RoomChanges none s₀ rows s' ∧
      e.broadcast = rows.map announce := by
  rcases fromServer_cases h with ⟨p, until_, -, he⟩ | ⟨i, t, gate, he⟩ | ⟨i, t, -, he⟩
  · obtain ⟨tombs, htombs, -, -, hcast⟩ := serverRevoke_changes p until_ s
    obtain ⟨rfl, rfl⟩ : e = (serverRevoke p until_ s).1 ∧ s' = (serverRevoke p until_ s).2 :=
      Prod.mk.inj he
    exact ⟨_, _, .inr ⟨p, rfl⟩, htombs, hcast⟩
  · obtain ⟨change, hchange, hcast, -⟩ := serverIn_changes i t gate s
    obtain ⟨rfl, rfl⟩ : e = (serverIn i t gate s).1 ∧ s' = (serverIn i t gate s).2 :=
      Prod.mk.inj he
    exact ⟨_, _, .inl rfl, hchange, hcast⟩
  · obtain ⟨change, hchange, hcast, -⟩ := serverUndo_changes i t s
    obtain ⟨rfl, rfl⟩ : e = (serverUndo i t s).1 ∧ s' = (serverUndo i t s).2 :=
      Prod.mk.inj he
    exact ⟨_, _, .inl rfl, hchange, hcast⟩

end Server

/-- Every message is a chain of changes, of its sender or of the server. -/
theorem take_changes (s : RoomStore) (m : Incoming) :
    ∃ who s₀ rows, RoomChanges who s₀ rows (take s m).2 ∧ (s₀ = s ∨ ∃ p, s₀ = s.revoke p) ∧
      ∀ now sender raw, m = .phone now sender raw → who = some sender ∧ s₀ = s := by
  rcases m with ⟨now, sender, raw⟩ | body
  · refine ⟨some sender, s, ?_⟩
    rcases h : fromPhone now sender raw s with ⟨_ | e, s'⟩
    · refine ⟨[], ?_, .inl rfl, by simp⟩
      simp only [take, h, fromPhone_reject h]
      exact .nil
    · obtain ⟨rows, hrows, -⟩ := fromPhone_changes h
      refine ⟨rows, ?_, .inl rfl, by simp⟩
      simpa only [take, h] using hrows
  · rcases h : fromServer body s with _ | ⟨e, s'⟩
    · refine ⟨none, s, [], ?_, .inl rfl, by simp⟩
      simp only [take, h]
      exact .nil
    · obtain ⟨s₀, rows, hs₀, hrows, -⟩ := fromServer_changes h
      refine ⟨none, s₀, rows, ?_, hs₀, by simp⟩
      simpa only [take, h] using hrows

end EchoAndAura
