import EchoAndAura.Proofs.Room

/-!
# Replicas of the room

A phone that applies what the room broadcasts.  One change and its broadcast keep a replica equal
to the room's standing rows (`RoomChange.replica`); a batch regroups its broadcasts, check-ins ahead of
undos, and that is the same exactly when no ticket ends the batch claimed after the batch took it
back (`broadcasts_replicate`).
-/

namespace EchoAndAura

open room

/-- The rows a phone holds, by ticket. -/
abbrev Replica := String → Option RoomCheckIn

namespace Replica

def setRows (v : Replica) (rows : List RoomCheckIn) : Replica :=
  rows.foldl (fun v r => Function.update v r.ticketId (some r)) v

/-- A check-in row sets the ticket's row, an undo removes it. -/
def apply (v : Replica) : RoomMessage → Replica
  | .hello _ _ => v
  | .checkins rows => v.setRows rows
  | .undo ticketId _ _ _ => Function.update v ticketId none

def applyAll (v : Replica) (messages : List RoomMessage) : Replica := messages.foldl apply v

end Replica

/-- The room's standing rows. -/
def RoomStore.replica (s : RoomStore) : Replica := fun id => (standing (s.get id)).map wire

/-- What an action has the phones hear. -/
def RoomAction.broadcast : RoomAction → List RoomMessage
  | .reject _ => []
  | .ok e => e.broadcast

variable {s s' : RoomStore} {who : Option Sender} {rows rows' : List StoredCheckIn}
  {row r : StoredCheckIn} {id : String} {sender : Sender} {v : Replica}

section Sequential

theorem apply_announce (v : Replica) (row : StoredCheckIn) (id : String) :
    v.apply (announce row) id =
      if id = row.ticketId then (standing (some row)).map wire else v id := by
  unfold announce
  rcases h : row.removed with _ | by_
  · have hs : standing (some row) = some row := standing_eq_some.2 ⟨rfl, h⟩
    simp [Replica.apply, Replica.setRows, Function.update_apply, wire, hs]
  · have hs : standing (some row) = none := standing_eq_none.2 (by simp [h])
    simp [Replica.apply, undoMessage, Function.update_apply, hs]

theorem RoomChange.replica (h : RoomChange s who row) :
    s.replica.apply (announce row) = (s.put row h.drawn).replica := by
  funext id
  rw [apply_announce]
  unfold RoomStore.replica
  rw [RoomStore.get_put]
  split_ifs <;> rfl

/-- RoomChanges broadcast one by one. -/
theorem RoomChanges.replica (h : RoomChanges who s rows s') :
    s.replica.applyAll (rows.map announce) = s'.replica := by
  induction h with
  | nil => rfl
  | cons first _ ih =>
    rw [List.map_cons, Replica.applyAll, List.foldl_cons, first.replica]
    exact ih

end Sequential

section Merged

/-- The rows take a ticket's check-in back. -/
def TakenBack (rows : List StoredCheckIn) (id : String) : Prop :=
  ∃ t ∈ rows, t.ticketId = id ∧ t.removed.isSome

theorem rows_announce : ∀ rows : List StoredCheckIn, (rows.map announce).flatMap (·.rows) =
    (rows.filter (·.removed.isNone)).map wire
  | [] => rfl
  | row :: rows => by
    rw [List.map_cons, List.flatMap_cons, rows_announce rows]
    rcases h : row.removed with _ | by_ <;> simp [announce, h, RoomMessage.rows, undoMessage]

theorem rest_announce : ∀ rows : List StoredCheckIn,
    (rows.map announce).filter (!·.isCheckins) = (rows.filter (·.removed.isSome)).map undoMessage
  | [] => rfl
  | row :: rows => by
    rw [List.map_cons, List.filter_cons, rest_announce rows]
    rcases h : row.removed with _ | by_ <;> simp [announce, h, RoomMessage.isCheckins, undoMessage]

theorem applyAll_undos (v : Replica) (id : String) : ∀ tombs : List StoredCheckIn,
    v.applyAll (tombs.map undoMessage) id =
      if ∃ t ∈ tombs, t.ticketId = id then none else v id := by
  intro tombs
  induction tombs generalizing v with
  | nil => simp [Replica.applyAll]
  | cons t tombs ih =>
    have hcons : v.applyAll ((t :: tombs).map undoMessage) =
        (v.apply (undoMessage t)).applyAll (tombs.map undoMessage) := rfl
    rw [hcons, ih]
    by_cases hid : t.ticketId = id
    · subst hid
      simp [Replica.apply, undoMessage]
    · simp [Replica.apply, undoMessage, hid, Ne.symm hid]

theorem setRows_congr {id : String} : ∀ (rows : List RoomCheckIn) {v v' : Replica}, v id = v' id →
    v.setRows rows id = v'.setRows rows id
  | [], _, _, h => h
  | r :: rows, v, v', h => by
    have hupdate : Function.update v r.ticketId (some r) id =
        Function.update v' r.ticketId (some r) id := by
      simp only [Function.update_apply, h]
    exact setRows_congr rows hupdate

/-- With no undo of the ticket in between, its check-ins may as well come first. -/
theorem setRows_claims (v : Replica) (id : String) : ∀ rows : List StoredCheckIn,
    ¬ TakenBack rows id →
      v.setRows ((rows.filter (·.removed.isNone)).map wire) id = v.applyAll (rows.map announce) id := by
  intro rows
  induction rows generalizing v with
  | nil => exact fun _ => rfl
  | cons row rows ih =>
    intro h
    have hrest : ¬ TakenBack rows id := fun ⟨t, ht, hid⟩ => h ⟨t, List.mem_cons_of_mem _ ht, hid⟩
    have hcons : v.applyAll ((row :: rows).map announce) =
        (v.apply (announce row)).applyAll (rows.map announce) := rfl
    rcases hr : row.removed with _ | by_
    · have hset : v.setRows (((row :: rows).filter (·.removed.isNone)).map wire) =
          (v.apply (announce row)).setRows ((rows.filter (·.removed.isNone)).map wire) := by
        simp [Replica.setRows, Replica.apply, announce, hr]
      rw [hset, hcons, ih _ hrest]
    · have hid : row.ticketId ≠ id := fun hid => h ⟨row, by simp, hid, by simp [hr]⟩
      have hset : v.setRows (((row :: rows).filter (·.removed.isNone)).map wire) =
          v.setRows ((rows.filter (·.removed.isNone)).map wire) := by
        simp [hr]
      rw [hset, hcons, ← ih _ hrest]
      exact setRows_congr _ (by rw [apply_announce, if_neg hid.symm])

/-- Regrouped, an undo of a ticket has the last word on it. -/
theorem applyAll_merge (v : Replica) (rows : List StoredCheckIn) (id : String) :
    (TakenBack rows id → v.applyAll (merge (rows.map announce)) id = none) ∧
      (¬ TakenBack rows id →
        v.applyAll (merge (rows.map announce)) id = v.applyAll (rows.map announce) id) := by
  have hmerge : v.applyAll (merge (rows.map announce)) =
      (v.setRows ((rows.filter (·.removed.isNone)).map wire)).applyAll
        ((rows.filter (·.removed.isSome)).map undoMessage) := by
    simp only [merge, rows_announce, rest_announce]
    split_ifs with he
    · rw [List.isEmpty_iff.1 he]
      rfl
    · rfl
  have htaken : TakenBack rows id ↔
      ∃ t ∈ rows.filter (·.removed.isSome), t.ticketId = id := by
    simp only [TakenBack, List.mem_filter, and_assoc]
    exact exists_congr fun t => and_congr_right fun _ => and_comm
  rw [hmerge, applyAll_undos]
  refine ⟨fun h => if_pos (htaken.1 h), fun h => ?_⟩
  rw [if_neg (fun ht => h (htaken.2 ht)), setRows_claims v id rows h]

/-- A phone's message replicates unless it leaves a ticket standing that it took back. -/
theorem merged_replica (h : RoomChanges who s rows s') :
    s.replica.applyAll (merge (rows.map announce)) = s'.replica ↔
      ∀ id, TakenBack rows id → standing (s'.get id) = none := by
  rw [funext_iff]
  refine forall_congr' fun id => ?_
  obtain ⟨htaken, hkept⟩ := applyAll_merge s.replica rows id
  by_cases ht : TakenBack rows id
  · rw [htaken ht]
    simp [ht, RoomStore.replica, eq_comm]
  · rw [hkept ht, h.replica]
    simp [ht]

end Merged

section Batch

variable {now : Time} {item : Json} {start s₀ : RoomStore}

/-- The ticket and the time of a well-formed claim in a batch. -/
def Json.claims? (now : Time) (item : Json) : Option (String × ℚ) :=
  if item.isObject && Json.text? (item.get "t") == some "in" then do
    let id ← uuid? (item.get "ticketId")
    let at_ ← plausibleTime now (item.get "at")
    return (id, at_)
  else none

/-- The ticket of a well-formed undo in a batch. -/
def Json.undoes? (item : Json) : Option String :=
  if item.isObject && Json.text? (item.get "t") == some "undo" then uuid? (item.get "ticketId")
  else none

/-- The item claims a ticket that an earlier item of the batch, which began at `start`, took
back. -/
def Reclaims (now : Time) (sender : Sender) (start : Nat) (s : RoomStore) (item : Json)
    (id : String) : Prop :=
  (∃ at_, item.claims? now = some (id, at_)) ∧ s.count < roomCap ∧
    s.rowsOf sender.passId < passClaimCap ∧
    ∃ r, s.get id = some r ∧ r.removed = some .gate ∧ start < r.seq

/-- The row an item of a batch puts. -/
def itemRow (now : Time) (sender : Sender) (item : Json) (s : RoomStore) : Option StoredCheckIn :=
  match item.claims? now with
  | some (id, at_) =>
    if (standing (s.get id)).isSome ∨ roomCap ≤ s.count ∨ passClaimCap ≤ s.rowsOf sender.passId then
      none
    else some ⟨id, at_, some sender.gate, some sender.passId, false, s.nextSeq, none⟩
  | none => do
    let id ← item.undoes?
    let r ← standing (s.get id)
    if r.confirmed || r.passId ≠ some sender.passId then none
    else some { r with removed := some .gate, seq := s.nextSeq }

/-- The room after one item. -/
def afterItem (now : Time) (sender : Sender) (item : Json) (s : RoomStore) : RoomStore :=
  (batchItem now sender item s).elim s (·.2)

/-- Some item claims again what the batch took back, and no later item takes it back once more. -/
def LeavesReclaimed (now : Time) (sender : Sender) (start : Nat) : List Json → RoomStore → Prop
  | [], _ => False
  | item :: items, s =>
    (∃ id, Reclaims now sender start s item id ∧ ∀ later ∈ items, later.undoes? ≠ some id) ∨
      LeavesReclaimed now sender start items (afterItem now sender item s)

/-- The rows a batch puts. -/
def batchRows (now : Time) (sender : Sender) : List Json → RoomStore → List StoredCheckIn
  | [], _ => []
  | item :: items, s =>
    (itemRow now sender item s).toList ++ batchRows now sender items (afterItem now sender item s)

/-- The room after a batch. -/
def afterBatch (now : Time) (sender : Sender) (items : List Json) (s : RoomStore) : RoomStore :=
  items.foldl (fun s item => afterItem now sender item s) s

/-- What an item broadcasts is the row it puts. -/
theorem batchItem_row (now : Time) (sender : Sender) (item : Json) (s : RoomStore) :
    (batchItem now sender item s).elim [] (·.1.broadcast) =
        (itemRow now sender item s).toList.map announce ∧
      (itemRow now sender item s = none → afterItem now sender item s = s) ∧
      ∀ row, itemRow now sender item s = some row →
        ∃ drawn, afterItem now sender item s = s.put row drawn := by
  unfold afterItem batchItem itemRow Json.claims? Json.undoes?
  by_cases ho : item.isObject
  swap
  · simp [ho]
  by_cases hin : Json.text? (item.get "t") = some "in"
  · simp only [ho, hin, Bool.not_true, Bool.false_eq_true, if_false, Bool.true_and, beq_self_eq_true,
      if_true, claim, Option.bind_eq_bind]
    rcases uuid? (item.get "ticketId") with _ | id
    · exact ⟨rfl, fun _ => rfl, fun _ h => by cases h⟩
    rcases plausibleTime now (item.get "at") with _ | at_
    · exact ⟨rfl, fun _ => rfl, fun _ h => by cases h⟩
    by_cases hs : (standing (s.get id)).isSome
    · simp [hs, nothing]
    by_cases hc : roomCap ≤ s.count
    · simp [hs, hc, nothing]
    by_cases hr : passClaimCap ≤ s.rowsOf sender.passId
    · simp [hs, hc, hr, nothing]
    · simp [hs, hc, hr, announce]
  by_cases hun : Json.text? (item.get "t") = some "undo"
  · simp only [ho, hun, Bool.not_true, Bool.false_eq_true, if_false, Bool.true_and,
      beq_self_eq_true, if_true, unclaim, Option.bind_eq_bind]
    rcases uuid? (item.get "ticketId") with _ | id
    · exact ⟨rfl, fun _ => rfl, fun _ h => by cases h⟩
    rcases hs : standing (s.get id) with _ | r
    · simp [hs, nothing]
    by_cases hown : (r.confirmed || decide (r.passId ≠ some sender.passId)) = true
    · simp only [Option.bind_some, hs, hown, if_true, nothing]
      exact ⟨rfl, fun _ => rfl, fun _ h => by cases h⟩
    · simp only [Option.bind_some, hs, hown, Bool.false_eq_true, if_false]
      simp [announce]
  · simp [ho, hin, hun]

theorem batch_rows : ∀ (items : List Json) (s : RoomStore),
    (batch now sender items s).1 = (batchRows now sender items s).map announce ∧
      (batch now sender items s).2.2 = afterBatch now sender items s
  | [], _ => ⟨rfl, rfl⟩
  | item :: items, s => by
    have hrow := (batchItem_row now sender item s).1
    obtain ⟨ih, ih'⟩ := batch_rows items (afterItem now sender item s)
    have hafter : afterBatch now sender (item :: items) s =
        afterBatch now sender items (afterItem now sender item s) := rfl
    rw [hafter, batchRows, List.map_append, ← hrow, ← ih, ← ih']
    unfold afterItem
    rcases hb : batchItem now sender item s with _ | ⟨e, s'⟩ <;> simp [batch, hb]

theorem itemRow_change (h : itemRow now sender item s = some row) :
    RoomChange s (some sender) row := by
  unfold itemRow at h
  split at h
  · split_ifs at h with hs
    simp only [not_or, Bool.not_eq_true, Option.isSome_eq_false_iff, Option.isNone_iff_eq_none,
      not_le] at hs
    obtain rfl := Option.some.inj h
    exact .claim hs.1 hs.2.1 hs.2.2
  · simp only [Option.bind_eq_bind, Option.bind_eq_some_iff] at h
    obtain ⟨id, -, r, hr, h⟩ := h
    split_ifs at h with hown
    obtain rfl := Option.some.inj h
    obtain ⟨hget, hstands⟩ := standing_eq_some.1 hr
    obtain rfl := RoomStore.ticketId_of_get hget
    simp only [Bool.or_eq_true, decide_eq_true_eq, not_or, Bool.not_eq_true, not_not] at hown
    exact .unclaim hget hstands hown.1 hown.2

theorem itemRow_claim (h : itemRow now sender item s = some row) (hr : row.removed = none) :
    (∃ at_, item.claims? now = some (row.ticketId, at_)) ∧ standing (s.get row.ticketId) = none ∧
      s.count < roomCap ∧ s.rowsOf sender.passId < passClaimCap := by
  unfold itemRow at h
  split at h
  · rename_i id at_ hclaims
    split_ifs at h with hs
    simp only [not_or, Bool.not_eq_true, Option.isSome_eq_false_iff, Option.isNone_iff_eq_none,
      not_le] at hs
    obtain rfl := Option.some.inj h
    exact ⟨⟨at_, hclaims⟩, hs⟩
  · simp only [Option.bind_eq_bind, Option.bind_eq_some_iff] at h
    obtain ⟨id, -, r, -, h⟩ := h
    split_ifs at h
    obtain rfl := Option.some.inj h
    cases hr

theorem itemRow_undo (h : itemRow now sender item s = some row) (hr : row.removed ≠ none) :
    item.undoes? = some row.ticketId := by
  unfold itemRow at h
  split at h
  · split_ifs at h
    obtain rfl := Option.some.inj h
    exact absurd rfl hr
  · simp only [Option.bind_eq_bind, Option.bind_eq_some_iff] at h
    obtain ⟨id, hid, r, hs, h⟩ := h
    split_ifs at h
    obtain rfl := Option.some.inj h
    rw [hid, RoomStore.ticketId_of_get (standing_eq_some.1 hs).1]

/-- An undo of the phone's own standing claim is taken. -/
theorem itemRow_of_undoes (h : item.undoes? = some id) (hr : standing (s.get id) = some r)
    (hc : r.confirmed = false) (hp : r.passId = some sender.passId) :
    ∃ row, itemRow now sender item s = some row ∧ row.ticketId = id ∧ row.removed ≠ none := by
  have hclaims : item.claims? now = none := by
    unfold Json.undoes? at h
    unfold Json.claims?
    split_ifs at h with hun
    rw [if_neg]
    simp only [Bool.and_eq_true, beq_iff_eq] at hun ⊢
    rw [hun.2]
    simp
  have hid : r.ticketId = id := RoomStore.ticketId_of_get (standing_eq_some.1 hr).1
  refine ⟨{ r with removed := some .gate, seq := s.nextSeq }, ?_, hid, by simp⟩
  simp [itemRow, hclaims, h, hr, hc, hp]

/-- A claim of a ticket the batch took back is taken. -/
theorem itemRow_of_reclaims {n : Nat} (h : Reclaims now sender n s item id) :
    ∃ row, itemRow now sender item s = some row ∧ row.ticketId = id ∧ row.removed = none := by
  obtain ⟨⟨at_, hat⟩, hcount, hrows, r, hr, hgate, -⟩ := h
  have hs : standing (s.get id) = none :=
    standing_eq_none.2 fun r' hr' => by
      obtain rfl := Option.some.inj (hr'.symm.trans hr)
      simp [hgate]
  refine ⟨⟨id, at_, some sender.gate, some sender.passId, false, s.nextSeq, none⟩, ?_, rfl, rfl⟩
  simp [itemRow, hat, hs, hcount, hrows]

/-- What is known of the rows a batch has put since it began at `start`. -/
structure Since (start : RoomStore) (sender : Sender) (rows : List StoredCheckIn)
    (s : RoomStore) : Prop where
  le : start.seq ≤ s.seq
  own : ∀ id r, s.get id = some r → start.seq < r.seq → r ∈ rows ∧ r.confirmed = false ∧
    r.passId = some sender.passId ∧ (r.removed = none ∨ r.removed = some .gate)
  put : ∀ t ∈ rows, ∃ r, s.get t.ticketId = some r ∧ start.seq < r.seq

theorem Since.nil (s : RoomStore) (sender : Sender) : Since s sender [] s where
  le := le_rfl
  own id r hr hlt := absurd (RoomStore.seq_le_of_get hr) (by omega)
  put := by simp

theorem Since.step (h : Since start sender rows s) (hc : RoomChange s (some sender) row) :
    Since start sender (rows ++ [row]) (s.put row hc.drawn) := by
  have hle := h.le
  have hseq : start.seq < row.seq := by
    rw [hc.drawn]
    exact Nat.lt_succ_of_le hle
  refine ⟨by rw [RoomStore.put_seq]; omega, fun id r hr hlt => ?_, fun t ht => ?_⟩
  · rw [RoomStore.get_put] at hr
    split_ifs at hr with hid
    · obtain rfl := Option.some.inj hr
      refine ⟨by simp, ?_⟩
      cases hc with
      | claim => exact ⟨rfl, rfl, .inl rfl⟩
      | unclaim current stands unconfirmed own => exact ⟨unconfirmed, own, .inr rfl⟩
    · obtain ⟨hmem, hown⟩ := h.own id r hr hlt
      exact ⟨List.mem_append_left _ hmem, hown⟩
  · rw [RoomStore.get_put]
    split_ifs with hid
    · exact ⟨row, rfl, hseq⟩
    · rcases List.mem_append.1 ht with ht | ht
      · exact h.put t ht
      · exact absurd (congrArg StoredCheckIn.ticketId (List.mem_singleton.1 ht)) hid

/-- A ticket the batch took back stands only by the phone's own claim. -/
theorem Since.mine (h : Since start sender rows s) (ht : TakenBack rows id)
    (hr : standing (s.get id) = some r) : r.confirmed = false ∧ r.passId = some sender.passId := by
  obtain ⟨t, ht, rfl, -⟩ := ht
  obtain ⟨r', hr', hlt⟩ := h.put t ht
  obtain rfl := Option.some.inj (hr'.symm.trans (standing_eq_some.1 hr).1)
  obtain ⟨-, hc, hp, -⟩ := h.own _ _ hr' hlt
  exact ⟨hc, hp⟩

theorem takenBack_append : TakenBack (rows ++ [row]) id ↔
    TakenBack rows id ∨ (row.ticketId = id ∧ row.removed.isSome) := by
  simp [TakenBack, or_and_right, exists_or]

/-- One item leaves a ticket it took back standing when it claims it again, or had it so before and
does not undo it. -/
theorem Since.reclaims (h : Since start sender rows s) (hrow : itemRow now sender item s = some row)
    (drawn : row.seq = s.nextSeq) (id : String) :
    (TakenBack (rows ++ [row]) id ∧ (standing ((s.put row drawn).get id)).isSome) ↔
      Reclaims now sender start.seq s item id ∨
        (TakenBack rows id ∧ (standing (s.get id)).isSome ∧ item.undoes? ≠ some id) := by
  rw [takenBack_append, RoomStore.get_put]
  have hre : Reclaims now sender start.seq s item id → id = row.ticketId ∧ row.removed = none := by
    intro hre
    obtain ⟨row', hrow', hid, hin⟩ := itemRow_of_reclaims hre
    obtain rfl := Option.some.inj (hrow'.symm.trans hrow)
    exact ⟨hid.symm, hin⟩
  by_cases hid : id = row.ticketId
  · subst hid
    rw [if_pos rfl]
    rcases hr : row.removed with _ | by_
    · obtain ⟨hclaims, hout, hcount, hrows⟩ := itemRow_claim hrow hr
      have hst : (standing (some row)).isSome := by
        rw [standing_eq_some.2 ⟨rfl, hr⟩]
        rfl
      simp only [hst, hout, Option.isSome_none, and_false, false_and, or_false, and_true,
        Bool.false_eq_true]
      constructor
      · rintro ⟨t, ht, hid, -⟩
        obtain ⟨r, hget, hlt⟩ := h.put t ht
        rw [hid] at hget
        obtain ⟨-, -, -, hrem | hrem⟩ := h.own _ _ hget hlt
        · exact absurd hrem (standing_eq_none.1 hout r hget)
        · exact ⟨hclaims, hcount, hrows, r, hget, hrem, hlt⟩
      · rintro ⟨-, -, -, r, hget, hrem, hlt⟩
        exact ⟨r, (h.own _ _ hget hlt).1, RoomStore.ticketId_of_get hget, by simp [hrem]⟩
    · have hst : standing (some row) = none := standing_eq_none.2 (by simp [hr])
      have hundo := itemRow_undo hrow (by simp [hr])
      simp only [hst, Option.isSome_none, Bool.false_eq_true, and_false, hundo, ne_eq,
        not_true_eq_false, or_false, false_iff]
      intro hre'
      simpa [hr] using (hre hre').2
  · rw [if_neg hid]
    constructor
    · rintro ⟨ht | ⟨hid', -⟩, hs⟩
      · refine .inr ⟨ht, hs, fun hundo => ?_⟩
        obtain ⟨r, hr⟩ := Option.isSome_iff_exists.1 hs
        obtain ⟨hconf, hp⟩ := h.mine ht hr
        obtain ⟨row', hrow', hid', -⟩ := @itemRow_of_undoes _ _ _ _ now _ hundo hr hconf hp
        obtain rfl := Option.some.inj (hrow'.symm.trans hrow)
        exact hid hid'.symm
      · exact absurd hid'.symm hid
    · rintro (hre' | ⟨ht, hs, -⟩)
      · exact absurd (hre hre').1 hid
      · exact ⟨.inl ht, hs⟩

/-- By induction on the items, what the batch leaves standing that it took back. -/
theorem leavesReclaimed_iff : ∀ (items : List Json) (s : RoomStore) (rows : List StoredCheckIn),
    Since start sender rows s →
      ((∃ id, TakenBack (rows ++ batchRows now sender items s) id ∧
          (standing ((afterBatch now sender items s).get id)).isSome) ↔
        LeavesReclaimed now sender start.seq items s ∨
          ∃ id, (TakenBack rows id ∧ (standing (s.get id)).isSome) ∧
            ∀ later ∈ items, later.undoes? ≠ some id)
  | [], s, rows, _ => by simp [batchRows, afterBatch, LeavesReclaimed]
  | item :: items, s, rows, h => by
    have hafter : afterBatch now sender (item :: items) s =
        afterBatch now sender items (afterItem now sender item s) := rfl
    rw [hafter, batchRows, LeavesReclaimed]
    rcases hrow : itemRow now sender item s with _ | row
    · have hs : afterItem now sender item s = s := (batchItem_row now sender item s).2.1 hrow
      have hre : ∀ id, ¬ Reclaims now sender start.seq s item id := by
        intro id hre
        obtain ⟨row, hrow', -⟩ := itemRow_of_reclaims hre
        simp [hrow] at hrow'
      have hundo : ∀ id, TakenBack rows id → (standing (s.get id)).isSome →
          item.undoes? ≠ some id := by
        intro id ht hst hundo
        obtain ⟨r, hr⟩ := Option.isSome_iff_exists.1 hst
        obtain ⟨hconf, hp⟩ := h.mine ht hr
        obtain ⟨row, hrow', -⟩ := @itemRow_of_undoes _ _ _ _ now _ hundo hr hconf hp
        simp [hrow] at hrow'
      rw [hs, Option.toList_none, List.nil_append, leavesReclaimed_iff items s rows h]
      simp only [hre, false_and, exists_false, false_or, List.forall_mem_cons]
      refine or_congr_right (exists_congr fun id => and_congr_right fun ht => ?_)
      exact ⟨fun hl => ⟨hundo id ht.1 ht.2, hl⟩, fun hl => hl.2⟩
    · obtain ⟨drawn, hs⟩ := (batchItem_row now sender item s).2.2 row hrow
      rw [hs, Option.toList_some, ← List.append_assoc,
        leavesReclaimed_iff items _ _ (h.step (itemRow_change hrow))]
      simp only [h.reclaims hrow drawn, List.forall_mem_cons]
      constructor
      · rintro (hl | ⟨id, hre | ⟨ht, hst, hu⟩, hl⟩)
        · exact .inl (.inr hl)
        · exact .inl (.inl ⟨id, hre, hl⟩)
        · exact .inr ⟨id, ⟨ht, hst⟩, hu, hl⟩
      · rintro ((⟨id, hre, hl⟩ | hl) | ⟨id, ⟨ht, hst⟩, hu, hl⟩)
        · exact .inr ⟨id, .inl hre, hl⟩
        · exact .inl hl
        · exact .inr ⟨id, .inr ⟨ht, hst, hu⟩, hl⟩

end Batch

section Law

/-- A batch replicates exactly when it leaves no ticket standing that it took back. -/
theorem batch_replica (now : Time) (sender : Sender) (items : List Json) (s : RoomStore) :
    s.replica.applyAll (merge (batch now sender items s).1) = (batch now sender items s).2.2.replica ↔
      ¬ LeavesReclaimed now sender s.seq items s := by
  obtain ⟨hcast, hafter⟩ := @batch_rows sender now items s
  have hrows : RoomChanges (some sender) s (batchRows now sender items s)
      (afterBatch now sender items s) := by
    clear hcast hafter
    induction items generalizing s with
    | nil => exact .nil
    | cons item items ih =>
      have hcons : afterBatch now sender (item :: items) s =
          afterBatch now sender items (afterItem now sender item s) := rfl
      rw [hcons, batchRows]
      refine RoomChanges.append ?_ (ih _)
      rcases hrow : itemRow now sender item s with _ | row
      · rw [(batchItem_row now sender item s).2.1 hrow]
        exact .nil
      · obtain ⟨drawn, hs⟩ := (batchItem_row now sender item s).2.2 row hrow
        rw [hs]
        exact .one (itemRow_change hrow)
  rw [hcast, hafter, merged_replica hrows]
  have hiff := @leavesReclaimed_iff sender now s items s [] (.nil s sender)
  simp only [List.nil_append, TakenBack, List.not_mem_nil, false_and, exists_false, or_false] at hiff
  rw [← hiff]
  simp only [TakenBack, not_exists, not_and, Bool.not_eq_true, Option.isSome_eq_false_iff,
    Option.isNone_iff_eq_none]

/-- Whatever state the room is in, its broadcasts bring a replica along: for a phone's message
exactly when it is no batch that leaves a ticket standing which it took back, for the server's
messages always. -/
theorem broadcasts_replicate (s : RoomStore) :
    (∀ now sender raw,
      s.replica.applyAll (fromPhone now sender raw s).1.broadcast =
          (fromPhone now sender raw s).2.replica ↔
        ∀ items, raw.batch? = some items → ¬ LeavesReclaimed now sender s.seq items s) ∧
      ∀ body e s', fromServer body s = some (e, s') →
        s.replica.applyAll e.broadcast = s'.replica := by
  refine ⟨fun now sender raw => ?_, fun body e s' h => ?_⟩
  · rcases hb : raw.batch? with _ | items
    · simp only [reduceCtorEq, false_imp_iff, implies_true, iff_true]
      rcases @fromPhone_of_no_batch now sender s raw hb with
        ⟨reason, hr⟩ | ⟨e, s', hr, rows, hrows, -, hcast⟩
      · rw [hr]
        rfl
      · rw [hr]
        show s.replica.applyAll e.broadcast = s'.replica
        rw [hcast, hrows.replica]
    · rw [fromPhone_of_batch hb]
      simpa [RoomAction.broadcast] using batch_replica now sender items s
  · obtain ⟨s₀, rows, hs₀, hrows, hcast⟩ := fromServer_changes h
    have hstart : s₀.replica = s.replica := by
      rcases hs₀ with rfl | ⟨p, rfl⟩ <;> rfl
    rw [hcast, ← hstart]
    exact hrows.replica

/-- A phone lets someone in, takes it back and lets them in again, all in one batch. -/
def claimUndoClaim : Raw where
  length := 229
  json := some (.object [("t", .string "claims"), ("items", .array [
    .object [("t", .string "in"), ("ticketId", .string "11111111-1111-4111-8111-111111111111"),
      ("at", .number 1000)],
    .object [("t", .string "undo"), ("ticketId", .string "11111111-1111-4111-8111-111111111111")],
    .object [("t", .string "in"), ("ticketId", .string "11111111-1111-4111-8111-111111111111"),
      ("at", .number 2000)]])])

/-- The room has them in, the phones that heard it do not. -/
theorem broadcasts_diverge : ¬ ∀ (s : RoomStore) (now : Time) (sender : Sender) (raw : Raw),
    s.replica.applyAll (fromPhone now sender raw s).1.broadcast =
      (fromPhone now sender raw s).2.replica := by
  intro h
  have hroom := congrFun (h (.empty "epoch-1" []) 3000 ⟨"pass-a", "Gate A"⟩ claimUndoClaim)
    "11111111-1111-4111-8111-111111111111"
  exact absurd hroom (by decide +kernel)

end Law

end EchoAndAura
