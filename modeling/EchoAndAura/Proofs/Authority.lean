import EchoAndAura.Proofs.Room

/-!
# Who may change what in the room

Over every sequence of messages only the server's undo of a confirmed check-in takes it down
(`relay_authority`), a phone only ever changes its own unconfirmed claims, and it is held to the
caps on rows.
-/

namespace EchoAndAura

open room

variable {s s' : RoomStore} {who : Option Sender} {rows : List StoredCheckIn} {row r : StoredCheckIn}
  {id : String} {sender : Sender}

section Kept

/-- A row a phone may not touch: confirmed, or another pass's claim. -/
def StoredCheckIn.Foreign (r : StoredCheckIn) (sender : Sender) : Prop :=
  r.confirmed = true ∨ r.passId ≠ some sender.passId

/-- A phone's change leaves what stands and is not its own claim. -/
theorem RoomChange.foreign (h : RoomChange s (some sender) row) (hr : standing (s.get id) = some r)
    (hf : r.Foreign sender) : (s.put row h.drawn).get id = some r := by
  have hget := RoomStore.get_put s row h.drawn id
  obtain ⟨hs, hstands⟩ := standing_eq_some.1 hr
  cases h with
  | claim out =>
    rw [hget, if_neg, hs]
    rintro rfl
    simp [hr] at out
  | unclaim current stands unconfirmed own =>
    rw [hget, if_neg, hs]
    rintro rfl
    obtain rfl := Option.some.inj (current.symm.trans hs)
    rcases hf with hf | hf
    · simp [unconfirmed] at hf
    · exact hf own

theorem RoomChanges.foreign (h : RoomChanges (some sender) s rows s') (hr : standing (s.get id) = some r)
    (hf : r.Foreign sender) : s'.get id = some r := by
  have hstands := (standing_eq_some.1 hr).2
  have key : standing (s'.get id) = some r :=
    h.preserves (P := fun s => standing (s.get id) = some r)
      (fun hs hc => standing_eq_some.2 ⟨hc.foreign hs hf, hstands⟩) hr
  exact (standing_eq_some.1 key).1

/-- The ticket's check-in stands and is confirmed. -/
def RoomStore.Confirmed (s : RoomStore) (id : String) : Prop :=
  ∃ r, standing (s.get id) = some r ∧ r.confirmed = true

/-- The server takes a confirmed check-in down with an undo that names its time, and no other way. -/
theorem RoomChange.confirmed (h : RoomChange s none row) (hr : standing (s.get id) = some r)
    (hc : r.confirmed = true) :
    (s.put row h.drawn).Confirmed id ∨
      (row.ticketId = id ∧ row.removed = some .server ∧ row.atMs = r.atMs) := by
  have hget := RoomStore.get_put s row h.drawn id
  obtain ⟨hs, hstands⟩ := standing_eq_some.1 hr
  by_cases hid : id = row.ticketId
  · rw [if_pos hid] at hget
    cases h with
    | revoked current stands unconfirmed =>
      subst hid
      obtain rfl := Option.some.inj (current.symm.trans hs)
      simp [hc] at unconfirmed
    | confirm => exact .inl ⟨_, standing_eq_some.2 ⟨hget, rfl⟩, rfl⟩
    | undo named =>
      subst hid
      exact .inr ⟨rfl, rfl, (named r hr hc).symm⟩
  · rw [if_neg hid] at hget
    exact .inl ⟨r, by rw [hget, hr], hc⟩

theorem RoomChanges.get_of_notMem (h : RoomChanges who s rows s') (hid : id ∉ rows.map (·.ticketId)) :
    s'.get id = s.get id := by
  induction h with
  | nil => rfl
  | cons first _ ih =>
    simp only [List.map_cons, List.mem_cons, not_or] at hid
    rw [ih hid.2, RoomStore.get_put, if_neg hid.1]

theorem serverRevoke_get {p : String} {until_ : Option Time} (hr : s.get id = some r)
    (hf : r.confirmed = true ∨ r.passId ≠ some p) : (serverRevoke p until_ s).2.get id = some r := by
  obtain ⟨tombs, htombs, hids, -, -⟩ := serverRevoke_changes p until_ s
  rw [htombs.get_of_notMem, RoomStore.revoke_get, hr]
  rw [hids]
  intro hm
  obtain ⟨c, hc, hcid⟩ := List.mem_map.1 hm
  obtain ⟨hrow, hp, hun, -⟩ := RoomStore.mem_claimsOf.1 hc
  obtain rfl : c = r := Option.some.inj ((hcid ▸ RoomStore.get_of_mem hrow).symm.trans hr)
  rcases hf with hf | hf
  · simp [hun] at hf
  · exact hf hp

theorem RoomChanges.confirmed {change : Option StoredCheckIn} (h : RoomChanges none s change.toList s')
    (hr : standing (s.get id) = some r) (hc : r.confirmed = true) :
    s'.Confirmed id ∨
      ∃ row ∈ change, row.ticketId = id ∧ row.removed = some .server ∧ row.atMs = r.atMs := by
  rcases change with _ | row
  · cases h
    exact .inl ⟨r, hr, hc⟩
  · rcases h with _ | ⟨first, _ | _⟩
    exact (first.confirmed hr hc).imp_right fun hrow => ⟨row, rfl, hrow⟩

/-- A body of the server leaves a confirmed check-in standing, or is the undo that names it. -/
theorem fromServer_confirmed {body : Json} {e : RoomEffect}
    (h : fromServer body s = some (e, s')) (hr : standing (s.get id) = some r)
    (hc : r.confirmed = true) :
    s'.Confirmed id ∨ ∃ t : Time, body.undoes id t ∧ r.atMs = t := by
  obtain ⟨hs, hstands⟩ := standing_eq_some.1 hr
  rcases fromServer_cases h with ⟨p, until_, -, he⟩ | ⟨i, t, gate, he⟩ | ⟨i, t, hu, he⟩
  · have hs' : s' = (serverRevoke p until_ s).2 := congrArg Prod.snd he
    exact .inl ⟨r, standing_eq_some.2 ⟨hs' ▸ serverRevoke_get hs (.inl hc), hstands⟩, hc⟩
  · have hs' : s' = (serverIn i t gate s).2 := congrArg Prod.snd he
    obtain ⟨change, hchange, -, hin⟩ := serverIn_changes i t gate s
    rcases (hs' ▸ hchange).confirmed hr hc with hk | ⟨row, hrow, -, hserver, -⟩
    · exact .inl hk
    · simp [hin row hrow] at hserver
  · have hs' : s' = (serverUndo i t s).2 := congrArg Prod.snd he
    obtain ⟨change, hchange, -, hundo⟩ := serverUndo_changes i t s
    rcases (hs' ▸ hchange).confirmed hr hc with hk | ⟨row, hrow, rfl, -, hat⟩
    · exact .inl hk
    · obtain ⟨rfl, ht⟩ := hundo row hrow
      exact .inr ⟨t, hu, hat.symm.trans ht⟩

end Kept

section Caps

/-- Rows are made by claims under the caps, and replaced by everything else. -/
theorem RoomChange.count (h : RoomChange s (some sender) row) :
    (s.put row h.drawn).count ≤ max s.count roomCap := by
  have hnew : (s.put row h.drawn).count ≤ s.count + 1 := RoomStore.count_put_le
  have hold : ∀ r, s.get row.ticketId = some r → (s.put row h.drawn).count ≤ s.count :=
    fun r => RoomStore.count_put_of_get
  cases h with
  | claim out count rowsOf => omega
  | unclaim current stands unconfirmed own => exact (hold _ current).trans (le_max_left _ _)

theorem RoomChanges.count (h : RoomChanges (some sender) s rows s') :
    s'.count ≤ max s.count roomCap :=
  h.preserves (P := fun s₁ => s₁.count ≤ max s.count roomCap)
    (fun hs hc => hc.count.trans (by omega)) (le_max_left _ _)

theorem RoomChange.rowsOf {p : String} (h : RoomChange s who row) (hp : s.rowsOf p ≤ passClaimCap) :
    (s.put row h.drawn).rowsOf p ≤ passClaimCap := by
  have hnew : (s.put row h.drawn).rowsOf p ≤ s.rowsOf p + if row.passId = some p then 1 else 0 :=
    RoomStore.rowsOf_put_le
  have hold : ∀ r, s.get row.ticketId = some r →
      (s.put row h.drawn).rowsOf p + (if r.passId = some p then 1 else 0) ≤
        s.rowsOf p + if row.passId = some p then 1 else 0 :=
    fun r => RoomStore.rowsOf_put_of_get
  cases h with
  | @claim sender ticketId atMs out count hrows =>
    simp only [Option.some.injEq] at hnew
    split_ifs at hnew with hs
    · subst hs
      omega
    · omega
  | unclaim current stands unconfirmed own =>
    have hle := hold _ current
    exact (Nat.le_of_add_le_add_right hle).trans hp
  | revoked current stands unconfirmed =>
    have hle := hold _ current
    exact (Nat.le_of_add_le_add_right hle).trans hp
  | confirm =>
    simp only [reduceCtorEq, if_false] at hnew
    omega
  | undo named =>
    simp only [reduceCtorEq, if_false] at hnew
    omega

theorem RoomChanges.rowsOf {p : String} (h : RoomChanges who s rows s') (hp : s.rowsOf p ≤ passClaimCap) :
    s'.rowsOf p ≤ passClaimCap :=
  h.preserves (fun hs hc => hc.rowsOf hs) hp

end Caps

section Messages

variable {m : Incoming}

/-- A room that started empty keeps every pass under its cap. -/
theorem runRoom_rowsOf (epoch : String) (revoked : List String) (ms : List Incoming) (p : String) :
    (runRoom (.empty epoch revoked) ms).rowsOf p ≤ passClaimCap := by
  have key : ∀ (ms : List Incoming) (s : RoomStore), s.rowsOf p ≤ passClaimCap →
      (runRoom s ms).rowsOf p ≤ passClaimCap := by
    intro ms
    induction ms with
    | nil => exact fun s hs => hs
    | cons m ms ih =>
      intro s hs
      obtain ⟨who, s₀, rows, hrows, hs₀, -⟩ := take_changes s m
      have hs₀ : s₀.rowsOf p = s.rowsOf p := by rcases hs₀ with rfl | ⟨q, rfl⟩ <;> rfl
      exact ih _ (hrows.rowsOf (by rwa [hs₀]))
  exact key ms _ (Nat.zero_le _)

/-- An item of a batch the room can make sense of. -/
def Json.wellFormed (now : Time) (item : Json) : Bool :=
  item.isObject && (uuid? (item.get "ticketId")).isSome &&
    match Json.text? (item.get "t") with
    | some "in" => (plausibleTime now (item.get "at")).isSome
    | some "undo" => true
    | _ => false

theorem batchItem_malformed {now : Time} {item : Json} (s : RoomStore)
    (h : item.wellFormed now = false) : batchItem now sender item s = none := by
  unfold batchItem
  by_cases ho : item.isObject
  swap
  · simp [ho]
  simp only [ho, Bool.not_true, Bool.false_eq_true, if_false]
  rcases hid : uuid? (item.get "ticketId") with _ | id
  · split
    · simp [claim, hid]
    · simp [unclaim, hid]
    · rfl
  · split
    · rename_i ht
      have hat : plausibleTime now (item.get "at") = none := by
        simpa [Json.wellFormed, ho, hid, ht] using h
      simp [claim, hid, hat]
    · rename_i ht
      simp [Json.wellFormed, ho, hid, ht] at h
    · rfl

theorem batch_filter (now : Time) (sender : Sender) : ∀ (items : List Json) (s : RoomStore),
    batch now sender (items.filter (·.wellFormed now)) s = batch now sender items s
  | [], _ => rfl
  | item :: items, s => by
    by_cases h : item.wellFormed now = true
    · rw [List.filter_cons_of_pos h]
      simp only [batch, batch_filter now sender items]
    · rw [List.filter_cons_of_neg h, batch_filter now sender items]
      simp only [batch, batchItem_malformed s (Bool.eq_false_iff.2 h)]

/-- What a message to the room may do, and no more. -/
structure RelayAuthority (s : RoomStore) (m : Incoming) : Prop where
  /-- A confirmed check-in stops standing only by the server's undo that names its time. -/
  confirmed : ∀ id r, standing (s.get id) = some r → r.confirmed = true →
    (take s m).2.Confirmed id ∨ ∃ body, ∃ t : Time, m = .server body ∧ body.undoes id t ∧ r.atMs = t
  /-- A phone leaves what is confirmed, or another pass's claim, exactly as it was. -/
  foreign : ∀ now sender raw, m = .phone now sender raw → ∀ id r,
    standing (s.get id) = some r → r.Foreign sender → (take s m).2.get id = some r
  /-- The claims of one pass stay under its cap. -/
  rowsOf : ∀ p, (take s m).2.rowsOf p ≤ passClaimCap
  /-- A phone never takes the room over its cap. -/
  count : ∀ now sender raw, m = .phone now sender raw → (take s m).2.count ≤ max s.count roomCap
  /-- A message that is rejected changes nothing. -/
  rejected : (∀ e, (take s m).1 ≠ some (.ok e)) → (take s m).2 = s
  /-- Nor does a malformed item of a batch. -/
  malformed : ∀ now sender raw items, m = .phone now sender raw → raw.batch? = some items →
    (take s m).2 = (batch now sender (items.filter (·.wellFormed now)) s).2.2

/-- Over every sequence of messages to a room. -/
theorem relay_authority (epoch : String) (revoked : List String) (ms : List Incoming)
    (m : Incoming) : RelayAuthority (runRoom (.empty epoch revoked) ms) m := by
  generalize hs : runRoom (.empty epoch revoked) ms = s
  have caps : ∀ p, s.rowsOf p ≤ passClaimCap := hs ▸ runRoom_rowsOf epoch revoked ms
  obtain ⟨who, s₀, rows, hrows, hs₀, hphone⟩ := take_changes s m
  refine ⟨fun id r hr hc => ?_, ?_, fun p => ?_, ?_, fun hrej => ?_, ?_⟩
  · rcases m with ⟨now, sender, raw⟩ | body
    · obtain ⟨rfl, rfl⟩ := hphone now sender raw rfl
      have hget := hrows.foreign hr (.inl hc)
      exact .inl ⟨r, standing_eq_some.2 ⟨hget, (standing_eq_some.1 hr).2⟩, hc⟩
    · rcases h : fromServer body s with _ | ⟨e, s'⟩
      · have hsame : (take s (.server body)).2 = s := by simp only [take, h]
        exact .inl ⟨r, by rw [hsame, hr], hc⟩
      · have hs' : (take s (.server body)).2 = s' := by simp only [take, h]
        rw [hs']
        refine (fromServer_confirmed h hr hc).imp_right ?_
        rintro ⟨t, ht⟩
        exact ⟨body, t, rfl, ht⟩
  · intro now sender raw hm id r hr hf
    obtain ⟨rfl, rfl⟩ := hphone now sender raw hm
    exact hrows.foreign hr hf
  · have hs₀ : s₀.rowsOf p = s.rowsOf p := by rcases hs₀ with rfl | ⟨q, rfl⟩ <;> rfl
    exact hrows.rowsOf (by rw [hs₀]; exact caps p)
  · intro now sender raw hm
    obtain ⟨rfl, rfl⟩ := hphone now sender raw hm
    exact hrows.count
  · rcases m with ⟨now, sender, raw⟩ | body
    · rcases h : fromPhone now sender raw s with ⟨reason | e, s'⟩
      · simp only [take, h, fromPhone_reject h]
      · exact absurd (by simp only [take, h]) (hrej e)
    · rcases h : fromServer body s with _ | ⟨e, s'⟩
      · simp only [take, h]
      · exact absurd (by simp only [take, h]) (hrej e)
  · intro now sender raw items hm hb
    subst hm
    simp only [take, fromPhone_of_batch hb, batch_filter]

end Messages

end EchoAndAura
