import EchoAndAura.EventRoom
import EchoAndAura.Proofs.Authority

/-!
# What is left of a revoked pass

A revocation takes back every claim of the pass (`serverRevoke_noClaims`), and no message but the
pass's own makes another.  So a run in which no message of the pass is taken any more neither keeps
nor sends a claim of it (`revoked_pass_silent`).
-/

namespace EchoAndAura

open room

variable {s s' : RoomStore} {who : Option Sender} {rows : List StoredCheckIn} {row : StoredCheckIn}
  {sender : Sender} {id p : String}

section Claims

/-- No unconfirmed claim of the pass stands. -/
def RoomStore.NoClaims (s : RoomStore) (p : String) : Prop :=
  ∀ id r, standing (s.get id) = some r → r.confirmed = false → r.passId ≠ some p

theorem noClaims_iff : s.NoClaims p ↔ s.claimsOf p = [] := by
  rw [List.eq_nil_iff_forall_not_mem]
  constructor
  · intro h r hr
    obtain ⟨hrow, hp, hun, hstands⟩ := RoomStore.mem_claimsOf.1 hr
    exact h _ r (standing_eq_some.2 ⟨RoomStore.get_of_mem hrow, hstands⟩) hun hp
  · intro h id r hr hun hp
    obtain ⟨hget, hstands⟩ := standing_eq_some.1 hr
    exact h r (RoomStore.mem_claimsOf.2 ⟨(RoomStore.get_eq_some.1 hget).1, hp, hun, hstands⟩)

/-- Only the pass itself makes a claim of it. -/
theorem RoomChange.noClaims (h : RoomChange s who row) (hw : ∀ sender, who = some sender → sender.passId ≠ p)
    (hs : s.NoClaims p) : (s.put row h.drawn).NoClaims p := by
  intro id r hr hun
  rw [RoomStore.get_put] at hr
  split_ifs at hr with hid
  · obtain ⟨hrow, hstands⟩ := standing_eq_some.1 hr
    obtain rfl := Option.some.inj hrow
    cases h with
    | claim =>
      intro hp
      exact hw _ rfl (Option.some.inj hp)
    | unclaim | revoked => cases hstands
    | confirm | undo => cases hun
  · exact hs id r hr hun

theorem RoomChanges.noClaims (h : RoomChanges who s rows s')
    (hw : ∀ sender, who = some sender → sender.passId ≠ p) (hs : s.NoClaims p) : s'.NoClaims p :=
  h.preserves (fun hs hc => hc.noClaims hw hs) hs

theorem RoomChanges.get_of_mem (h : RoomChanges who s rows s') (hid : id ∈ rows.map (·.ticketId)) :
    ∃ r ∈ rows, s'.get id = some r := by
  induction h with
  | nil => simp at hid
  | @cons s row rows s' first rest ih =>
    by_cases hrest : id ∈ rows.map (·.ticketId)
    · obtain ⟨r, hr, hget⟩ := ih hrest
      exact ⟨r, List.mem_cons_of_mem _ hr, hget⟩
    · have hrow : id = row.ticketId := by simpa [hrest] using hid
      refine ⟨row, by simp, ?_⟩
      rw [rest.get_of_notMem hrest, RoomStore.get_put, if_pos hrow]

/-- The revocation of a pass takes all its claims back. -/
theorem serverRevoke_noClaims (p : String) (until_ : Option Time) (s : RoomStore) :
    (serverRevoke p until_ s).2.NoClaims p := by
  obtain ⟨tombs, htombs, hids, hgate, -⟩ := serverRevoke_changes p until_ s
  intro id r hr hun hp
  obtain ⟨hget, hstands⟩ := standing_eq_some.1 hr
  by_cases hid : id ∈ tombs.map (·.ticketId)
  · obtain ⟨t, ht, hget'⟩ := htombs.get_of_mem hid
    obtain rfl := Option.some.inj (hget'.symm.trans hget)
    simp [hgate _ ht] at hstands
  · rw [htombs.get_of_notMem hid, RoomStore.revoke_get] at hget
    obtain ⟨hmem, rfl⟩ := RoomStore.get_eq_some.1 hget
    refine hid (hids ▸ ?_)
    exact List.mem_map_of_mem (RoomStore.mem_claimsOf.2 ⟨hmem, hp, hun, hstands⟩)

theorem RoomChanges.revoked (h : RoomChanges who s rows s') : s'.revoked = s.revoked :=
  h.preserves (P := fun s₁ => s₁.revoked = s.revoked) (fun hs _ => hs) rfl

theorem isRevoked_revoke (h : s.isRevoked p = true) (q : String) :
    (s.revoke q).isRevoked p = true := by
  unfold RoomStore.revoke RoomStore.isRevoked at *
  split_ifs
  · exact h
  · simpa using .inr (by simpa using h)

theorem revoke_isRevoked (s : RoomStore) (p : String) : (s.revoke p).isRevoked p = true := by
  unfold RoomStore.revoke
  split_ifs with h
  · exact h
  · simp [RoomStore.isRevoked]

end Claims

section Sending

/-- No row of the message is a claim of the pass: each unconfirmed row belongs to another. -/
def RoomMessage.FreeOf (m : RoomMessage) (p : String) (s : RoomStore) : Prop :=
  ∀ r ∈ m.rows, r.confirmed = false →
    ∃ row, s.get r.ticketId = some row ∧ row.passId ≠ some p

theorem mem_rows_announce {m : RoomMessage} {r : RoomCheckIn} (hm : m ∈ rows.map announce)
    (hr : r ∈ m.rows) : ∃ row ∈ rows, row.removed = none ∧ r = wire row := by
  obtain ⟨row, hrow, rfl⟩ := List.mem_map.1 hm
  refine ⟨row, hrow, ?_⟩
  unfold announce at hr
  split_ifs at hr with h
  · simp [undoMessage, RoomMessage.rows] at hr
  · exact ⟨by simpa using h, by simpa [RoomMessage.rows] using hr⟩

theorem mem_rows_merge {ms : List RoomMessage} {m : RoomMessage} {r : RoomCheckIn}
    (hm : m ∈ merge ms) (hr : r ∈ m.rows) : ∃ m' ∈ ms, r ∈ m'.rows := by
  unfold merge at hm
  rcases List.mem_append.1 hm with hm | hm
  · split_ifs at hm
    · simp at hm
    · obtain rfl := List.mem_singleton.1 hm
      exact List.mem_flatMap.1 hr
  · exact ⟨m, (List.mem_filter.1 hm).1, hr⟩

/-- Every row a phone's message changes is left to that phone's pass. -/
theorem RoomChanges.owner (h : RoomChanges (some sender) s rows s') :
    ∀ row ∈ rows, ∃ r, s'.get row.ticketId = some r ∧ r.passId = some sender.passId := by
  have mine : ∀ row ∈ rows, row.passId = some sender.passId := by
    induction h with
    | nil => simp
    | cons first _ ih =>
      intro row hrow
      rcases List.mem_cons.1 hrow with rfl | hrow
      · cases first with
        | claim => rfl
        | unclaim current stands unconfirmed own => exact own
      · exact ih row hrow
  intro row hrow
  obtain ⟨r, hr, hget⟩ := h.get_of_mem (List.mem_map_of_mem hrow)
  exact ⟨r, hget, mine r hr⟩

/-- The server broadcasts confirmed rows alone. -/
theorem RoomChanges.confirms (h : RoomChanges none s rows s') :
    ∀ row ∈ rows, row.removed = none → row.confirmed = true := by
  induction h with
  | nil => simp
  | cons first _ ih =>
    intro row hrow hin
    rcases List.mem_cons.1 hrow with rfl | hrow
    · cases first with
      | confirm | undo => rfl
      | revoked => cases hin
    · exact ih row hrow hin

theorem fromPhone_freeOf {now : Time} {raw : Raw} {e : RoomEffect}
    (h : fromPhone now sender raw s = (.ok e, s')) (hp : sender.passId ≠ p) :
    ∀ m ∈ e.broadcast, m.FreeOf p s' := by
  obtain ⟨rows, hrows, hcast⟩ := fromPhone_changes h
  intro m hm r hr _
  obtain ⟨m', hm', hr'⟩ := mem_rows_merge (hcast ▸ hm) hr
  obtain ⟨row, hrow, -, rfl⟩ := mem_rows_announce hm' hr'
  obtain ⟨r', hget, hown⟩ := hrows.owner row hrow
  exact ⟨r', hget, fun he => hp (Option.some.inj (hown.symm.trans he))⟩

theorem fromServer_freeOf {body : Json} {e : RoomEffect} (h : fromServer body s = some (e, s')) :
    ∀ m ∈ e.broadcast, m.FreeOf p s' := by
  obtain ⟨s₀, rows, -, hrows, hcast⟩ := fromServer_changes h
  intro m hm r hr hun
  obtain ⟨row, hrow, hin, rfl⟩ := mem_rows_announce (hcast ▸ hm) hr
  have hconf : row.confirmed = true := hrows.confirms row hrow hin
  simp [wire, hconf] at hun

theorem pages_rows (s : RoomStore) : ∀ (fuel cursor : Nat) {m : RoomMessage} {r : RoomCheckIn},
    m ∈ pages s cursor fuel → r ∈ m.rows → ∃ row ∈ s.rows, row.removed = none ∧ r = wire row
  | 0, _, m, r, hm, _ => by simp [pages] at hm
  | fuel + 1, cursor, m, r, hm, hr => by
    simp only [pages] at hm
    split at hm
    · simp at hm
    · rcases List.mem_append.1 hm with hm | hm
      · rcases List.mem_append.1 hm with hm | hm
        · split_ifs at hm
          · simp at hm
          · obtain rfl := List.mem_singleton.1 hm
            obtain ⟨row, hrow, rfl⟩ := List.mem_map.1 hr
            obtain ⟨hpage, hin⟩ := List.mem_filter.1 hrow
            have hafter := List.mem_of_mem_take hpage
            rw [List.mem_mergeSort] at hafter
            exact ⟨row, (List.mem_filter.1 hafter).1, by simpa using hin, rfl⟩
        · obtain ⟨row, -, rfl⟩ := List.mem_map.1 hm
          simp [undoMessage, RoomMessage.rows] at hr
      · split_ifs at hm
        · simp at hm
        · exact pages_rows s fuel _ hm hr

/-- A catch-up of a room without claims of the pass carries none. -/
theorem backlog_freeOf {after : Nat} {epoch : Option String} (hs : s.NoClaims p) :
    ∀ m ∈ backlog after epoch s, m.FreeOf p s := by
  intro m hm r hr hun
  rcases List.mem_cons.1 hm with rfl | hm
  · simp [RoomMessage.rows] at hr
  · obtain ⟨row, hrow, hin, rfl⟩ := pages_rows s _ _ hm hr
    have hget := RoomStore.get_of_mem hrow
    exact ⟨row, hget, hs _ row (standing_eq_some.2 ⟨hget, hin⟩) hun⟩

end Sending

section Runs

variable {e : EventRoom} {ev : RelayEvent}

theorem EventRoom.apply_store (e : EventRoom) (now : Time) (ws : Option Nat) (a : RoomAction) :
    (e.apply now ws a).1.store = e.store := by
  cases a <;> rfl

theorem EventRoom.apply_sent {now : Time} {ws : Option Nat} {effect : RoomEffect} {x : Sent}
    (h : x ∈ (e.apply now ws (.ok effect)).2) : x.2 ∈ effect.broadcast := by
  obtain ⟨m, hm, hx⟩ := List.mem_flatMap.1 h
  obtain ⟨s, -, rfl⟩ := List.mem_map.1 hx
  exact hm

theorem EventRoom.withinRate_store (e : EventRoom) (now : Time) (q : String) :
    (e.withinRate now q).2.store = e.store := by
  unfold EventRoom.withinRate
  split
  · split_ifs <;> rfl
  · rfl

/-- No message is taken from a socket of the pass. -/
def RelayEvent.FromOthers (p : String) (e : EventRoom) : RelayEvent → Prop
  | .message _ ws _ => ((e.socket ws).all (·.who.passId != p)) = true
  | _ => True

/-- The pass is revoked, and nothing is left of its claims. -/
structure EventRoom.Rid (e : EventRoom) (p : String) : Prop where
  revoked : e.store.isRevoked p = true
  noClaims : e.store.NoClaims p

theorem EventRoom.Rid.of_store {e e' : EventRoom} (h : e.Rid p) (hs : e'.store = e.store) : e'.Rid p :=
  ⟨hs ▸ h.revoked, hs ▸ h.noClaims⟩

theorem fromServer_rid {body : Json} {effect : RoomEffect} (h : fromServer body s = some (effect, s'))
    (hr : s.isRevoked p = true) (hs : s.NoClaims p) : s'.isRevoked p = true ∧ s'.NoClaims p := by
  have chain : ∀ {s₀ rows}, RoomChanges none s₀ rows s' → s₀.isRevoked p = true → s₀.NoClaims p →
      s'.isRevoked p = true ∧ s'.NoClaims p := by
    intro s₀ rows hrows hr hs
    refine ⟨?_, hrows.noClaims (by simp) hs⟩
    rw [RoomStore.isRevoked, hrows.revoked]
    exact hr
  rcases fromServer_cases h with ⟨q, until_, -, he⟩ | ⟨i, t, gate, he⟩ | ⟨i, t, -, he⟩
  · obtain ⟨tombs, htombs, -⟩ := serverRevoke_changes q until_ s
    obtain rfl : s' = (serverRevoke q until_ s).2 := congrArg Prod.snd he
    exact chain htombs (isRevoked_revoke hr q) hs
  · obtain ⟨change, hchange, -⟩ := serverIn_changes i t gate s
    obtain rfl : s' = (serverIn i t gate s).2 := congrArg Prod.snd he
    exact chain hchange hr hs
  · obtain ⟨change, hchange, -⟩ := serverUndo_changes i t s
    obtain rfl : s' = (serverUndo i t s).2 := congrArg Prod.snd he
    exact chain hchange hr hs

/-- One event keeps a revoked pass out of the room and of everything it sends. -/
theorem EventRoom.Rid.step (h : e.Rid p) (hev : ev.FromOthers p e) :
    (e.step ev).1.Rid p ∧ ∀ x ∈ (e.step ev).2, x.2.FreeOf p (e.step ev).1.store := by
  cases ev with
  | connect passId gate exp after epoch =>
    simp only [EventRoom.step, EventRoom.fetch]
    split_ifs
    · exact ⟨h, by simp⟩
    · exact ⟨h, by simp⟩
    · refine ⟨h.of_store rfl, fun x hx => ?_⟩
      obtain ⟨m, hm, rfl⟩ := List.mem_map.1 hx
      exact backlog_freeOf h.noClaims m hm
  | message now ws message =>
    simp only [EventRoom.step, EventRoom.webSocketMessage]
    split
    · exact ⟨h, by simp⟩
    rename_i sock hsock
    have hvalid : sock.who.passId ≠ p := by
      rintro rfl
      simp [RelayEvent.FromOthers, hsock] at hev
    split
    · exact ⟨h.of_store rfl, by simp⟩
    split
    · exact ⟨h.of_store rfl, by simp⟩
    rename_i raw
    have hstore := e.withinRate_store now sock.who.passId
    split
    · exact ⟨h.of_store hstore, by simp⟩
    rw [hstore]
    rcases hf : fromPhone now ⟨sock.who.passId, sock.who.gate⟩ raw e.store with ⟨reason | effect, s'⟩
    · rw [fromPhone_reject hf]
      exact ⟨h.of_store rfl, by simp [EventRoom.apply]⟩
    · obtain ⟨rows, hrows, -⟩ := fromPhone_changes hf
      dsimp only
      rw [EventRoom.apply_store]
      refine ⟨⟨?_, ?_⟩, fun x hx => fromPhone_freeOf hf hvalid _ (EventRoom.apply_sent hx)⟩
      · rw [EventRoom.apply_store, RoomStore.isRevoked, hrows.revoked]
        exact h.revoked
      · rw [EventRoom.apply_store]
        refine hrows.noClaims (fun sender hs => ?_) h.noClaims
        obtain rfl := Option.some.inj hs
        exact hvalid
  | announce now body =>
    simp only [EventRoom.step, EventRoom.announce]
    split
    · exact ⟨h, by simp⟩
    · rename_i effect s' hf
      obtain ⟨hr, hn⟩ := fromServer_rid hf h.revoked h.noClaims
      rw [EventRoom.apply_store]
      refine ⟨⟨?_, ?_⟩, fun x hx => fromServer_freeOf hf _ (EventRoom.apply_sent hx)⟩
      · rw [EventRoom.apply_store]
        exact hr
      · rw [EventRoom.apply_store]
        exact hn
  | closed ws => exact ⟨h.of_store rfl, by simp [EventRoom.step]⟩

/-- Each message of the run is taken from a socket of another pass. -/
def FromOthers (p : String) : EventRoom → List RelayEvent → Prop
  | _, [] => True
  | e, ev :: evs => ev.FromOthers p e ∧ FromOthers p (e.step ev).1 evs

/-- No state of the run holds a claim of the pass, and nothing sent in it carries one. -/
def Silent (p : String) : EventRoom → List RelayEvent → Prop
  | e, [] => e.store.claimsOf p = []
  | e, ev :: evs => e.store.claimsOf p = [] ∧
      (∀ x ∈ (e.step ev).2, x.2.FreeOf p (e.step ev).1.store) ∧ Silent p (e.step ev).1 evs

theorem EventRoom.Rid.silent : ∀ {e : EventRoom} {evs : List RelayEvent}, e.Rid p →
    FromOthers p e evs → Silent p e evs
  | _, [], h, _ => noClaims_iff.1 h.noClaims
  | _, _ :: _, h, hv => by
    obtain ⟨hnext, hsent⟩ := h.step hv.1
    exact ⟨noClaims_iff.1 h.noClaims, hsent, hnext.silent hv.2⟩

theorem rid_of_revokes {body : Json} (h : body.revokes p) (e : EventRoom) (now : Time) :
    (e.step (.announce now body)).1.Rid p := by
  obtain ⟨ho, hk, hp⟩ := h
  have hf : fromServer body e.store = some (serverRevoke p (Json.date? (body.get "until")) e.store) := by
    simp [fromServer, ho, hk, hp]
  obtain ⟨tombs, htombs, -⟩ := serverRevoke_changes p (Json.date? (body.get "until")) e.store
  have hstore : (e.step (.announce now body)).1.store =
      (serverRevoke p (Json.date? (body.get "until")) e.store).2 := by
    simp only [EventRoom.step, EventRoom.announce, hf]
    rw [EventRoom.apply_store]
  refine ⟨?_, ?_⟩
  · rw [hstore, RoomStore.isRevoked, htombs.revoked]
    exact revoke_isRevoked e.store p
  · rw [hstore]
    exact serverRevoke_noClaims p _ e.store

/-- From the server's revocation of a pass on, whatever state it found, as long as no message of the
pass's own sockets is taken. -/
theorem revoked_pass_silent (e : EventRoom) (now : Time) (body : Json) (p : String)
    (evs : List RelayEvent) (h : body.revokes p)
    (hothers : FromOthers p (e.step (.announce now body)).1 evs) :
    Silent p (e.step (.announce now body)).1 evs :=
  (rid_of_revokes h e now).silent hothers

/-- A gate's claim of a ticket. -/
def claimOf (ticketId : String) (at_ : ℚ) : Raw where
  length := 70
  json := some (.object [("t", .string "in"), ("ticketId", .string ticketId), ("at", .number at_)])

def revokeBody : Json :=
  .object [("kind", .string "revoke"), ("passId", .string "22222222-2222-4222-8222-222222222222"),
    ("until", .string "1970-01-01T05:00:00.000Z" (some 18000000))]

/-- Two gates are in the room, the second with a pass about to be revoked. -/
def twoGates : EventRoom :=
  (EventRoom.empty (.empty "epoch-1" [])).run [
    .connect "33333333-3333-4333-8333-333333333333" "Gate A" 18000 0 none,
    .connect "22222222-2222-4222-8222-222222222222" "Gate B" 18000 0 none]

theorem revoked_pass_silent_otherGate :
    Silent "22222222-2222-4222-8222-222222222222" (twoGates.step (.announce 2000 revokeBody)).1
      [.message 3000 0 (some (claimOf "11111111-1111-4111-8111-111111111111" 3000))] :=
  revoked_pass_silent twoGates 2000 revokeBody "22222222-2222-4222-8222-222222222222"
    [.message 3000 0 (some (claimOf "11111111-1111-4111-8111-111111111111" 3000))]
    ⟨by decide +kernel, by decide +kernel, by decide +kernel⟩
    ⟨by unfold RelayEvent.FromOthers; decide +kernel, trivial⟩

/-- A claim the revoked gate sent before its socket closed stands in the room after all. -/
theorem revoked_pass_speaks : ¬ ∀ (e : EventRoom) (now : Time) (body : Json) (p : String)
    (evs : List RelayEvent), body.revokes p → Silent p (e.step (.announce now body)).1 evs := by
  intro h
  have hsilent := h twoGates 2000 revokeBody "22222222-2222-4222-8222-222222222222"
    [.message 3000 1 (some (claimOf "11111111-1111-4111-8111-111111111111" 1000))]
    ⟨by decide +kernel, by decide +kernel, by decide +kernel⟩
  exact absurd hsilent.2.2 (by unfold Silent; decide +kernel)

end Runs

end EchoAndAura
