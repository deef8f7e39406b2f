import EchoAndAura.LinkedPhone
import EchoAndAura.Stepwise
import EchoAndAura.Proofs.Race
import EchoAndAura.Proofs.RelayLink

/-!
# What comes back after an undo

The last message about a ticket that is on its way tells how the room has the ticket, but for what
the phone's own pass put (`OnItsWay`).  So a phone that took back its admit of a ticket stays
without a mark for it, unless another's row stands (`Undone`), as long as no message tells it of its
own claim.  The catch-up can, though: it is sent before the room has the undo that the phone sends
again.
-/

namespace EchoAndAura

open room

section Rows

variable {who : Sender} {s s' : RoomStore} {T : String} {row r : StoredCheckIn}
  {rows : List StoredCheckIn} {m : Incoming}

/-- A check-in of the server stands for the ticket, or a claim of another gate. -/
def RoomStore.Others (s : RoomStore) (gate T : String) : Prop :=
  ∃ r, standing (s.get T) = some r ∧ (r.confirmed = true ∨ r.gate ≠ some gate)

/-- A claim under the gate's own name. -/
def RoomCheckIn.OwnClaim (gate : String) (row : RoomCheckIn) : Prop :=
  row.confirmed = false ∧ row.gate = some gate

instance RoomCheckIn.decidableOwnClaim (gate : String) (row : RoomCheckIn) :
    Decidable (row.OwnClaim gate) :=
  inferInstanceAs (Decidable (row.confirmed = false ∧ row.gate = some gate))

/-- The unconfirmed rows of a pass carry its gate's name. -/
def RoomStore.Labelled (s : RoomStore) (who : Sender) : Prop :=
  ∀ r ∈ s.rows, r.passId = some who.passId → r.confirmed = false → r.gate = some who.gate

/-- The pass sends under one gate's name. -/
def Sender.OneName (who sender : Sender) : Prop :=
  sender.passId = who.passId → sender.gate = who.gate

theorem others_of_get (h : s'.get T = s.get T) {gate : String} :
    s'.Others gate T ↔ s.Others gate T := by
  unfold RoomStore.Others
  rw [h]

theorem others_or_own {gate : String} {w : RoomCheckIn} (h : s.replica T = some w) :
    s.Others gate T ∨ w.OwnClaim gate := by
  obtain ⟨r, hr, rfl⟩ := Option.map_eq_some_iff.1 h
  by_cases hother : r.confirmed = true ∨ r.gate ≠ some gate
  · exact .inl ⟨r, hr, hother⟩
  · rw [not_or, not_not, Bool.not_eq_true] at hother
    exact .inr hother

theorem RoomChange.labelled {author : Option Sender} (h : RoomChange s author row)
    (hname : ∀ sender, author = some sender → who.OneName sender) (hs : s.Labelled who) :
    (s.put row h.drawn).Labelled who := by
  intro r hr hpass hunconfirmed
  rcases RoomStore.mem_put.1 hr with ⟨hr, -⟩ | rfl
  · exact hs r hr hpass hunconfirmed
  · cases h with
    | claim =>
      rename_i sender _ _ _ _ _
      exact congrArg some (hname sender rfl (Option.some.inj hpass))
    | unclaim current =>
      have hgate := hs _ (RoomStore.get_eq_some.1 current).1 hpass hunconfirmed
      exact hgate
    | revoked current =>
      have hgate := hs _ (RoomStore.get_eq_some.1 current).1 hpass hunconfirmed
      exact hgate
    | confirm => cases hpass
    | undo => cases hpass

/-- What the phone's own pass changes is none of the others' rows. -/
theorem RoomChange.others (h : RoomChange s (some who) row) (hs : s.Labelled who)
    (ho : s.Others who.gate T) : (s.put row h.drawn).Others who.gate T := by
  obtain ⟨r, hr, hother⟩ := ho
  have hget := (standing_eq_some.1 hr).1
  by_cases hid : T = row.ticketId
  · subst hid
    cases h with
    | claim out =>
      rw [out] at hr
      cases hr
    | unclaim current stands unconfirmed own =>
      obtain rfl := Option.some.inj (hget.symm.trans current)
      rcases hother with hconfirmed | hgate
      · rw [unconfirmed] at hconfirmed
        cases hconfirmed
      · exact absurd (hs _ (RoomStore.get_eq_some.1 current).1 own unconfirmed) hgate
  · refine ⟨r, ?_, hother⟩
    rw [RoomStore.get_put, if_neg hid]
    exact hr

/-- What the room is sent on the phone's socket, or on another of its pass. -/
def Incoming.OneName (who : Sender) : Incoming → Prop
  | .phone _ sender _ => who.OneName sender
  | .server _ => True

theorem take_labelled (hs : s.Labelled who) (hm : m.OneName who) : (take s m).2.Labelled who := by
  rcases m with ⟨now, sender, raw⟩ | body
  · rcases hp : fromPhone now sender raw s with ⟨reason | effect, s'⟩
    · simp only [take, hp, fromPhone_reject hp]
      exact hs
    · obtain ⟨rows, hrows, -⟩ := fromPhone_changes hp
      simp only [take, hp]
      refine hrows.preserves (fun hs h => h.labelled ?_ hs) hs
      rintro _ ⟨⟩
      exact hm
  · rcases hb : fromServer body s with _ | ⟨effect, s'⟩
    · simp only [take, hb]
      exact hs
    · obtain ⟨s₀, rows, hs₀, hrows, -⟩ := fromServer_changes hb
      have hstart : s₀.Labelled who := by
        rcases hs₀ with rfl | ⟨p, rfl⟩ <;> exact hs
      simp only [take, hb]
      exact hrows.preserves (fun hs h => h.labelled (fun _ hnone => by cases hnone) hs) hstart

/-- On its own socket a phone changes none of the others' rows. -/
theorem take_own {now : Time} {raw : Raw} (hs : s.Labelled who) (ho : s.Others who.gate T) :
    (take s (.phone now who raw)).2.Others who.gate T := by
  rcases hp : fromPhone now who raw s with ⟨reason | effect, s'⟩
  · simp only [take, hp, fromPhone_reject hp]
    exact ho
  · obtain ⟨rows, hrows, -⟩ := fromPhone_changes hp
    simp only [take, hp]
    refine (hrows.preserves (P := fun s => s.Labelled who ∧ s.Others who.gate T)
      (fun h hc => ⟨hc.labelled ?_ h.1, hc.others h.1 h.2⟩) ⟨hs, ho⟩).2
    rintro _ ⟨⟩
    exact fun _ => rfl

/-- A row of a chain is the ticket's row at its end, or was followed by one with a later number. -/
theorem RoomChanges.current {author : Option Sender} (h : RoomChanges author s rows s') :
    ∀ row ∈ rows, ∃ r, s'.get row.ticketId = some r ∧ row.seq ≤ r.seq := by
  induction h with
  | nil => simp
  | cons first rest ih =>
    rename_i s row rows s'
    rw [List.forall_mem_cons]
    refine ⟨?_, ih⟩
    rcases rest.movedOn.changed row.ticketId with hsame | ⟨r, hr, hlt⟩
    · refine ⟨row, ?_, le_rfl⟩
      rw [hsame, RoomStore.get_put, if_pos rfl]
    · refine ⟨r, hr, ?_⟩
      rw [first.drawn]
      exact Nat.le_of_lt hlt

/-- What the room sends of a step tells no ticket past its row. -/
theorem sent_current (s : RoomStore) (m : Incoming) :
    ∀ e ∈ entries (LinkEvent.sent s (.other m)),
      ∃ r, (take s m).2.get e.1 = some r ∧ e.2 ≤ r.seq := by
  rcases m with ⟨now, sender, raw⟩ | body
  · rcases hp : fromPhone now sender raw s with ⟨reason | effect, s'⟩
    · simp only [LinkEvent.sent, LinkEvent.incoming, take, hp]
      exact fun e he => (List.not_mem_nil he).elim
    · obtain ⟨rows, hrows, hcast⟩ := fromPhone_changes hp
      simp only [LinkEvent.sent, LinkEvent.incoming, take, hp, hcast]
      intro e he
      obtain ⟨r, hr, rfl⟩ := mem_of_entries_merge he
      exact hrows.current r hr
  · rcases hb : fromServer body s with _ | ⟨effect, s'⟩
    · simp only [LinkEvent.sent, LinkEvent.incoming, take, hb]
      exact fun e he => (List.not_mem_nil he).elim
    · obtain ⟨s₀, rows, -, hrows, hcast⟩ := fromServer_changes hb
      simp only [LinkEvent.sent, LinkEvent.incoming, take, hb, hcast, entries_map_announce]
      intro e he
      obtain ⟨r, hr, rfl⟩ := List.mem_map.1 he
      exact hrows.current r hr

end Rows

section Words

variable {id : String} {v v' : Replica} {m : RoomMessage} {s : RoomStore}

theorem setRows_told : ∀ {rows : List RoomCheckIn}, id ∈ rows.map (·.ticketId) →
    ∃ row ∈ rows, row.ticketId = id ∧ ∀ v : Replica, v.setRows rows id = some row
  | [], h => by cases h
  | row :: rows, h => by
    by_cases hlater : id ∈ rows.map (·.ticketId)
    · obtain ⟨row', hmem, hid, hset⟩ := setRows_told hlater
      exact ⟨row', List.mem_cons_of_mem _ hmem, hid, fun v => hset (v.setRows [row])⟩
    · rcases List.mem_cons.1 h with rfl | h
      · exact ⟨row, List.mem_cons_self, rfl, fun v =>
          (setRows_notMem hlater).trans (Function.update_self _ _ _)⟩
      · exact absurd h hlater

/-- What a message says of a ticket does not depend on what was known. -/
theorem apply_told (h : id ∈ m.entries.map (·.1)) : v.apply m id = v'.apply m id := by
  cases m with
  | hello _ _ => cases h
  | checkins rows =>
    rw [RoomMessage.entries, List.map_map] at h
    obtain ⟨row, -, -, hset⟩ := setRows_told h
    exact (hset v).trans (hset v').symm
  | undo ticketId by_ at_ seq =>
    obtain rfl := List.mem_singleton.1 h
    have hgone : ∀ v : Replica, v.apply (.undo id by_ at_ seq) id = none :=
      fun v => Function.update_self _ _ _
    exact (hgone v).trans (hgone v').symm

theorem applyAll_told : ∀ {ms : List RoomMessage} {v v' : Replica},
    id ∈ (entries ms).map (·.1) → v.applyAll ms id = v'.applyAll ms id
  | [], _, _, h => by cases h
  | m :: ms, v, v', h => by
    by_cases hlater : id ∈ (entries ms).map (·.1)
    · have htail : (v.apply m).applyAll ms id = (v'.apply m).applyAll ms id := applyAll_told hlater
      exact htail
    · rw [entries, List.flatMap_cons, List.map_append, List.mem_append] at h
      have hm := h.resolve_right hlater
      exact (applyAll_notMem hlater).trans ((apply_told hm).trans (applyAll_notMem hlater).symm)

theorem onmessage_epoch_checkins : ∀ (rows : List RoomCheckIn) (l : RelayLink),
    (l.onmessage (.checkins rows)).epoch = l.epoch
  | [], _ => rfl
  | row :: rows, l => by
    have hseen : (l.seen row.seq).epoch = l.epoch := by
      unfold RelayLink.seen
      split_ifs <;> rfl
    exact (onmessage_epoch_checkins rows (l.seen row.seq)).trans hseen

theorem cursor_onmessage {l : RelayLink} {b : Nat} (hl : l.cursor s ≤ b)
    (hm : ∀ e ∈ m.entries, e.2 ≤ b) : (l.onmessage m).cursor s ≤ b := by
  have hheard : l.epoch = s.epoch → l.heard ≤ b := fun h => by
    unfold RelayLink.cursor at hl
    rwa [if_pos h] at hl
  unfold RelayLink.cursor
  split_ifs with h
  swap
  · exact Nat.zero_le _
  cases m with
  | hello epoch top =>
    show (if epoch ≠ l.epoch then 0 else l.heard) ≤ b
    split_ifs with hne
    · exact Nat.zero_le _
    · exact hheard ((not_not.1 hne).symm.trans h)
  | checkins rows =>
    rw [onmessage_epoch_checkins] at h
    exact onmessage_le (hheard h) hm
  | undo ticketId by_ at_ seq =>
    refine onmessage_le (hheard ?_) hm
    rw [← h]
    show l.epoch = (l.seen seq).epoch
    unfold RelayLink.seen
    split_ifs <;> rfl

end Words

section OnTheWay

variable {who : Sender} {T : String} {g : LinkedPhone}

/-- The room broadcasts in order, and the phone's pass sends under one gate's name. -/
def LinkedEvent.Proper (who : Sender) (g : LinkedPhone) : LinkedEvent → Prop
  | .other m => Orderly g.room m ∧ m.OneName who
  | _ => True

/-- The messages on their way tell no ticket past its row, and the last of them on the ticket tells
how the room has it, but for what the phone's own pass put. -/
structure LinkedPhone.OnItsWay (who : Sender) (T : String) (g : LinkedPhone) : Prop where
  labelled : g.room.Labelled who
  below : g.link.cursor g.room ≤ g.room.seq
  idle : g.socket = .none → g.down = []
  current : ∀ e ∈ entries g.down, ∃ r, g.room.get e.1 = some r ∧ e.2 ≤ r.seq
  last : T ∈ (entries g.down).map (·.1) → ∀ (v : Replica) w, v.applyAll g.down T = some w →
    g.room.Others who.gate T ∨ w.OwnClaim who.gate

theorem onItsWay_start (phone : Phone String) (epoch : String) (revoked : List String) :
    (LinkedPhone.start phone (.empty epoch revoked)).OnItsWay who T where
  labelled r hr := by cases hr
  below := by
    unfold RelayLink.cursor
    split_ifs <;> exact Nat.zero_le _
  idle _ := rfl
  current e he := by cases he
  last hmem := by cases hmem

theorem LinkedPhone.OnItsWay.stretch (h : g.OnItsWay who T) (e : PhoneEvent String) :
    (g.stretch e).OnItsWay who T := ⟨h.labelled, h.below, h.idle, h.current, h.last⟩

theorem LinkedPhone.OnItsWay.bounded (h : g.OnItsWay who T) :
    ∀ e ∈ entries g.down, e.2 ≤ g.room.seq := fun e he => by
  obtain ⟨r, hr, hle⟩ := h.current e he
  exact hle.trans (RoomStore.seq_le_of_get hr)

theorem current_movedOn {s s' : RoomStore} {down : List RoomMessage}
    (h : ∀ e ∈ entries down, ∃ r, s.get e.1 = some r ∧ e.2 ≤ r.seq) (hm : MovedOn s s') :
    ∀ e ∈ entries down, ∃ r, s'.get e.1 = some r ∧ e.2 ≤ r.seq := fun e he => by
  obtain ⟨r, hr, hle⟩ := h e he
  rcases hm.changed e.1 with hsame | ⟨r', hr', hlt⟩
  · exact ⟨r, hsame.trans hr, hle⟩
  · exact ⟨r', hr', (hle.trans (RoomStore.seq_le_of_get hr)).trans hlt.le⟩

theorem entries_cons (m : RoomMessage) (ms : List RoomMessage) :
    entries (m :: ms) = m.entries ++ entries ms := List.flatMap_cons

theorem LinkedPhone.OnItsWay.hear (h : g.OnItsWay who T) {m : RoomMessage}
    {down : List RoomMessage} (hdown : g.down = m :: down) (now : Time) :
    ({ g with down }.hear now m).OnItsWay who T := by
  have hlink : ({ g with down, link := g.link.onmessage m } : LinkedPhone).OnItsWay who T := by
    have hbounded := h.bounded
    have hcurrent := h.current
    rw [hdown, entries_cons] at hbounded hcurrent
    refine ⟨h.labelled, cursor_onmessage h.below fun e he =>
      hbounded e (List.mem_append_left _ he), fun hnone => ?_,
      fun e he => hcurrent e (List.mem_append_right _ he), fun hmem v w hw => ?_⟩
    · have hnil := h.idle hnone
      rw [hdown] at hnil
      cases hnil
    · refine h.last ?_ v w ?_
      · rw [hdown, entries_cons, List.map_append]
        exact List.mem_append_right _ hmem
      · rw [hdown, ← hw]
        exact applyAll_told hmem
  unfold LinkedPhone.hear
  dsimp only
  split
  · exact hlink.stretch _
  · exact hlink

theorem LinkedPhone.OnItsWay.connect (h : g.OnItsWay who T) :
    (g.step who .connect).OnItsWay who T := by
  unfold LinkedPhone.step
  dsimp only
  split_ifs
  · obtain ⟨hcurrent, -⟩ := backlog_current g.room g.link.heard
      (if g.link.epoch = "" then none else some g.link.epoch)
    refine ⟨h.labelled, h.below, fun hnone => (by cases hnone), fun e he => ?_,
      fun hmem v w hw => others_or_own ?_⟩
    · obtain ⟨m, hm, he⟩ := List.mem_flatMap.1 he
      obtain ⟨⟨r, hr, hseq⟩, -⟩ := hcurrent m hm e he
      exact ⟨r, hr, hseq.ge⟩
    · rw [← hw]
      exact (applyAll_current hcurrent hmem).symm
  · exact h

theorem LinkedPhone.OnItsWay.arrive (h : g.OnItsWay who T) (now : Time) (length : Nat) :
    (g.step who (.arrive now length)).OnItsWay who T := by
  unfold LinkedPhone.step
  dsimp only
  split
  · exact h
  · next json up _ =>
    have hmoved := take_movedOn g.room (.phone now who ⟨length, some json⟩)
    refine ⟨take_labelled h.labelled fun _ => rfl, ?_, h.idle, current_movedOn h.current hmoved,
      fun hmem v w hw => (h.last hmem v w hw).imp_left (take_own h.labelled)⟩
    show g.link.cursor _ ≤ _
    rw [cursor_movedOn hmoved]
    exact h.below.trans hmoved.top

/-- A message that comes on another socket changes the ticket and is told, or leaves it alone. -/
theorem LinkedPhone.OnItsWay.other (h : g.OnItsWay who T) {m : Incoming}
    (hm : Orderly g.room m ∧ m.OneName who) : (g.step who (.other m)).OnItsWay who T := by
  have hmoved := take_movedOn g.room m
  have hlabelled := take_labelled h.labelled hm.2
  have hbelow : g.link.cursor (take g.room m).2 ≤ (take g.room m).2.seq := by
    rw [cursor_movedOn hmoved]
    exact h.below.trans hmoved.top
  have hcurrent := current_movedOn h.current hmoved
  unfold LinkedPhone.step
  dsimp only
  split_ifs with hsocket
  · refine ⟨hlabelled, hbelow, h.idle, hcurrent, fun hmem => ?_⟩
    dsimp only at hmem
    rw [h.idle hsocket] at hmem
    cases hmem
  · refine ⟨hlabelled, hbelow, fun hnone => absurd hnone hsocket, ?_, fun hmem v w hw => ?_⟩
    · dsimp only
      rw [entries_append, List.forall_mem_append]
      exact ⟨hcurrent, sent_current g.room m⟩
    · dsimp only at hmem hw
      rw [entries_append, List.map_append, List.mem_append] at hmem
      rw [applyAll_append] at hw
      rcases (tells_other hm.1).tells T with ⟨hnot, hsame⟩ | ⟨r, -, -, -, htells⟩
      · rw [applyAll_notMem hnot] at hw
        exact (h.last (hmem.resolve_right hnot) v w hw).imp_left (others_of_get hsame).2
      · refine others_or_own ?_
        rw [← hw]
        exact (htells _ (List.append_nil _).symm List.not_mem_nil).symm

theorem LinkedPhone.OnItsWay.step (h : g.OnItsWay who T) (e : LinkedEvent)
    (he : e.Proper who g) : (g.step who e).OnItsWay who T := by
  cases e with
  | phone e => exact h.stretch e
  | connect => exact h.connect
  | opened =>
    unfold LinkedPhone.step
    dsimp only
    split_ifs
    · exact ⟨h.labelled, h.below, fun hnone => (by cases hnone), h.current, h.last⟩
    · exact h
  | drop =>
    exact ⟨h.labelled, h.below, fun _ => rfl, fun e he => (List.not_mem_nil he).elim,
      fun hmem => (List.not_mem_nil hmem).elim⟩
  | deliver now =>
    unfold LinkedPhone.step
    dsimp only
    split
    · next hdown => exact h.hear hdown now
    · exact h
  | arrive now length => exact h.arrive now length
  | other m => exact h.other he

end OnTheWay

section Undone

variable {who : Sender} {T : String} {g : LinkedPhone}

/-- The stretch itself marks the ticket: an admit, or the server's word; a list brings back only
what the phone has not sent. -/
def PhoneEvent.MarksIn (p : Phone String) (T : String) : PhoneEvent String → Prop
  | .list _ => p.UnsentAdmit T
  | e => e.TellsIn p T

/-- Only the relay tells the phone that the ticket is in. -/
def LinkedEvent.NoEntry (T : String) (g : LinkedPhone) : LinkedEvent → Prop
  | .phone e => ¬ e.MarksIn g.phone T
  | _ => True

/-- The message has no claim of the ticket under the gate's own name, and an undo of it finds no
mark or one it removes. -/
def RoomMessage.Heeded (gate T : String) (p : Phone String) : RoomMessage → Prop
  | .hello _ _ => True
  | .checkins rows => ∀ row ∈ rows, row.ticketId = T → ¬ row.OwnClaim gate
  | .undo ticketId by_ at_ _ => ticketId = T →
    p.mark T = none ∨ relayUndoRemoves (p.mark T) ⟨by_.undoBy, at_⟩ = true

instance RoomMessage.decidableHeeded (gate T : String) (p : Phone String) :
    ∀ m : RoomMessage, Decidable (m.Heeded gate T p)
  | .hello _ _ => .isTrue trivial
  | .checkins rows =>
    inferInstanceAs (Decidable (∀ row ∈ rows, row.ticketId = T → ¬ row.OwnClaim gate))
  | .undo ticketId by_ at_ _ =>
    inferInstanceAs (Decidable (ticketId = T →
      p.mark T = none ∨ relayUndoRemoves (p.mark T) ⟨by_.undoBy, at_⟩ = true))

/-- Only heeded messages reach the phone, and the socket does not drop on a message about the ticket
that is not past the phone's cursor. -/
def LinkedEvent.Heeds (gate T : String) (g : LinkedPhone) : LinkedEvent → Prop
  | .drop => ∀ e ∈ entries g.down, e.1 = T → g.link.cursor g.room < e.2
  | .deliver _ => ∀ m ∈ g.down.head?, m.Heeded gate T g.phone
  | _ => True

instance LinkedEvent.decidableHeeds (gate T : String) (g : LinkedPhone) :
    ∀ e : LinkedEvent, Decidable (e.Heeds gate T g)
  | .drop => inferInstanceAs
    (Decidable (∀ e ∈ entries g.down, e.1 = T → g.link.cursor g.room < e.2))
  | .deliver _ => inferInstanceAs (Decidable (∀ m ∈ g.down.head?, m.Heeded gate T g.phone))
  | .phone _ | .connect | .opened | .arrive .. | .other _ => .isTrue trivial

/-- The phone takes back its admit of the ticket. -/
def LinkedPhone.Undoes (T : String) (g : LinkedPhone) (now : Time) (scanId : Id) : Prop :=
  (∃ item, g.phone.outbox.find? (·.scanId == scanId) = some item ∧ item.ticketId = some T) ∧
    (g.phone.undo now scanId).2.1 = .done

/-- The phone has no mark for the ticket unless another's row stands, or what says so is on its way
or past the phone's cursor. -/
structure LinkedPhone.Undone (who : Sender) (T : String) (g : LinkedPhone) : Prop where
  onItsWay : g.OnItsWay who T
  heard : g.socket ≠ .none → T ∉ (entries g.down).map (·.1) →
    g.room.Others who.gate T ∨ g.phone.mark T = none
  away : g.socket = .none → (g.room.Others who.gate T ∨ g.phone.mark T = none) ∨
    ∃ r, g.room.get T = some r ∧ g.link.cursor g.room < r.seq

theorem undoes_unmarked {now : Time} {scanId : Id} (h : g.Undoes T now scanId) :
    (g.phone.undo now scanId).1.mark T = none := by
  obtain ⟨⟨item, hitem, hid⟩, hdone⟩ := h
  unfold Phone.undo at hdone ⊢
  dsimp only at hdone ⊢
  rw [hitem] at hdone ⊢
  dsimp only at hdone ⊢
  split_ifs at hdone ⊢ with hrefused
  · exact absurd hdone hrefused
  · rw [hid]
    dsimp only
    rw [Phone.mark_dropMark, if_pos rfl]

theorem LinkedPhone.Undoes.undone {now : Time} {scanId : Id} (h : g.Undoes T now scanId)
    (hway : g.OnItsWay who T) : (g.step who (.phone (.undo now scanId))).Undone who T :=
  ⟨hway.stretch _, fun _ _ => .inr (undoes_unmarked h), fun _ => .inl (.inr (undoes_unmarked h))⟩

theorem LinkedPhone.Undone.stretch (h : g.Undone who T) {e : PhoneEvent String}
    (he : g.phone.mark T = none → (g.phone.step e).1.mark T = none) :
    (g.stretch e).Undone who T :=
  ⟨h.onItsWay.stretch e, fun hsocket hmem => (h.heard hsocket hmem).imp_right he,
    fun hsocket => (h.away hsocket).imp_left fun ho => ho.imp_right he⟩

theorem step_unmarked {p : Phone String} {e : PhoneEvent String} (he : ¬ e.MarksIn p T)
    (h : p.mark T = none) : (p.step e).1.mark T = none := by
  cases e with
  | list l =>
    have hmark := ((Phone.mark_adopt p l T).resolve_left fun hunsent => he hunsent.1).2
    rw [h] at hmark
    exact hmark.trans (ite_self _)
  | _ => exact (step_mark h _ (by simp)).2 he

theorem LinkedPhone.Undone.connect (h : g.Undone who T) :
    (g.step who .connect).Undone who T := by
  refine ⟨h.onItsWay.connect, ?_, ?_⟩ <;> unfold LinkedPhone.step <;> dsimp only
  · split_ifs with hsocket
    · intro _ hmem
      obtain ⟨-, hall⟩ := backlog_current g.room g.link.heard
        (if g.link.epoch = "" then none else some g.link.epoch)
      refine (h.away hsocket).resolve_right ?_
      rintro ⟨r, hr, hlt⟩
      obtain ⟨hrow, rfl⟩ := RoomStore.get_eq_some.1 hr
      have hpast := lt_of_le_of_lt (start_le_cursor g.link g.room) hlt
      exact hmem (List.mem_map.2 ⟨_, hall r hrow hpast, rfl⟩)
    · exact h.heard
  · split_ifs with hsocket
    · exact fun hnone => by cases hnone
    · exact h.away

theorem LinkedPhone.Undone.drop (h : g.Undone who T)
    (he : ∀ e ∈ entries g.down, e.1 = T → g.link.cursor g.room < e.2) :
    (g.step who .drop).Undone who T := by
  refine ⟨h.onItsWay.step .drop trivial, fun hsocket => absurd rfl hsocket, fun _ => ?_⟩
  by_cases hsocket : g.socket = .none
  · exact h.away hsocket
  by_cases hmem : T ∈ (entries g.down).map (·.1)
  · obtain ⟨e, hin, rfl⟩ := List.mem_map.1 hmem
    obtain ⟨r, hr, hle⟩ := h.onItsWay.current e hin
    exact .inr ⟨r, hr, lt_of_lt_of_le (he e hin rfl) hle⟩
  · exact .inl (h.heard hsocket hmem)

/-- A message that does not tell of a ticket leaves the phone without a mark for it. -/
theorem event_unmarked {p : Phone String} {m : RoomMessage} {now : Time} {e : PhoneEvent String}
    (hm : T ∉ m.entries.map (·.1)) (h : p.mark T = none) (he : m.event now = some e) :
    (p.step e).1.mark T = none := by
  cases m with
  | hello _ _ => cases he
  | checkins rows =>
    obtain rfl := Option.some.inj he
    refine (foldl_learn (·.ticketId) (Phone.list_learnRelayRow now) (learnRelayRow_mark now) _ p).2
      ⟨h, ?_⟩
    rintro ⟨-, row, hrow, hid⟩
    obtain ⟨row', hrow', rfl⟩ := List.mem_map.1 hrow
    refine hm ?_
    rw [RoomMessage.entries, List.map_map]
    exact List.mem_map.2 ⟨row', hrow', hid⟩
  | undo ticketId by_ at_ seq =>
    obtain rfl := Option.some.inj he
    exact learnRelayUndo_mark ticketId _ h

/-- An undo that the phone heeds leaves it without the mark. -/
theorem learnRelayUndo_heeded {p : Phone String} {undo : RelayUndo}
    (h : p.mark T = none ∨ relayUndoRemoves (p.mark T) undo = true) :
    (p.learnRelayUndo T undo).1.mark T = none := by
  rcases h with hnone | hremoves
  · exact learnRelayUndo_mark T undo hnone
  · unfold Phone.learnRelayUndo
    rw [if_pos hremoves, Phone.mark_dropMark, if_pos rfl]

theorem LinkedPhone.hear_rest (g : LinkedPhone) (now : Time) (m : RoomMessage) :
    (g.hear now m).room = g.room ∧ (g.hear now m).down = g.down ∧
      (g.hear now m).socket = g.socket := by
  unfold LinkedPhone.hear
  dsimp only
  split <;> exact ⟨rfl, rfl, rfl⟩

theorem LinkedPhone.hear_unmarked {m : RoomMessage} {now : Time} (h : g.phone.mark T = none)
    (he : ∀ e, m.event now = some e → (g.phone.step e).1.mark T = none) :
    (g.hear now m).phone.mark T = none := by
  unfold LinkedPhone.hear
  dsimp only
  split
  · next e hevent => exact he e hevent
  · exact h

/-- What the phone hears of a ticket leaves it unmarked, or another's row stands. -/
theorem LinkedPhone.Undone.hear (h : g.Undone who T) {m : RoomMessage} {down : List RoomMessage}
    (hlive : g.socket = .live) (hdown : g.down = m :: down) (now : Time)
    (he : m.Heeded who.gate T g.phone) : ({ g with down }.hear now m).Undone who T := by
  obtain ⟨hroom, hleft, hsocket⟩ := LinkedPhone.hear_rest { g with down } now m
  refine ⟨h.onItsWay.hear hdown now, fun _ hmem => ?_, fun hnone => ?_⟩
  · rw [hroom]
    rw [hleft] at hmem
    dsimp only at hmem ⊢
    by_cases htold : T ∈ m.entries.map (·.1)
    swap
    · refine (h.heard (by simp [hlive]) ?_).imp_right fun hmark =>
        LinkedPhone.hear_unmarked hmark fun e => event_unmarked htold hmark
      rw [hdown, entries_cons, List.map_append, List.mem_append, not_or]
      exact ⟨htold, hmem⟩
    cases m with
    | hello _ _ => cases htold
    | checkins rows =>
      have hin : T ∈ rows.map (·.ticketId) := by
        simpa [RoomMessage.entries, List.map_map, Function.comp_def] using htold
      obtain ⟨w, hw, hid, hset⟩ := setRows_told hin
      refine .inl ((h.onItsWay.last ?_ (fun _ => none) w ?_).resolve_right (he w hw hid))
      · rw [hdown, entries_cons, List.map_append]
        exact List.mem_append_left _ htold
      · rw [hdown]
        exact (applyAll_notMem hmem).trans (hset _)
    | undo ticketId by_ at_ seq =>
      obtain rfl := List.mem_singleton.1 htold
      exact .inr (learnRelayUndo_heeded (he rfl))
  · rw [hsocket.trans hlive] at hnone
    cases hnone

theorem LinkedPhone.Undone.arrive (h : g.Undone who T) (now : Time) (length : Nat) :
    (g.step who (.arrive now length)).Undone who T := by
  have hway := h.onItsWay.arrive now length
  revert hway
  unfold LinkedPhone.step
  dsimp only
  split
  · exact fun _ => h
  · next json up _ =>
    intro hway
    have hmoved := take_movedOn g.room (.phone now who ⟨length, some json⟩)
    have hlabelled := h.onItsWay.labelled
    refine ⟨hway, fun hsocket hmem => (h.heard hsocket hmem).imp_left (take_own hlabelled),
      fun hsocket => ?_⟩
    dsimp only
    rw [cursor_movedOn hmoved]
    refine (h.away hsocket).imp (Or.imp_left (take_own hlabelled)) ?_
    rintro ⟨r, hr, hlt⟩
    rcases hmoved.changed T with hsame | ⟨r', hr', hlt'⟩
    · exact ⟨r, hsame.trans hr, hlt⟩
    · exact ⟨r', hr', lt_of_le_of_lt h.onItsWay.below hlt'⟩

theorem LinkedPhone.Undone.other (h : g.Undone who T) {m : Incoming}
    (hm : Orderly g.room m ∧ m.OneName who) : (g.step who (.other m)).Undone who T := by
  have hway := h.onItsWay.other hm
  have hmoved := take_movedOn g.room m
  refine ⟨hway, ?_, ?_⟩ <;> unfold LinkedPhone.step <;> dsimp only
  · intro hsocket
    rw [if_neg hsocket, entries_append, List.map_append, List.mem_append, not_or]
    rintro ⟨hbefore, hnow⟩
    rcases (tells_other hm.1).tells T with ⟨-, hsame⟩ | ⟨r, -, -, htold, -⟩
    · exact (h.heard hsocket hbefore).imp_left (others_of_get hsame).2
    · exact absurd (List.mem_map.2 ⟨_, htold, rfl⟩) hnow
  · intro hsocket
    rw [cursor_movedOn hmoved]
    rcases hmoved.changed T with hsame | ⟨r, hr, hlt⟩
    · rw [others_of_get hsame, hsame]
      exact h.away hsocket
    · exact .inr ⟨r, hr, lt_of_le_of_lt h.onItsWay.below hlt⟩

theorem LinkedPhone.Undone.step (h : g.Undone who T) (e : LinkedEvent)
    (he : e.Proper who g ∧ e.NoEntry T g ∧ e.Heeds who.gate T g) : (g.step who e).Undone who T := by
  obtain ⟨hproper, hentry, hheeds⟩ := he
  cases e with
  | phone e => exact h.stretch (step_unmarked hentry)
  | connect => exact h.connect
  | opened =>
    have hway := h.onItsWay.step .opened trivial
    refine ⟨hway, ?_, ?_⟩ <;> unfold LinkedPhone.step <;> dsimp only <;> split_ifs with hsocket
    · exact fun _ => h.heard (by simp [hsocket])
    · exact h.heard
    · exact fun hnone => by cases hnone
    · exact h.away
  | drop => exact h.drop hheeds
  | deliver now =>
    unfold LinkedPhone.step
    dsimp only
    split
    · next hlive hdown =>
      refine h.hear hlive hdown now (hheeds _ ?_)
      rw [hdown]
      rfl
    · exact h
  | arrive now length => exact h.arrive now length
  | other m => exact h.other hproper

/-- A phone that took back its admit of a ticket, and let it in no more, has a mark for it only if
another's row stands. -/
theorem undone_staysOut (who : Sender) (phone : Phone String) (epoch : String)
    (revoked : List String) (T : String) (before after : List LinkedEvent) (now : Time)
    (scanId : Id) :
    let g := before.foldl (LinkedPhone.step who) (.start phone (.empty epoch revoked))
    let g' := after.foldl (LinkedPhone.step who) (g.step who (.phone (.undo now scanId)))
    EveryStep (LinkedPhone.step who) (fun g e => e.Proper who g)
        (.start phone (.empty epoch revoked)) before →
      g.Undoes T now scanId →
      EveryStep (LinkedPhone.step who)
        (fun g e => e.Proper who g ∧ e.NoEntry T g ∧ e.Heeds who.gate T g)
        (g.step who (.phone (.undo now scanId))) after →
      g'.socket = .live → g'.down = [] → (g'.phone.mark T).isSome →
        g'.room.Others who.gate T := by
  intro g g' hbefore hundo hafter hlive hdown hmark
  have hway : g.OnItsWay who T :=
    hbefore.keeps (fun _ _ hway he => hway.step _ he) (onItsWay_start phone epoch revoked)
  have hundone : g'.Undone who T :=
    hafter.keeps (fun _ _ h he => h.step _ he) (hundo.undone hway)
  have hnothing : T ∉ (entries g'.down).map (·.1) := by
    rw [hdown]
    exact List.not_mem_nil
  refine (hundone.heard (by simp [hlive]) hnothing).resolve_right fun hnone => ?_
  rw [hnone] at hmark
  cases hmark

end Undone

section Runs

def gateAPass : Sender := ⟨"pass-a", "Gate A"⟩

def guestTicket : OfflineEntry String where
  d := "d"
  id := guest₁
  name := "Nusrat"
  type := "Regular"
  pos := 1
  of := 1
  status := .issued
  inAt := none
  inBy := none

/-- Gate A's phone, with the guest on its list. -/
def gateAPhone : Phone String :=
  { Phone.start 1 "Gate A" with
    list := some { eventId := 1, passId := 1, salt := "salt", serverTime := 0, validFrom := 0
                   validUntil := 90000, entries := [guestTicket] } }

/-- The phone lets the guest in, and the room hears of it. -/
def gateALetsIn : List LinkedEvent :=
  [.connect, .opened, .deliver 500,
    .phone (.answer ⟨"code", some guestTicket, 1000, 0⟩ .qr none 7), .arrive 1100 95]

/-- The phone takes it back and the room hears of that too; then Gate B lets the guest in.  The
link drops before the phone hears of it, and the next one tells it. -/
def gateBLetsIn : List LinkedEvent :=
  [.arrive 2100 70,
    .other (.phone 3000 ⟨"pass-b", "Gate B"⟩ ⟨95, some (RelayOwnMark.in_ guest₁ 2900).json⟩),
    .drop, .connect, .opened, .deliver 4000, .deliver 4100, .arrive 4200 95]

theorem undone_staysOut_gateB :
    let g := gateALetsIn.foldl (LinkedPhone.step gateAPass)
      (.start gateAPhone (.empty "epoch-1" []))
    let g' := gateBLetsIn.foldl (LinkedPhone.step gateAPass)
      (g.step gateAPass (.phone (.undo 2000 7)))
    (g.phone.mark guest₁).isSome = true ∧ (g'.phone.mark guest₁).isSome = true ∧
      g'.room.Others "Gate A" guest₁ := by
  intro g g'
  have hmark : (g'.phone.mark guest₁).isSome = true := by decide +kernel
  refine ⟨by decide +kernel, hmark, ?_⟩
  refine undone_staysOut gateAPass gateAPhone "epoch-1" [] guest₁ gateALetsIn gateBLetsIn 2000 7
    ⟨trivial, trivial, trivial, trivial, trivial, trivial⟩ ⟨⟨_, rfl, rfl⟩, by decide +kernel⟩
    ⟨⟨trivial, trivial, trivial⟩, ⟨⟨fun _ hbatch => (by cases hbatch), ?_⟩, trivial, trivial⟩,
      ⟨trivial, trivial, by decide +kernel⟩, ⟨trivial, trivial, trivial⟩,
      ⟨trivial, trivial, trivial⟩, ⟨trivial, trivial, by decide +kernel⟩,
      ⟨trivial, trivial, by decide +kernel⟩, ⟨trivial, trivial, trivial⟩, trivial⟩
    (by decide +kernel) (by decide +kernel) hmark
  exact fun hpass => absurd hpass (by decide)

/-- The link drops once the room has the claim, and the phone takes the guest back.  The next
catch-up tells it of its own claim before the room has the undo. -/
theorem undone_comesBack : ¬ ∀ (who : Sender) (phone : Phone String) (epoch : String)
    (revoked : List String) (T : String) (before after : List LinkedEvent) (now : Time)
    (scanId : Id),
    let g := before.foldl (LinkedPhone.step who) (.start phone (.empty epoch revoked))
    let g' := after.foldl (LinkedPhone.step who) (g.step who (.phone (.undo now scanId)))
    g.Undoes T now scanId →
      EveryStep (LinkedPhone.step who) (fun g e => e.NoEntry T g)
        (g.step who (.phone (.undo now scanId))) after →
      g'.socket = .live → g'.down = [] → g'.up = [] → (g'.phone.mark T).isSome →
        g'.room.Others who.gate T := by
  intro h
  obtain ⟨r, hr, -⟩ := h gateAPass gateAPhone "epoch-1" [] guest₁ (gateALetsIn ++ [.drop])
    [.connect, .opened, .deliver 3000, .deliver 3100, .arrive 3200 95] 2000 7
    ⟨⟨_, rfl, rfl⟩, by decide +kernel⟩ ⟨trivial, trivial, trivial, trivial, trivial, trivial⟩
    (by decide +kernel) (by decide +kernel) (by decide +kernel) (by decide +kernel)
  exact absurd (Option.isSome_of_eq_some hr) (by decide +kernel)

end Runs

end EchoAndAura
