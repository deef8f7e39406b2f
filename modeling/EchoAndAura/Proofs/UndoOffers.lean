import EchoAndAura.GateStatus
import EchoAndAura.Proofs.OfflineDoor

/-!
# The undo a ping offers

A gate's ping marks each of its last scans that its phone may still undo.  The mark is worked out
from the joined rows, and the undo from the log and a compare-and-swap on the ticket; they agree
(`undoable_exact`).
-/

namespace EchoAndAura

open doorService
open Txn (writeAll)

section Buttons

variable {d : Db} {ctx : DoorContext}

/-- What the ping answers when nobody is about. -/
def statusAt (ctx : DoorContext) (since : Option Time) (d : Db) : DoorStatus where
  issued := (d.tickets.entries.filter (·.2.eventId == ctx.eventId)).countP (·.2.status == .issued)
  checkedIn := (d.tickets.entries.filter (·.2.eventId == ctx.eventId)).countP (·.2.checkIn.isSome)
  practice := ctx.practice
  recent := (((d.scansOfPass ctx.passId).mergeSort (·.newer ·)).take doorRecentScans).map
    (·.shown d.clock)
  checkIns :=
    (since.map fun s => checkInsAfter (d.standing ctx.eventId) s doorCheckinsLimit).getD []
  serverTime := d.clock

theorem status_alone (ctx : DoorContext) (since : Option Time) (d : Db) :
    (doorService.status ctx since).alone d = (.ok (statusAt ctx since d), d) := by
  cases since <;> rfl

/-- A row of the log as the ping reads it. -/
def Db.recentRow (d : Db) (e : Sigma fun _ : Id => DoorScan) : RecentScanRow :=
  let ticket := (e.2.ticketId.bind d.tickets.lookup).filter (·.eventId == e.2.eventId)
  { scanId := e.1, scan := e.2, attendeeName := ticket.map (·.attendeeName)
    ticketTypeName := (ticket.bind fun t => d.ticketTypes.lookup t.ticketTypeId).map (·.name)
    stillCheckedInByThisScan := (ticket.bind (·.checkIn)).map (·.checkedInScanId) == some e.1 }

theorem scansOfPass_eq (d : Db) (passId : Id) : d.scansOfPass passId =
    (d.doorScans.entries.filter (·.2.passId == passId)).map d.recentRow := by
  have htrue : ∀ {α : Type} (o : Option α), o.filter (fun _ => true) = o := by
    intro α o
    cases o <;> rfl
  unfold Db.scansOfPass
  simp only [Table.leftJoin_eq, List.map_map, htrue, Option.bind_map]
  rfl

/-- The check-in that an undo by its scan's id takes back. -/
def Db.stands (d : Db) (ticketId scanId : Id) (t : Ticket) : Prop :=
  d.tickets.lookup ticketId = some t ∧ t.checkIn.map (·.checkedInScanId) = some scanId

theorem undoCheckIn_standing {ticketId scanId : Id} {t : Ticket} {ws : List Write}
    (h : (writeAll ws d).stands ticketId scanId t) (hbroken : t.broken = none) :
    (exec (ticketsRepository.undoCheckIn ticketId scanId)).alone d ws =
      .ok (some { t with checkIn := none },
        ws ++ [.ticket ticketId { t with checkIn := none }]) := by
  obtain ⟨ht, hstands⟩ := h
  have hfixed : ({ t with checkIn := none } : Ticket).broken = none := by
    unfold Ticket.broken at hbroken ⊢
    split_ifs at hbroken ⊢ <;> simp_all
  have hcond : (t.checkIn.any fun c => c.checkedInScanId == scanId) = true := by
    obtain ⟨c, hc, hscan⟩ := Option.map_eq_some_iff.1 hstands
    rw [hc, Option.any_some, hscan, beq_self_eq_true]
  have hexec : (ticketsRepository.undoCheckIn ticketId scanId).exec (writeAll ws d) =
      Txn.Change.outcome (.ticket ticketId)
        (.write (.ticket ticketId { t with checkIn := none })
          (some { t with checkIn := none })) := by
    unfold ticketsRepository.undoCheckIn ticketsRepository.updateTicket Txn.Stmt.onRow
    dsimp only
    rw [ht]
    simp only [hcond, hfixed, if_true]
  rw [Tx.alone_change hexec]
  rfl

theorem undoCheckIn_gone {ticketId scanId : Id} {ws : List Write}
    (h : ∀ t, ¬(writeAll ws d).stands ticketId scanId t) :
    (exec (ticketsRepository.undoCheckIn ticketId scanId)).alone d ws = .ok (none, ws) := by
  have hexec : (ticketsRepository.undoCheckIn ticketId scanId).exec (writeAll ws d) =
      Txn.Change.outcome (.ticket ticketId) (.miss none) := by
    unfold ticketsRepository.undoCheckIn ticketsRepository.updateTicket Txn.Stmt.onRow
    dsimp only
    rcases ht : (writeAll ws d).tickets.lookup ticketId with _ | t
    · rfl
    · have hcond : (t.checkIn.any fun c => c.checkedInScanId == scanId) = false := by
        by_contra hany
        obtain ⟨c, hc, hscan⟩ := (Option.any_eq_true _ _).1 (by simpa using hany)
        exact h t ⟨ht, by rw [hc, Option.map_some, beq_iff_eq.1 hscan]⟩
      simp only [hcond, Bool.false_eq_true, if_false]
  rw [Tx.alone_change hexec]
  rfl

theorem undoOwnAdmitTx_alone {label : String} {ticketId scanId : Id} {reason : DoorUndoReason}
    (hactive : Active ctx.passId d)
    (hchecks : ∀ id row, d.tickets.lookup id = some row → row.broken = none) :
    (∃ a ws, (undoOwnAdmitTx ctx.passId label ticketId scanId reason).alone d [] = .ok (a, ws)) ↔
      ∃ t, d.stands ticketId scanId t := by
  obtain ⟨p, hp, hrevoked⟩ := hactive
  have hlock : (exec (doorRepository.lockActivePass ctx.passId)).alone d [] = .ok (true, []) := by
    rw [lockActivePass_alone, show (writeAll [] d).doorPasses = d.doorPasses from rfl, hp]
    simp [hrevoked]
  have hread : (exec (doorRepository.findTicket (.id ticketId))).alone d [] = .ok (_, []) :=
    Tx.alone_reads _ _ _ _
  unfold undoOwnAdmitTx
  rw [Tx.alone_bind, hlock]
  dsimp only [Except.bind]
  rw [if_neg (by simp), Tx.alone_bind, hread]
  dsimp only [Except.bind]
  by_cases hstands : ∃ t, d.stands ticketId scanId t
  · obtain ⟨t, ht⟩ := hstands
    have hundone : (exec (ticketsRepository.undoCheckIn ticketId scanId)).alone d [] = .ok (_, _) :=
      undoCheckIn_standing ht (hchecks _ _ ht.1)
    rw [Tx.alone_bind, hundone]
    exact ⟨fun _ => ⟨t, ht⟩, fun _ => ⟨_, _, rfl⟩⟩
  · have hgone : (exec (ticketsRepository.undoCheckIn ticketId scanId)).alone d [] =
        .ok (none, []) :=
      undoCheckIn_gone fun t ht => hstands ⟨t, ht⟩
    rw [Tx.alone_bind, hgone]
    exact ⟨fun ⟨_, _, h⟩ => (nomatch h), fun h => absurd h hstands⟩

/-- When a gate's undo of its admission goes through. -/
theorem undoOwnAdmit_alone {scanId : Id} {scan : DoorScan} {reason : DoorUndoReason}
    (hscan : d.doorScans.lookup scanId = some scan) (hactive : Active ctx.passId d)
    (hchecks : ∀ id row, d.tickets.lookup id = some row → row.broken = none) :
    (∃ d', (undoOwnAdmit ctx scanId reason).alone d = (.ok (), d')) ↔
      scan.result = .admitted ∧ scan.passId = ctx.passId ∧
        d.clock - scanTime scan ≤ doorUndoWindowMs ∧
          ∃ ticketId t, scan.ticketId = some ticketId ∧ d.stands ticketId scanId t := by
  have hread : (Svc.query (doorRepository.findScanByScanId scanId)).alone d =
      (.ok (d.doorScans.lookup scanId), d) := Svc.alone_query _ _ _
  have hrefused : ∀ {α : Type} (e : Err) (k : α → Svc Unit),
      ¬∃ d', ((throw e : Svc α) >>= k).alone d = (.ok (), d') := by
    rintro α e k ⟨d', h⟩
    rw [Svc.alone_bind_error (Svc.alone_throw e d)] at h
    cases h
  unfold undoOwnAdmit
  rw [Svc.alone_bind_ok hread, hscan]
  dsimp only
  rcases hticket : scan.ticketId with _ | ticketId
  · dsimp only
    refine iff_of_false (fun ⟨d', h⟩ => ?_) fun h => ?_
    · rw [Svc.alone_throw] at h
      cases h
    · obtain ⟨-, -, -, _, _, h, -⟩ := h
      cases h
  dsimp only
  by_cases hadmitted : scan.result = .admitted
  swap
  · rw [if_pos hadmitted]
    exact iff_of_false (hrefused _ _) fun h => hadmitted h.1
  rw [if_neg (not_not.2 hadmitted)]
  by_cases hown : scan.passId = ctx.passId
  swap
  · rw [if_pos hown]
    exact iff_of_false (hrefused _ _) fun h => hown h.2.1
  rw [if_neg (not_not.2 hown), Svc.alone_bind_ok (Svc.alone_now d)]
  by_cases hlate : doorUndoWindowMs < d.clock - scanTime scan
  · rw [if_pos hlate]
    exact iff_of_false (hrefused _ _) fun h => absurd h.2.2.1 (not_le.2 hlate)
  rw [if_neg hlate]
  have htx := @undoOwnAdmitTx_alone d ctx ctx.pass.label ticketId scanId reason hactive hchecks
  constructor
  · rintro ⟨d', h⟩
    obtain ⟨a, d₁, hcommit, -⟩ := Svc.alone_bind_eq h
    obtain ⟨ws, hws, -⟩ := Svc.alone_transaction_eq hcommit
    obtain ⟨t, ht⟩ := htx.1 ⟨a, ws, hws⟩
    exact ⟨hadmitted, hown, not_lt.1 hlate, ticketId, t, rfl, ht⟩
  · rintro ⟨-, -, -, _, t, hid, ht⟩
    obtain rfl := Option.some.inj hid
    obtain ⟨a, ws, hws⟩ := htx.2 ⟨t, ht⟩
    rw [Svc.alone_bind_ok (Svc.alone_transaction_ok hws)]
    cases a with
    | none => exact ⟨_, rfl⟩
    | some at_ => exact ⟨_, rfl⟩

/-- The scan's ticket is one of the scan's event. -/
def Db.SameEvent (d : Db) (scanId : Id) : Prop :=
  ∀ scan ticketId t, d.doorScans.lookup scanId = some scan → scan.ticketId = some ticketId →
    d.tickets.lookup ticketId = some t → t.eventId = scan.eventId

theorem recentRow_stands {e : Sigma fun _ : Id => DoorScan}
    (he : d.doorScans.lookup e.1 = some e.2) :
    (d.recentRow e).stillCheckedInByThisScan = true ↔
      (∃ ticketId t, e.2.ticketId = some ticketId ∧ d.stands ticketId e.1 t) ∧ d.SameEvent e.1 := by
  have hscan : ∀ scan, d.doorScans.lookup e.1 = some scan → scan = e.2 := fun scan h =>
    Option.some.inj (h.symm.trans he)
  unfold Db.recentRow Db.SameEvent Db.stands
  dsimp only
  rw [beq_iff_eq]
  rcases hticket : e.2.ticketId with _ | ticketId
  · simp
  rcases ht : d.tickets.lookup ticketId with _ | t
  · simp [ht]
  by_cases hevent : t.eventId = e.2.eventId
  · have hsame : ∀ scan ticketId' t', d.doorScans.lookup e.1 = some scan →
        scan.ticketId = some ticketId' → d.tickets.lookup ticketId' = some t' →
          t'.eventId = scan.eventId := by
      intro scan ticketId' t' hlog hid ht'
      rw [hscan scan hlog] at hid ⊢
      obtain rfl := Option.some.inj (hticket.symm.trans hid)
      rw [← Option.some.inj (ht.symm.trans ht')]
      exact hevent
    rw [and_iff_left hsame]
    simp [ht, Option.filter_some, hevent]
  · refine iff_of_false (fun h => ?_) fun h => hevent (h.2 e.2 ticketId t he hticket ht)
    simp [ht, Option.filter_some, hevent] at h

/-- A gate's ping offers to undo exactly those of its last scans whose undo would go through then,
and whose ticket is one of the event. -/
theorem undoable_exact (code : String) (ctx : DoorContext) (since : Option Time) (d : Db)
    (reason : DoorUndoReason) (hctx : ((authenticate code).alone d).1 = .ok (some ctx))
    (hd : d.Constrained) :
    ∃ st, (status ctx since).alone d = (.ok st, d) ∧ ∀ r ∈ st.recent, r.undoable = true ↔
      (∃ d', (undoOwnAdmit ctx r.scanId reason).alone d = (.ok (), d')) ∧ d.SameEvent r.scanId := by
  have hactive := (authenticate_alone hctx).active_pass
  refine ⟨_, status_alone ctx since d, fun r hr => ?_⟩
  obtain ⟨row, hrow, rfl⟩ := List.mem_map.1 hr
  have hmem := List.mem_mergeSort.1 (List.mem_of_mem_take hrow)
  rw [scansOfPass_eq] at hmem
  obtain ⟨e, he, rfl⟩ := List.mem_map.1 hmem
  obtain ⟨he, hown⟩ := List.mem_filter.1 he
  have hscan : d.doorScans.lookup e.1 = some e.2 := AList.mem_lookup_iff.2 he
  have hundoable : ((d.recentRow e).shown d.clock).undoable = true ↔
      (e.2.result = .admitted ∧ (d.recentRow e).stillCheckedInByThisScan = true) ∧
        d.clock - scanTime e.2 ≤ doorUndoWindowMs := by
    show (e.2.result == .admitted && _ && decide _) = true ↔ _
    rw [Bool.and_eq_true, Bool.and_eq_true, beq_iff_eq, decide_eq_true_eq]
    exact Iff.rfl
  rw [show ((d.recentRow e).shown d.clock).scanId = e.1 from rfl,
    undoOwnAdmit_alone hscan hactive hd.checks, hundoable, recentRow_stands hscan]
  constructor
  · rintro ⟨⟨hadmitted, hstands, hsame⟩, htime⟩
    exact ⟨⟨hadmitted, beq_iff_eq.1 hown, htime, hstands⟩, hsame⟩
  · rintro ⟨⟨hadmitted, -, htime, hstands⟩, hsame⟩
    exact ⟨⟨hadmitted, hstands, hsame⟩, htime⟩

end Buttons

section Evening

/-- Gate A let Rumi in a minute ago. -/
def justIn : Db :=
  { openingNight with
    tickets := .singleton 1
      { orderId := 1, ticketTypeId := 1, eventId := 1, code := "TKT-4H8ZP2XQ", position := 1
        attendeeName := "Rumi", status := .issued
        checkIn := some ⟨2 * hourMs - minuteMs, "Gate A", 7⟩ }
    doorScans := .singleton 7
      { passId := 1, eventId := 1, ticketId := some 1, input := "TKT-4H8ZP2XQ", result := .admitted
        method := .qr, mode := .online, priorCheckedInAt := none, priorCheckedInBy := none
        scannedAt := none, receivedAt := 2 * hourMs - minuteMs, doorVerdict := none
        supersedesScanId := none } }

theorem justIn_constrained : justIn.Constrained := by
  constructor
  · intro id row hrow
    obtain ⟨-, rfl⟩ := Table.lookup_singleton.1 hrow
    decide
  · intro id id' row row' hrow hrow' _
    rw [(Table.lookup_singleton.1 hrow).1, (Table.lookup_singleton.1 hrow').1]

theorem undoable_exact_justIn : ∃ st, (status gateA none).alone justIn = (.ok st, justIn) ∧
    ∀ r ∈ st.recent, r.undoable = true ↔
      (∃ d', (undoOwnAdmit gateA r.scanId .misTap).alone justIn = (.ok (), d')) ∧
        justIn.SameEvent r.scanId :=
  undoable_exact "K7QM4XPDR2TW" gateA none justIn .misTap (by decide +kernel) justIn_constrained

end Evening

end EchoAndAura
