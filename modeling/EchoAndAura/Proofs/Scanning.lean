import EchoAndAura.Proofs.Alone
import EchoAndAura.Proofs.Scans

/-!
# One scan

A scan that has the database to itself.  One that was never seen is judged on the database it finds
(`judge`) and leaves its one row of the log (`fresh_alone`); one seen before is answered from that
row and changes nothing (`replay_alone`).
-/

namespace EchoAndAura

open Txn (writeAll)

/-- The scan a ticket is in by, where there is such a ticket. -/
def Db.inBy (d : Db) (id : Id) : Option (Option Id) :=
  (d.doorTicket id).map fun t => t.checkIn.map (·.checkedInScanId)

namespace doorService

variable {ctx : DoorContext} {item : ScanItem} {d d' : Db}

section Judge

/-- The ticket a scan names, and what the log says was scanned. -/
def named (item : ScanItem) (d : Db) : Option DoorTicket × String :=
  match item.ticketId with
  | some id => (d.doorTicket id, ((d.doorTicket id).map (·.code)).getD unknownTicketId)
  | none =>
    let raw := item.input.getD ""
    let code := parseScanToken raw
    (code.bind fun c =>
      (d.tickets.entries.find? fun e => e.2.code == c).bind fun e => d.doorTicket e.1,
      scanLogInput raw code)

/-- Nobody is let in for real: the doors are not open, or were not when the phone said so. -/
def rehearses (ctx : DoorContext) (item : ScanItem) : Bool :=
  ctx.practice || item.offline.any fun o => o.verdict == .practice

/-- What a scan that was never seen is answered. -/
def judge (ctx : DoorContext) (item : ScanItem) (d : Db) : ScanResultKind :=
  match (named item d).1 with
  | none => .unknown
  | some t =>
    if t.eventId ≠ ctx.eventId then .wrongEvent
    else if item.method == .search && t.buyerPhoneLast3.isSome &&
        item.phoneLast3 ≠ t.buyerPhoneLast3 then .phoneMismatch
    else if rehearses ctx item || item.offline.any fun o => o.verdict ≠ .admitted then
      wouldBe (rehearses ctx item) t
    else if t.status == .cancelled then .cancelled
    else if t.checkIn.isSome then .alreadyIn
    else .admitted

/-- The attempt such a scan makes. -/
def attempt (ctx : DoorContext) (item : ScanItem) (d : Db) : Attempt where
  ctx := ctx
  item := item
  practice := rehearses ctx item
  input := (named item d).2
  offlineAt := item.offline.bind fun _ =>
    item.scannedAt.map fun t => clampOfflineTime t ctx.window.validFrom d.clock

/-- The check-in an answer tells of. -/
def prior (ctx : DoorContext) (item : ScanItem) (d : Db) : Option CheckIn :=
  if judge ctx item d = .alreadyIn then (named item d).1.bind (·.checkIn) else none

/-- The row it leaves in the log. -/
def logged (ctx : DoorContext) (item : ScanItem) (d : Db) : DoorScan :=
  (attempt ctx item d).log ((named item d).1.map (·.id)) (judge ctx item d) (prior ctx item d) d.clock

/-- The check-in an admission leaves on its ticket. -/
def admission (ctx : DoorContext) (item : ScanItem) (d : Db) : CheckIn where
  checkedInAt := (attempt ctx item d).offlineAt.getD d.clock
  checkedInBy := ctx.pass.label
  checkedInScanId := item.scanId

/-- What a scan answered `r` has done. -/
structure Answered (ctx : DoorContext) (item : ScanItem) (d : Db) (r : ScanResult) (d' : Db) :
    Prop where
  result : r.result = .logged (judge ctx item d)
  practice : r.practice = rehearses ctx item
  scans : d'.doorScans = d.doorScans.insert item.scanId (logged ctx item d)
  kept : judge ctx item d ≠ .admitted → d'.tickets = d.tickets
  admitted : judge ctx item d = .admitted → ∃ t row, (named item d).1 = some t ∧
    d.tickets.lookup t.id = some row ∧ row.status = .issued ∧ row.checkIn = none ∧
      d'.tickets = d.tickets.insert t.id { row with checkIn := some (admission ctx item d) }
  rest : d'.ticketTypes = d.ticketTypes ∧ d'.orders = d.orders ∧ d'.events = d.events ∧
    d'.doorPasses = d.doorPasses ∧ d'.clock = d.clock

/-- Why a scan can fail: its pass is revoked, or its ticket's row breaks a CHECK. -/
def Refused (ctx : DoorContext) (item : ScanItem) (d : Db) : Prop :=
  (∀ p, d.doorPasses.lookup ctx.passId = some p → p.revokedAt.isSome) ∨
    ∃ t row, (named item d).1 = some t ∧ d.tickets.lookup t.id = some row ∧ row.position < 1

end Judge

section Transaction

variable {a : Attempt} {t : DoorTicket} {ws : List Write} {id : Id}

theorem scanned_alone (item : ScanItem) (d : Db) : (scanned item).alone d = (.ok (named item d), d) := by
  unfold scanned named
  rcases item.ticketId with _ | id
  · dsimp only
    rcases parseScanToken (item.input.getD "") with _ | c
    · rfl
    · exact Svc.alone_bind_ok (Svc.alone_query _ _ d)
  · exact Svc.alone_bind_ok (Svc.alone_query _ _ d)

theorem offlineTime_alone (ctx : DoorContext) (item : ScanItem) (d : Db) :
    (offlineTime ctx item).alone d = (.ok (attempt ctx item d).offlineAt, d) := by
  unfold offlineTime attempt
  rcases item.offline with _ | o
  · rfl
  · rcases item.scannedAt with _ | t <;> rfl

theorem log_broken (a : Attempt) (ticketId : Option Id) (result : ScanResultKind)
    (prior : Option CheckIn) (t : Time) : (a.log ticketId result prior t).broken = none := by
  unfold DoorScan.broken Attempt.log
  rcases a.item.offline with _ | o
  · by_cases hp : a.practice <;> simp [hp]
  · simp

theorem insertScan_alone {scanId : Id} {s : Time → DoorScan} (hs : ∀ t, (s t).broken = none)
    (hnew : (writeAll ws d).doorScans.lookup scanId = none) :
    (doorRepository.insertScan scanId s).alone d ws =
      .ok ((), ws ++ [.scan scanId (s (writeAll ws d).clock)]) := by
  have hv : doorRepository.insertScanViolation scanId (s (writeAll ws d).clock) (writeAll ws d) =
      none := by
    simp [doorRepository.insertScanViolation, hs, hnew]
  exact Tx.alone_insert hv

variable {row : Ticket} {gate : String} {scanId : Id} {at_ : Option Time}

theorem checkIn_stmt (id : Id) (gate : String) (scanId : Id) (at_ : Option Time) (d : Db) :
    (ticketsRepository.checkIn id gate scanId at_).alone d [] =
      (exec (ticketsRepository.checkInStmt id ⟨at_.getD d.clock, gate, scanId⟩)).alone d [] := by
  rcases at_ with _ | time <;> rfl

theorem checkIn_change {c : Change (Option Ticket)}
    (h : (ticketsRepository.checkInStmt id ⟨at_.getD d.clock, gate, scanId⟩).exec d =
      c.outcome (.ticket id)) :
    (ticketsRepository.checkIn id gate scanId at_).alone d [] = c.alone [] := by
  rw [checkIn_stmt]
  exact Tx.alone_change h

theorem checkIn_exec (hrow : d.tickets.lookup id = some row) (c : CheckIn) :
    (ticketsRepository.checkInStmt id c).exec d =
      Txn.Change.outcome (.ticket id) (if row.status == .issued && row.checkIn.isNone then
        if row.position < 1 then .refuse (.check "tickets_position_positive")
        else .write (.ticket id { row with checkIn := some c }) (some { row with checkIn := some c })
      else .miss none) := by
  unfold ticketsRepository.checkInStmt ticketsRepository.updateTicket Txn.Stmt.onRow
  simp only [hrow, Ticket.broken]
  by_cases hfree : (row.status == .issued && row.checkIn.isNone) = true
  · have hs : row.status = .issued := by simp_all
    by_cases hp : row.position < 1 <;> simp [hs, hp]
  · simp [hfree]

theorem checkIn_free (hrow : d.tickets.lookup id = some row) (hs : row.status = .issued)
    (ho : row.checkIn = none) (hp : ¬row.position < 1) :
    (ticketsRepository.checkIn id gate scanId at_).alone d [] =
      .ok (some { row with checkIn := some ⟨at_.getD d.clock, gate, scanId⟩ },
        [.ticket id { row with checkIn := some ⟨at_.getD d.clock, gate, scanId⟩ }]) := by
  rw [checkIn_change (checkIn_exec hrow _)]
  simp [hs, ho, hp, Change.alone]

theorem checkIn_broken (hrow : d.tickets.lookup id = some row) (hs : row.status = .issued)
    (ho : row.checkIn = none) (hp : row.position < 1) :
    (ticketsRepository.checkIn id gate scanId at_).alone d [] =
      .error (.check "tickets_position_positive") := by
  rw [checkIn_change (checkIn_exec hrow _)]
  simp [hs, ho, hp, Change.alone]

theorem checkIn_taken (hrow : d.tickets.lookup id = some row)
    (htaken : ¬(row.status = .issued ∧ row.checkIn = none)) :
    (ticketsRepository.checkIn id gate scanId at_).alone d [] = .ok (none, []) := by
  rw [checkIn_change (checkIn_exec hrow _)]
  simp [htaken, Change.alone]

theorem lockActivePass_alone (id : Id) (d : Db) (ws : List Write) :
    (exec (doorRepository.lockActivePass id)).alone d ws =
      .ok (((writeAll ws d).doorPasses.lookup id).any (·.revokedAt.isNone), ws) := by
  have hexec : (doorRepository.lockActivePass id).exec (writeAll ws d) =
      Txn.Change.outcome (.pass id)
        (if ((writeAll ws d).doorPasses.lookup id).any (·.revokedAt.isNone) then .share true
          else .miss false) := by
    unfold doorRepository.lockActivePass Txn.Stmt.onRow
    dsimp only
    rcases (writeAll ws d).doorPasses.lookup id with _ | p <;> rfl
  rw [Tx.alone_change hexec]
  split_ifs with h <;> simp [h, Change.alone]

theorem letIn_alone {admitted : Ticket} (hnew : (writeAll ws d).doorScans.lookup a.item.scanId = none) :
    ∃ r, (letIn a t admitted).alone d ws = .ok (r, ws ++ [.orderEvent (checkedInEvent a t)] ++
        [.scan a.item.scanId (a.log (some t.id) .admitted none (writeAll ws d).clock)]) ∧
      r.result = .logged .admitted ∧ r.practice = a.practice := by
  have hws : writeAll (ws ++ [.orderEvent (checkedInEvent a t)]) d =
      (Write.orderEvent (checkedInEvent a t)).apply (writeAll ws d) := by
    rw [Txn.writeAll_append]
    rfl
  refine ⟨{ (a.answer .admitted).describe t with
    attendeeName := some admitted.attendeeName
    at_ := admitted.checkIn.map (·.checkedInAt), gate := some a.ctx.pass.label }, ?_, rfl, rfl⟩
  have hevent : (exec (ordersRepository.insertEvent (checkedInEvent a t))).alone d ws =
      .ok ((), ws ++ [.orderEvent (checkedInEvent a t)]) := Tx.alone_append
  unfold letIn
  rw [Tx.alone_bind, hevent]
  simp only [Except.bind]
  have hnew' : (writeAll (ws ++ [.orderEvent (checkedInEvent a t)]) d).doorScans.lookup
      a.item.scanId = none := by
    rw [hws]
    exact hnew
  rw [Tx.alone_bind, insertScan_alone (log_broken a _ _ _) hnew', hws]
  rfl

theorem turnAway_cancelled {latest : DoorTicket} (hs : latest.status = .cancelled)
    (hnew : d.doorScans.lookup a.item.scanId = none) :
    ∃ r, (turnAway a t (some latest)).alone d [] =
        .ok (r, [.scan a.item.scanId (a.log (some t.id) .cancelled none d.clock)]) ∧
      r.result = .logged .cancelled ∧ r.practice = a.practice := by
  refine ⟨(a.answer .cancelled).describe t, ?_, rfl, rfl⟩
  simp only [turnAway, hs, beq_self_eq_true, if_true]
  rw [Tx.alone_bind, insertScan_alone (log_broken a _ _ _) hnew]
  rfl

theorem turnAway_alreadyIn {latest : DoorTicket} {c : CheckIn} (hs : latest.status ≠ .cancelled)
    (hc : latest.checkIn = some c) (hnew : d.doorScans.lookup a.item.scanId = none) :
    ∃ r, (turnAway a t (some latest)).alone d [] =
        .ok (r, [.scan a.item.scanId (a.log (some t.id) .alreadyIn (some c) d.clock)]) ∧
      r.result = .logged .alreadyIn ∧ r.practice = a.practice := by
  refine ⟨{ (a.answer .alreadyIn).describe latest with
    at_ := some c.checkedInAt, gate := some c.checkedInBy
    byThisPass := some (latest.checkedInPassId == some a.ctx.passId)
    secondsAgo := some (secondsBetween d.clock c.checkedInAt) }, ?_, rfl, rfl⟩
  have hs' : (latest.status == .cancelled) = false := by simpa using hs
  simp only [turnAway, hs', Bool.false_eq_true, if_false, hc]
  rw [Tx.alone_bind, insertScan_alone (log_broken a _ _ _) hnew]
  rfl

/-- The pass has not been revoked. -/
def Active (passId : Id) (d : Db) : Prop :=
  ∃ p, d.doorPasses.lookup passId = some p ∧ p.revokedAt = none

theorem scanTx_revoked (h : ¬Active a.ctx.passId d) :
    (scanTx a t).alone d [] = .error (.doorPassRevoked a.ctx.passId) := by
  have hrevoked : (d.doorPasses.lookup a.ctx.passId).any (·.revokedAt.isNone) = false := by
    rcases hp : d.doorPasses.lookup a.ctx.passId with _ | p
    · rfl
    · by_contra hne
      exact h ⟨p, hp, by simpa using hne⟩
  unfold scanTx
  rw [Tx.alone_bind, lockActivePass_alone, show (writeAll [] d).doorPasses = d.doorPasses from rfl,
    hrevoked]
  rfl

theorem lockActivePass_active (h : Active a.ctx.passId d) :
    (exec (doorRepository.lockActivePass a.ctx.passId)).alone d [] = .ok (true, []) := by
  obtain ⟨p, hp, hactive⟩ := h
  rw [lockActivePass_alone, show (writeAll [] d).doorPasses = d.doorPasses from rfl, hp]
  simp [hactive]

theorem scanTx_admitted (hactive : Active a.ctx.passId d) (hrow : d.tickets.lookup t.id = some row)
    (hs : row.status = .issued) (ho : row.checkIn = none) (hp : ¬row.position < 1)
    (hnew : d.doorScans.lookup a.item.scanId = none) :
    ∃ r, (scanTx a t).alone d [] = .ok (r, [.ticket t.id { row with
          checkIn := some ⟨a.offlineAt.getD d.clock, a.ctx.pass.label, a.item.scanId⟩ },
        .orderEvent (checkedInEvent a t),
        .scan a.item.scanId (a.log (some t.id) .admitted none d.clock)]) ∧
      r.result = .logged .admitted ∧ r.practice = a.practice := by
  have htry : (tryCheckIn a t).alone d [] = .ok ((some { row with
      checkIn := some ⟨a.offlineAt.getD d.clock, a.ctx.pass.label, a.item.scanId⟩ }, none),
      [.ticket t.id { row with
        checkIn := some ⟨a.offlineAt.getD d.clock, a.ctx.pass.label, a.item.scanId⟩ }]) := by
    unfold tryCheckIn
    rw [Tx.alone_bind, checkIn_free hrow hs ho hp]
    rfl
  unfold scanTx
  rw [Tx.alone_bind, lockActivePass_active hactive]
  simp only [Except.bind, Bool.not_true, Bool.false_eq_true, if_false]
  rw [Tx.alone_bind, htry]
  exact letIn_alone hnew

theorem scanTx_lost (hactive : Active a.ctx.passId d) (ht : d.doorTicket t.id = some t)
    (hrow : d.tickets.lookup t.id = some row) (hst : row.status = t.status)
    (hc : row.checkIn = t.checkIn) (htaken : ¬(t.status = .issued ∧ t.checkIn = none)) :
    (scanTx a t).alone d [] = (turnAway a t (some t)).alone d [] := by
  have hread : (exec (doorRepository.findTicket (.id t.id))).alone d [] = .ok (some t, []) := by
    rw [← ht]
    rfl
  have hnone : (some t).any (fun c => c.status == .issued && c.checkIn.isNone) = false := by
    by_contra hne
    exact htaken (by simpa using hne)
  have htry : (tryCheckIn a t).alone d [] = .ok ((none, some t), []) := by
    unfold tryCheckIn
    rw [Tx.alone_bind, checkIn_taken hrow (by rwa [hst, hc])]
    simp only [Except.bind]
    rw [Tx.alone_bind, hread]
    simp only [Except.bind, hnone, Bool.false_eq_true, if_false]
    rfl
  unfold scanTx
  rw [Tx.alone_bind, lockActivePass_active hactive]
  simp only [Except.bind, Bool.not_true, Bool.false_eq_true, if_false]
  rw [Tx.alone_bind, htry]
  rfl

theorem scanTx_broken (hactive : Active a.ctx.passId d) (hrow : d.tickets.lookup t.id = some row)
    (hs : row.status = .issued) (ho : row.checkIn = none) (hp : row.position < 1) :
    (scanTx a t).alone d [] = .error (.check "tickets_position_positive") := by
  have htry : (tryCheckIn a t).alone d [] = .error (.check "tickets_position_positive") := by
    unfold tryCheckIn
    rw [Tx.alone_bind, checkIn_broken hrow hs ho hp]
    rfl
  unfold scanTx
  rw [Tx.alone_bind, lockActivePass_active hactive]
  simp only [Except.bind, Bool.not_true, Bool.false_eq_true, if_false]
  rw [Tx.alone_bind, htry]
  rfl

end Transaction

section Fresh

variable {t : DoorTicket}

theorem logOnly_alone {a : Attempt} {ticketId : Option Id} {result : ScanResultKind}
    {prior : Option CheckIn} (hnew : d.doorScans.lookup a.item.scanId = none) :
    (logOnly a ticketId result prior).alone d =
      (.ok (), (Write.scan a.item.scanId (a.log ticketId result prior d.clock)).apply d) :=
  Svc.alone_transaction_ok (show (doorRepository.insertScan a.item.scanId
    (a.log ticketId result prior)).alone d [] = _ from insertScan_alone (log_broken a _ _ _) hnew)

theorem doorTicket_status {id : Id} (h : d.doorTicket id = some t) :
    t.id = id ∧ ∃ row, d.tickets.lookup id = some row ∧ row.status = t.status ∧
      row.checkIn = t.checkIn := by
  simp only [Db.doorTicket, Option.bind_eq_bind, Option.bind_eq_some_iff, Option.some.injEq] at h
  obtain ⟨row, hrow, ty, -, o, -, e, -, rfl⟩ := h
  exact ⟨rfl, row, hrow, rfl, rfl⟩

theorem doorTicket_of_named (h : (named item d).1 = some t) : d.doorTicket t.id = some t := by
  unfold named at h
  split at h
  · obtain ⟨rfl, -⟩ := doorTicket_status h
    exact h
  · obtain ⟨c, -, hc⟩ := Option.bind_eq_some_iff.1 h
    obtain ⟨e, -, he⟩ := Option.bind_eq_some_iff.1 hc
    obtain ⟨hid, -⟩ := doorTicket_status he
    rwa [hid]

/-- A scan that lets nobody in has only written its row. -/
theorem Answered.quiet {ticketId : Option Id} {result : ScanResultKind} {p : Option CheckIn}
    {r : ScanResult} (hj : judge ctx item d = result) (hadm : result ≠ .admitted)
    (hid : (named item d).1.map (·.id) = ticketId) (hprior : prior ctx item d = p)
    (hr : r.result = .logged result) (hp : r.practice = rehearses ctx item) :
    Answered ctx item d r
      ((Write.scan item.scanId ((attempt ctx item d).log ticketId result p d.clock)).apply d) := by
  subst hj hid hprior
  exact ⟨hr, hp, rfl, fun _ => rfl, fun h => absurd h hadm, rfl, rfl, rfl, rfl, rfl⟩

theorem logOnly_answered {ticketId : Option Id} {result : ScanResultKind} {p : Option CheckIn}
    {r : ScanResult} (hnew : d.doorScans.lookup item.scanId = none)
    (hj : judge ctx item d = result) (hadm : result ≠ .admitted)
    (hid : (named item d).1.map (·.id) = ticketId) (hprior : prior ctx item d = p)
    (hr : r.result = .logged result) (hp : r.practice = rehearses ctx item) :
    ∃ r' d', (logOnly (attempt ctx item d) ticketId result p >>= fun _ =>
      (pure r : Svc ScanResult)).alone d = (.ok r', d') ∧ Answered ctx item d r' d' :=
  ⟨r, _, Svc.alone_bind_ok (logOnly_alone hnew), .quiet hj hadm hid hprior hr hp⟩

theorem checkIn_answered (hnew : d.doorScans.lookup item.scanId = none)
    (hn : (named item d).1 = some t)
    (hj : judge ctx item d = if t.status == .cancelled then .cancelled
      else if t.checkIn.isSome then .alreadyIn else .admitted) :
    (∃ e, (checkIn (attempt ctx item d) t).alone d = (.error e, d) ∧ Refused ctx item d) ∨
      ∃ r d', (checkIn (attempt ctx item d) t).alone d = (.ok r, d') ∧ Answered ctx item d r d' := by
  have ht := doorTicket_of_named hn
  obtain ⟨-, row, hrow, hst, hc⟩ := doorTicket_status ht
  have hid : (named item d).1.map (·.id) = some t.id := by rw [hn]; rfl
  by_cases hactive : Active ctx.passId d
  swap
  · refine .inl ⟨.doorPassRevoked ctx.passId, ?_, .inl fun p hp => ?_⟩
    · exact Svc.alone_bind_error (Svc.alone_transaction_error (scanTx_revoked hactive))
    · by_contra hne
      exact hactive ⟨p, hp, by simpa using hne⟩
  by_cases hcan : t.status = .cancelled
  · rw [if_pos (by simp [hcan])] at hj
    have htx := scanTx_lost (a := attempt ctx item d) hactive ht hrow hst hc (by simp [hcan])
    obtain ⟨r, hr, hres, hp⟩ := turnAway_cancelled (a := attempt ctx item d) (t := t) hcan hnew
    have hprior : prior ctx item d = none := by simp [prior, hj]
    refine .inr ⟨r, _, ?_, .quiet hj (by simp) hid hprior hres hp⟩
    refine (Svc.alone_bind_ok (Svc.alone_transaction_ok (htx.trans hr))).trans ?_
    rw [if_pos (by simp [hres])]
    rfl
  rw [if_neg (by simpa using hcan)] at hj
  rcases hin : t.checkIn with _ | c
  · rw [hin, if_neg (by simp)] at hj
    have hissued : row.status = .issued := by
      rw [hst]
      cases hs : t.status with
      | issued => rfl
      | cancelled => exact absurd hs hcan
    have hout : row.checkIn = none := hc.trans hin
    by_cases hp : row.position < 1
    · refine .inl ⟨.check "tickets_position_positive", ?_, .inr ⟨t, row, hn, hrow, hp⟩⟩
      exact Svc.alone_bind_error (Svc.alone_transaction_error
        (scanTx_broken (a := attempt ctx item d) hactive hrow hissued hout hp))
    obtain ⟨r, hr, hres, hpr⟩ :=
      scanTx_admitted (a := attempt ctx item d) hactive hrow hissued hout hp hnew
    refine .inr ⟨r, writeAll [.ticket t.id { row with checkIn := some (admission ctx item d) },
        .orderEvent (checkedInEvent (attempt ctx item d) t),
        .scan item.scanId ((attempt ctx item d).log (some t.id) .admitted none d.clock)] d,
      (Svc.alone_bind_ok (Svc.alone_transaction_ok hr)).trans ?_,
      ⟨by rw [hj, hres], hpr, ?_, fun h => absurd hj h, fun _ => ⟨t, row, hn, hrow, hissued, hout, rfl⟩,
        rfl, rfl, rfl, rfl, rfl⟩⟩
    · rw [if_neg (by simp [hres])]
      rcases r.at_ with _ | time <;> rfl
    · have hprior : prior ctx item d = none := by simp [prior, hj]
      rw [logged, hj, hid, hprior]
      rfl
  · rw [hin, if_pos (by simp)] at hj
    have htx := scanTx_lost (a := attempt ctx item d) hactive ht hrow hst hc (by simp [hin])
    obtain ⟨r, hr, hres, hp⟩ := turnAway_alreadyIn (a := attempt ctx item d) (t := t) hcan hin hnew
    have hprior : prior ctx item d = some c := by simp [prior, hj, hn, hin]
    refine .inr ⟨r, _, ?_, .quiet hj (by simp) hid hprior hres hp⟩
    refine (Svc.alone_bind_ok (Svc.alone_transaction_ok (htx.trans hr))).trans ?_
    rw [if_pos (by simp [hres])]
    rfl

/-- A scan with the database to itself is answered what it is judged, or refused without a trace. -/
theorem fresh_alone (ctx : DoorContext) (hnew : d.doorScans.lookup item.scanId = none) :
    (∃ e, (fresh ctx item).alone d = (.error e, d) ∧ Refused ctx item d) ∨
      ∃ r d', (fresh ctx item).alone d = (.ok r, d') ∧ Answered ctx item d r d' := by
  rcases hn : named item d with ⟨ticket, input⟩
  have hticket : (named item d).1 = ticket := by rw [hn]
  have ha : (⟨ctx, item, rehearses ctx item, input, (attempt ctx item d).offlineAt⟩ : Attempt) =
      attempt ctx item d := by
    simp [attempt, hn]
  unfold fresh
  rw [Svc.alone_bind_ok ((scanned_alone item d).trans (by rw [hn]))]
  dsimp only
  rw [Svc.alone_bind_ok (offlineTime_alone ctx item d)]
  rw [show (ctx.practice || item.offline.any fun o => o.verdict == .practice) = rehearses ctx item
    from rfl, ha]
  rcases ticket with _ | t
  · have hj : judge ctx item d = .unknown := by simp only [judge, hticket]
    exact .inr (logOnly_answered hnew hj (by simp) (by rw [hticket]; rfl) (by simp [prior, hj]) rfl rfl)
  have hid : (named item d).1.map (·.id) = some t.id := by rw [hticket]; rfl
  dsimp only
  by_cases hevent : t.eventId ≠ ctx.eventId
  · have hj : judge ctx item d = .wrongEvent := by simp only [judge, hticket, if_pos hevent]
    rw [if_pos hevent]
    exact .inr (logOnly_answered hnew hj (by simp) hid (by simp [prior, hj]) rfl rfl)
  rw [if_neg hevent]
  by_cases hphone : (item.method == .search && t.buyerPhoneLast3.isSome &&
      decide (item.phoneLast3 ≠ t.buyerPhoneLast3)) = true
  · have hj : judge ctx item d = .phoneMismatch := by
      simp only [judge, hticket, if_neg hevent, if_pos hphone]
    rw [if_pos hphone]
    exact .inr (logOnly_answered hnew hj (by simp) hid (by simp [prior, hj]) rfl rfl)
  rw [if_neg hphone]
  by_cases hlog : (rehearses ctx item ||
      item.offline.any fun o => decide (o.verdict ≠ .admitted)) = true
  · have hj : judge ctx item d = wouldBe (rehearses ctx item) t := by
      simp only [judge, hticket, if_neg hevent, if_neg hphone, if_pos hlog]
    rw [if_pos hlog]
    refine .inr (logOnly_answered hnew hj ?_ hid ?_ rfl rfl)
    · unfold wouldBe
      split_ifs <;> simp
    · simp [prior, hj, hticket]
  · rw [if_neg hlog]
    refine checkIn_answered hnew hticket ?_
    simp only [judge, hticket, if_neg hevent, if_neg hphone, if_neg hlog]

end Fresh

section Replay

variable {stored : DoorScan}

/-- The answer a scan gets from the row its scan id has in the log. -/
def again (ctx : DoorContext) (item : ScanItem) (stored : DoorScan) (d : Db) : ScanAnswer :=
  if !sameScan ctx item stored then .scanIdConflict
  else if stored.result == .admitted &&
      (stored.ticketId.bind d.inBy).any (· ≠ some item.scanId) then .rescan
  else .logged stored.result

/-- What a replay comes to: an answer, and no change. -/
def Replays (ctx : DoorContext) (item : ScanItem) (stored : DoorScan) (d : Db) (s : Svc ScanResult) :
    Prop :=
  ∃ r, s.alone d = (.ok r, d) ∧ r.result = again ctx item stored d ∧
    r.practice = (stored.mode == .practice)

theorem replay_alone (ctx : DoorContext) (item : ScanItem) (stored : DoorScan) (d : Db) :
    Replays ctx item stored d (replay ctx item stored) := by
  unfold replay
  by_cases hsame : sameScan ctx item stored = true
  swap
  · rw [if_pos (by simp [hsame])]
    exact ⟨_, rfl, by simp [again, hsame], rfl⟩
  rw [if_neg (by simp [hsame])]
  rcases hid : stored.ticketId with _ | id
  · exact ⟨_, rfl, by simp [again, hsame, hid], rfl⟩
  have hread : (Svc.query (doorRepository.findTicket (.id id))).alone d = (.ok (d.doorTicket id), d) :=
    Svc.alone_query _ _ _
  dsimp only
  unfold Replays
  rw [Svc.alone_bind_ok hread]
  rcases ht : d.doorTicket id with _ | t
  · exact ⟨_, rfl, by simp [again, hsame, hid, Db.inBy, ht], rfl⟩
  dsimp only
  by_cases hevent : stored.result = .wrongEvent
  · rw [if_pos (by simp [hevent])]
    exact ⟨_, rfl, by simp [again, hsame, hid, Db.inBy, ht, hevent], rfl⟩
  rw [if_neg (by simpa using hevent)]
  split
  · rename_i c hadm hc
    by_cases hthis : c.checkedInScanId = item.scanId
    · rw [if_neg (not_not.2 hthis), Svc.alone_bind_ok (Svc.alone_now d)]
      exact ⟨_, rfl, by simp [again, hsame, hid, Db.inBy, ht, hadm, hc, hthis, ScanResult.describe], rfl⟩
    · rw [if_pos hthis]
      exact ⟨_, rfl, by simp [again, hsame, hid, Db.inBy, ht, hadm, hc, hthis], rfl⟩
  · rename_i hadm hc
    exact ⟨_, rfl, by simp [again, hsame, hid, Db.inBy, ht, hadm, hc], rfl⟩
  · rename_i hin _
    exact ⟨_, rfl, by simp [again, hsame, hid, Db.inBy, ht, hin, ScanResult.describe], rfl⟩
  · rename_i _ hstands hout
    have hadm : stored.result ≠ .admitted := fun h => by
      rcases hc : t.checkIn with _ | c
      · exact hout h hc
      · exact hstands c h hc
    exact ⟨_, rfl, by simp [again, hsame, hid, Db.inBy, ht, hadm, ScanResult.describe], rfl⟩

theorem scan_known (ctx : DoorContext) (hs : d.doorScans.lookup item.scanId = some stored) :
    Replays ctx item stored d (scan ctx item) := by
  have hread : (Svc.query (doorRepository.findScanByScanId item.scanId)).alone d =
      (.ok (some stored), d) := (Svc.alone_query _ _ _).trans (by rw [hs])
  unfold scan Replays
  rw [Svc.alone_bind_ok hread]
  exact replay_alone ctx item stored d

theorem scan_new (ctx : DoorContext) (hnew : d.doorScans.lookup item.scanId = none) :
    (∃ e, (scan ctx item).alone d = (.error e, d) ∧ Refused ctx item d) ∨
      ∃ r d', (scan ctx item).alone d = (.ok r, d') ∧ Answered ctx item d r d' := by
  have hread : (Svc.query (doorRepository.findScanByScanId item.scanId)).alone d =
      (.ok none, d) := (Svc.alone_query _ _ _).trans (by rw [hnew])
  unfold scan
  rw [Svc.alone_bind_ok hread]
  rcases fresh_alone ctx hnew with ⟨e, he, hrefused⟩ | ⟨r, d', hr, hans⟩
  · refine .inl ⟨e, (Svc.alone_tryCatch_error he).trans ?_, hrefused⟩
    split
    · rw [Svc.alone_bind_ok hread]
      rfl
    · rfl
  · exact .inr ⟨r, d', Svc.alone_tryCatch_ok hr, hans⟩

end Replay

section Stable

theorem inBy_eq (d : Db) (id : Id) : d.inBy id = (d.tickets.lookup id).bind fun t =>
    if (d.ticketTypes.lookup t.ticketTypeId).isSome && (d.orders.lookup t.orderId).isSome &&
        (d.events.lookup t.eventId).isSome then
      some (t.checkIn.map (·.checkedInScanId))
    else none := by
  unfold Db.inBy Db.doorTicket
  rcases d.tickets.lookup id with _ | t
  · rfl
  rcases hty : d.ticketTypes.lookup t.ticketTypeId with _ | ty
  · simp [hty]
  rcases ho : d.orders.lookup t.orderId with _ | o
  · simp [hty, ho]
  rcases he : d.events.lookup t.eventId with _ | e <;> simp [hty, ho, he]

theorem sameScan_logged (ctx : DoorContext) (item : ScanItem) (d : Db) :
    sameScan ctx item (logged ctx item d) = true := by
  have hpass : (logged ctx item d).passId = ctx.passId := rfl
  have hverdict : (logged ctx item d).doorVerdict = item.offline.map (·.verdict) := rfl
  have hticket : (logged ctx item d).ticketId = (named item d).1.map (·.id) := rfl
  have hinput : (logged ctx item d).input = (named item d).2 := rfl
  unfold sameScan
  rw [hpass, hverdict, hticket, hinput, if_neg (by simp), if_neg (by simp)]
  unfold named
  rcases item.ticketId with _ | id
  · simp
  · rcases ht : d.doorTicket id with _ | t
    · simp [ht]
    · obtain ⟨rfl, -⟩ := doorTicket_status ht
      simp [ht]

variable {r : ScanResult}

theorem Answered.inBy_self {id : Id} (h : Answered ctx item d r d')
    (hj : judge ctx item d = .admitted) (hid : (logged ctx item d).ticketId = some id) :
    d'.inBy id = some (some item.scanId) := by
  obtain ⟨t, row, hn, hrow, -, -, hins⟩ := h.admitted hj
  obtain ⟨htypes, horders, hevents, -, -⟩ := h.rest
  have hid' : (named item d).1.map (·.id) = some id := hid
  rw [hn] at hid'
  obtain rfl : t.id = id := by simpa using hid'
  have hthere : (d.inBy t.id).isSome := by simp [Db.inBy, doorTicket_of_named hn]
  rw [inBy_eq, hrow] at hthere
  rw [inBy_eq, hins, AList.lookup_insert, htypes, horders, hevents]
  simp only [Option.bind_some] at hthere ⊢
  split_ifs at hthere ⊢ with hrefs
  · rfl
  · simp at hthere

theorem Answered.inBy_kept {id : Id} (h : Answered ctx item d r d')
    (hid : judge ctx item d = .admitted → (logged ctx item d).ticketId ≠ some id) :
    d'.inBy id = d.inBy id := by
  obtain ⟨htypes, horders, hevents, -, -⟩ := h.rest
  have hrow : d'.tickets.lookup id = d.tickets.lookup id := by
    by_cases hj : judge ctx item d = .admitted
    · obtain ⟨t, row, hn, -, -, -, hins⟩ := h.admitted hj
      have hne : (named item d).1.map (·.id) ≠ some id := hid hj
      rw [hn] at hne
      rw [hins, AList.lookup_insert_ne fun heq => hne (by rw [heq]; rfl)]
    · rw [h.kept hj]
  rw [inBy_eq, inBy_eq, hrow, htypes, horders, hevents]

/-- A scan that was let in is let in again while its check-in stands. -/
theorem Answered.again_self (h : Answered ctx item d r d') :
    again ctx item (logged ctx item d) d' = .logged (judge ctx item d) := by
  have hresult : (logged ctx item d).result = judge ctx item d := rfl
  unfold again
  rw [sameScan_logged, hresult]
  by_cases hj : judge ctx item d = .admitted
  · obtain ⟨t, row, hn, -⟩ := h.admitted hj
    have hid : (logged ctx item d).ticketId = some t.id := by
      show (named item d).1.map (·.id) = some t.id
      rw [hn]
      rfl
    simp [hj, hid, h.inBy_self hj hid]
  · simp [hj]

/-- No other scan changes what one seen before is answered. -/
theorem Answered.again_other {ctx' : DoorContext} {other : ScanItem} {stored : DoorScan}
    (h : Answered ctx item d r d') (hne : other.scanId ≠ item.scanId) :
    again ctx' other stored d' = again ctx' other stored d := by
  suffices hany : (stored.ticketId.bind d'.inBy).any (· ≠ some other.scanId) =
      (stored.ticketId.bind d.inBy).any (· ≠ some other.scanId) by
    unfold again
    rw [hany]
  rcases hid : stored.ticketId with _ | id
  · rfl
  simp only [Option.bind_some]
  by_cases hthis : judge ctx item d = .admitted ∧ (logged ctx item d).ticketId = some id
  · obtain ⟨hj, hid'⟩ := hthis
    obtain ⟨t, row, hn, hrow, -, hout, -⟩ := h.admitted hj
    have ht := doorTicket_of_named hn
    have hid'' : (named item d).1.map (·.id) = some id := hid'
    rw [hn] at hid''
    obtain rfl : t.id = id := by simpa using hid''
    obtain ⟨-, row', hrow', -, hc⟩ := doorTicket_status ht
    obtain rfl := Option.some.inj (hrow.symm.trans hrow')
    have hbefore : d.inBy t.id = some none := by simp [Db.inBy, ht, ← hc, hout]
    rw [h.inBy_self hj hid', hbefore]
    simp [hne.symm]
  · rw [h.inBy_kept fun hj hid' => hthis ⟨hj, hid'⟩]

/-- Two sends under one scan id get one answer exactly if both are the scan in the log, or
neither. -/
theorem again_inj {other : ScanItem} {stored : DoorScan} (hid : other.scanId = item.scanId) :
    again ctx item stored d = again ctx other stored d ↔
      sameScan ctx item stored = sameScan ctx other stored := by
  unfold again
  rw [hid]
  rcases sameScan ctx item stored <;> rcases sameScan ctx other stored <;>
    simp only [Bool.not_true, Bool.not_false, if_true, Bool.false_eq_true, if_false, reduceCtorEq,
      iff_false]
  · split_ifs <;> simp
  · split_ifs <;> simp

end Stable

end doorService

end EchoAndAura
