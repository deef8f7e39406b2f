import EchoAndAura.GateRepositories
import EchoAndAura.Orders

/-!
# The gate

`door.service`: a scan is one short transaction around one conditional UPDATE of the ticket, and
every attempt is logged under the phone's scan id, so that a retry is answered from the log.
-/

namespace EchoAndAura

/-- The offline scan's verdict and the online request it replaced. -/
structure OfflineScan where
  verdict : DoorVerdict
  supersedesScanId : Option Id
  deriving DecidableEq, Repr

structure ScanItem where
  scanId : Id
  input : Option String
  ticketId : Option Id
  phoneLast3 : Option String
  method : ScanMethod
  scannedAt : Option Time
  offline : Option OfflineScan
  deriving DecidableEq, Repr

structure DoorContext where
  passId : Id
  pass : DoorPass
  eventId : Id
  event : Event
  window : DoorWindow
  practice : Bool
  deriving DecidableEq, Repr

/-- The result kinds of the log, and the two that are never logged. -/
inductive ScanAnswer
  | logged (result : ScanResultKind)
  | scanIdConflict
  | rescan
  deriving DecidableEq, Repr

/-- What the door screen shows. -/
structure ScanResult where
  scanId : Id
  result : ScanAnswer
  practice : Bool
  attendeeName : Option String := none
  ticketTypeName : Option String := none
  position : Option Int := none
  total : Option Int := none
  at_ : Option Time := none
  gate : Option String := none
  byThisPass : Option Bool := none
  secondsAgo : Option Int := none
  otherEventTitle : Option String := none
  replayed : Bool := false
  deriving DecidableEq, Repr

def unknownTicketId : String := "<unknown-ticket-id>"

def ScanResult.describe (r : ScanResult) (t : DoorTicket) : ScanResult :=
  { r with
    attendeeName := some t.attendeeName, ticketTypeName := some t.ticketTypeName
    position := some t.position, total := some t.orderQuantity }

def secondsBetween (later earlier : Time) : Int := max 0 ((later - earlier) / 1000)

namespace doorService

/-- What a replay must match: same pass, same thing scanned, same verdict. -/
def sameScan (ctx : DoorContext) (item : ScanItem) (stored : DoorScan) : Bool :=
  if stored.passId ≠ ctx.passId then false
  else if item.offline.map (·.verdict) ≠ stored.doorVerdict then false
  else
    match item.ticketId with
    | some id => stored.ticketId == some id ||
        (stored.ticketId.isNone && stored.input == unknownTicketId)
    | none =>
      let raw := item.input.getD ""
      stored.input == scanLogInput raw (parseScanToken raw)

/-- A scan id seen before: the same answer again, rebuilt from the log row. -/
def replay (ctx : DoorContext) (item : ScanItem) (stored : DoorScan) : Svc ScanResult := do
  let practice := stored.mode == .practice
  if !sameScan ctx item stored then
    return { scanId := item.scanId, result := .scanIdConflict, practice }
  let base : ScanResult := { scanId := item.scanId, result := .logged stored.result, practice }
  let some ticketId := stored.ticketId | return base
  let some ticket ← Svc.query (doorRepository.findTicket (.id ticketId)) | return base
  if stored.result == .wrongEvent then
    return { base with otherEventTitle := some ticket.eventTitle }
  let described := { base.describe ticket with replayed := true }
  match stored.result, stored.priorCheckedInAt, ticket.checkIn with
  | .admitted, _, some c =>
    if c.checkedInScanId ≠ item.scanId then
      return { scanId := item.scanId, result := .rescan, practice }
    let t ← Svc.now
    return { described with
      at_ := some c.checkedInAt, gate := some ctx.pass.label
      secondsAgo := some (secondsBetween t c.checkedInAt) }
  | .admitted, _, none => return { scanId := item.scanId, result := .rescan, practice }
  | .alreadyIn, some prior, checkIn =>
    return { described with
      at_ := some prior, gate := stored.priorCheckedInBy
      byThisPass := some (ticket.checkedInPassId == some ctx.passId &&
        checkIn.map (·.checkedInAt) == some prior)
      secondsAgo := some (secondsBetween stored.receivedAt prior) }
  | _, _, _ => return described

/-- What a fresh scan knows when it has read its ticket. -/
structure Attempt where
  ctx : DoorContext
  item : ScanItem
  practice : Bool
  input : String
  offlineAt : Option Time

/-- The log row of an attempt, less when it was received. -/
def Attempt.log (a : Attempt) (ticketId : Option Id) (result : ScanResultKind)
    (prior : Option CheckIn) (receivedAt : Time) : DoorScan where
  passId := a.ctx.passId
  eventId := a.ctx.eventId
  ticketId := ticketId
  input := a.input
  result := result
  method := a.item.method
  mode := if a.item.offline.isSome then .offline else if a.practice then .practice else .online
  priorCheckedInAt := prior.map (·.checkedInAt)
  priorCheckedInBy := prior.map (·.checkedInBy)
  scannedAt := a.offlineAt.or a.item.scannedAt
  receivedAt := receivedAt
  doorVerdict := a.item.offline.map (·.verdict)
  supersedesScanId := a.item.offline.bind (·.supersedesScanId)

def Attempt.answer (a : Attempt) (result : ScanResultKind) : ScanResult :=
  { scanId := a.item.scanId, result := .logged result, practice := a.practice }

def checkedInEvent (a : Attempt) (t : DoorTicket) : OrderEvent where
  orderId := t.orderId
  actor := s!"door:{a.ctx.pass.label}"
  action := .ticketCheckedIn
  fromStatus := none
  toStatus := none
  note := .checkedIn t.code a.ctx.pass.label a.item.method a.item.offline.isSome

/-- The check-in won: its audit row and its log row. -/
def letIn (a : Attempt) (t : DoorTicket) (admitted : Ticket) : Tx ScanResult := do
  exec (ordersRepository.insertEvent (checkedInEvent a t))
  doorRepository.insertScan a.item.scanId (a.log (some t.id) .admitted none)
  return { (a.answer .admitted).describe t with
    attendeeName := some admitted.attendeeName
    at_ := admitted.checkIn.map (·.checkedInAt), gate := some a.ctx.pass.label }

/-- The check-in lost: the ticket is cancelled, or in already. -/
def turnAway (a : Attempt) (t : DoorTicket) (latest : Option DoorTicket) : Tx ScanResult := do
  match latest with
  | some latest =>
    if latest.status == .cancelled then
      doorRepository.insertScan a.item.scanId (a.log (some t.id) .cancelled none)
      return (a.answer .cancelled).describe t
    doorRepository.insertScan a.item.scanId (a.log (some t.id) .alreadyIn latest.checkIn)
    let secondsAgo ← match latest.checkIn with
      | some c => do pure (some (secondsBetween (← exec now) c.checkedInAt))
      | none => pure none
    return { (a.answer .alreadyIn).describe latest with
      at_ := latest.checkIn.map (·.checkedInAt), gate := latest.checkIn.map (·.checkedInBy)
      byThisPass := some (latest.checkedInPassId == some a.ctx.passId), secondsAgo }
  | none =>
    doorRepository.insertScan a.item.scanId (a.log (some t.id) .cancelled none)
    return (a.answer .cancelled).describe t

/-- The check-in and, when it lost to one that was undone since, a second try: the ticket it left,
and what was read in between when that still stands. -/
def tryCheckIn (a : Attempt) (t : DoorTicket) : Tx (Option Ticket × Option DoorTicket) := do
  let checkIn := ticketsRepository.checkIn t.id a.ctx.pass.label a.item.scanId a.offlineAt
  if let some admitted ← checkIn then return (some admitted, none)
  let current ← exec (doorRepository.findTicket (.id t.id))
  if current.any fun c => c.status == .issued && c.checkIn.isNone then
    return (← checkIn, none)
  return (none, current)

def scanTx (a : Attempt) (t : DoorTicket) : Tx ScanResult := do
  if !(← exec (doorRepository.lockActivePass a.ctx.passId)) then
    .throw (.doorPassRevoked a.ctx.passId)
  let (admitted, current) ← tryCheckIn a t
  match admitted with
  | some admitted => letIn a t admitted
  | none =>
    let latest ← match current with
      | some c => pure (some c)
      | none => exec (doorRepository.findTicket (.id t.id))
    turnAway a t latest

/-- A rehearsal, or an offline scan whose door let nobody in: the answer it would get. -/
def wouldBe (practice : Bool) (t : DoorTicket) : ScanResultKind :=
  if t.status == .cancelled then .cancelled
  else if t.checkIn.isSome then .alreadyIn
  else if practice then .practiceOk
  else .turnedAway

/-- The ticket a scan names, and what the log says was scanned. -/
def scanned (item : ScanItem) : Svc (Option DoorTicket × String) :=
  match item.ticketId with
  | some id => do
    let t ← Svc.query (doorRepository.findTicket (.id id))
    return (t, (t.map (·.code)).getD unknownTicketId)
  | none => do
    let raw := item.input.getD ""
    let code := parseScanToken raw
    let some c := code | return (none, scanLogInput raw code)
    return (← Svc.query (doorRepository.findTicket (.code c)), scanLogInput raw code)

/-- An offline scan happened when the phone says, clamped to [doors open, now]. -/
def offlineTime (ctx : DoorContext) (item : ScanItem) : Svc (Option Time) :=
  match item.offline, item.scannedAt with
  | some _, some t => do return some (clampOfflineTime t ctx.window.validFrom (← Svc.now))
  | _, _ => return none

/-- An attempt that checks nobody in is logged, and that is all. -/
def logOnly (a : Attempt) (ticketId : Option Id) (result : ScanResultKind)
    (prior : Option CheckIn) : Svc Unit :=
  Svc.transaction (doorRepository.insertScan a.item.scanId (a.log ticketId result prior))

/-- The check-in for real; once committed, every other gate hears of it. -/
def checkIn (a : Attempt) (t : DoorTicket) : Svc ScanResult := do
  let result ← Svc.transaction (scanTx a t)
  if result.result ≠ .logged .admitted then return result
  let some t' := result.at_
    | do
      Svc.say (.announce a.ctx.eventId (.checkedIn t.id (← Svc.now) a.ctx.pass.label))
      return result
  Svc.say (.announce a.ctx.eventId (.checkedIn t.id t' a.ctx.pass.label))
  return result

def fresh (ctx : DoorContext) (item : ScanItem) : Svc ScanResult := do
  let practice := ctx.practice || item.offline.any fun o => o.verdict == .practice
  let (ticket, input) ← scanned item
  let a : Attempt := { ctx, item, practice, input, offlineAt := ← offlineTime ctx item }
  let some t := ticket
    | do
      logOnly a none .unknown none
      return a.answer .unknown
  if t.eventId ≠ ctx.eventId then
    logOnly a (some t.id) .wrongEvent none
    return { a.answer .wrongEvent with otherEventTitle := some t.eventTitle }
  if item.method == .search && t.buyerPhoneLast3.isSome && item.phoneLast3 ≠ t.buyerPhoneLast3 then
    logOnly a (some t.id) .phoneMismatch none
    return (a.answer .phoneMismatch).describe t
  if practice || item.offline.any fun o => o.verdict ≠ .admitted then
    let would := wouldBe practice t
    let prior := if would == .alreadyIn then t.checkIn else none
    logOnly a (some t.id) would prior
    return { (a.answer would).describe t with
      at_ := prior.map (·.checkedInAt), gate := prior.map (·.checkedInBy) }
  checkIn a t

/-- One scan, idempotent by its scan id. -/
def scan (ctx : DoorContext) (item : ScanItem) : Svc ScanResult := do
  match ← Svc.query (doorRepository.findScanByScanId item.scanId) with
  | some existing => replay ctx item existing
  | none =>
    tryCatch (fresh ctx item) fun e => do
      if let .doorScanIdTaken _ := e then
        if let some stored ← Svc.query (doorRepository.findScanByScanId item.scanId) then
          return ← replay ctx item stored
      throw e

/-- One after another; an item whose scan id was answered in this batch gets that answer. -/
def scanBatch (ctx : DoorContext) :
    List ScanItem → List (Id × ScanResult) → Svc (List ScanResult)
  | [], _ => return []
  | item :: items, seen => do
    let r ← match seen.lookup item.scanId with
      | some r => pure r
      | none => scan ctx item
    return r :: (← scanBatch ctx items ((item.scanId, r) :: seen))

/-- The credential check of every request from a door. -/
def authenticate (rawCode : String) : Svc (Option DoorContext) := do
  let some code := normalisePassCode rawCode | return none
  let some (passId, pass) ← Svc.query (doorRepository.findPassByCode code) | return none
  if pass.revokedAt.isSome then return none
  let some event ← Svc.query (eventsRepository.findById pass.eventId) | return none
  if event.status == .draft then return none
  let window := doorWindow event
  let t ← Svc.now
  if window.validUntil < t then return none
  return some {
    passId, pass, eventId := pass.eventId, event, window, practice := t < window.validFrom }

/-- The relay hears of a revocation with the last moment the pass could be used. -/
def announceRevoke (eventId passId : Id) : Svc Unit := do
  let t ← Svc.now
  let event ← tryCatch (Svc.query (eventsRepository.findById eventId)) fun _ => pure none
  let until_ := (event.map fun e => (doorWindow e).validUntil).getD (t + 48 * hourMs)
  Svc.say (.announce eventId (.revoke passId until_))

def passOfEvent (eventId passId : Id) : Svc DoorPass := do
  let some pass ← Svc.query (doorRepository.findPassById passId) | throw (.doorPassNotFound passId)
  if pass.eventId ≠ eventId then throw (.doorPassNotFound passId)
  return pass

def revokePass (eventId passId : Id) : Svc Unit := do
  let _ ← passOfEvent eventId passId
  let _ ← Svc.transaction (doorRepository.revokePass passId)
  announceRevoke eventId passId

def revokedEvent (t : PassCheckIn) (label reason actor : String) : OrderEvent where
  orderId := t.orderId
  actor := actor
  action := .ticketCheckInUndone
  fromStatus := none
  toStatus := none
  note := .undoneByRevoke t.code label reason

/-- The check-ins among `standing` that still stand are undone, each with its audit row. -/
def undoStanding (label reason actor : String) : List PassCheckIn → Tx (List PassCheckIn)
  | [] => return []
  | t :: standing => do
    let some _ ← exec (ticketsRepository.undoCheckIn t.id t.checkedInScanId)
      | undoStanding label reason actor standing
    exec (ordersRepository.insertEvent (revokedEvent t label reason actor))
    return t :: (← undoStanding label reason actor standing)

def revokeAndUndoTx (passId : Id) (label reason actor : String) : Tx (List PassCheckIn) := do
  let _ ← doorRepository.revokePass passId
  let standing ← exec (doorRepository.ticketsCheckedInByPass passId)
  undoStanding label reason actor standing

def announceUndone (eventId : Id) : List PassCheckIn → Svc Unit
  | [] => return ()
  | t :: undone => do
    Svc.say (.announce eventId (.undo t.id t.checkedInAt))
    announceUndone eventId undone

/-- Revokes a leaked pass and undoes every check-in it made that still stands: how many. -/
def revokeAndUndo (eventId passId : Id) (reason actor : String) : Svc Nat := do
  let pass ← passOfEvent eventId passId
  let undone ← Svc.transaction (revokeAndUndoTx passId pass.label reason actor)
  announceRevoke eventId passId
  announceUndone eventId undone
  return undone.length

def undoneAtDoorEvent (t : Ticket) (label : String) (reason : DoorUndoReason) : OrderEvent where
  orderId := t.orderId
  actor := s!"door:{label}"
  action := .ticketCheckInUndone
  fromStatus := none
  toStatus := none
  note := .undoneAtDoor t.code reason

def undoOwnAdmitTx (passId : Id) (label : String) (ticketId scanId : Id)
    (reason : DoorUndoReason) : Tx (Option Time) := do
  if !(← exec (doorRepository.lockActivePass passId)) then .throw (.doorPassRevoked passId)
  let before ← exec (doorRepository.findTicket (.id ticketId))
  let some undone ← exec (ticketsRepository.undoCheckIn ticketId scanId)
    | .throw (.checkInUndoRefused .notCheckedIn)
  exec (ordersRepository.insertEvent (undoneAtDoorEvent undone label reason))
  return (before.bind (·.checkIn)).map (·.checkedInAt)

/-- The door undoes its own admission, within two minutes. -/
def undoOwnAdmit (ctx : DoorContext) (scanId : Id) (reason : DoorUndoReason) : Svc Unit := do
  let some scan ← Svc.query (doorRepository.findScanByScanId scanId)
    | throw (.checkInUndoRefused .notFound)
  let some ticketId := scan.ticketId | throw (.checkInUndoRefused .notFound)
  if scan.result ≠ .admitted then throw (.checkInUndoRefused .notFound)
  if scan.passId ≠ ctx.passId then throw (.checkInUndoRefused .notYours)
  if doorUndoWindowMs < (← Svc.now) - scanTime scan then throw (.checkInUndoRefused .tooLate)
  let undoneAt ← Svc.transaction (undoOwnAdmitTx ctx.passId ctx.pass.label ticketId scanId reason)
  if let some t := undoneAt then Svc.say (.announce ctx.eventId (.undo ticketId t))

def undoneByAdminEvent (undone : Ticket) (was : Option CheckIn) (reason actor : String) :
    OrderEvent where
  orderId := undone.orderId
  actor := actor
  action := .ticketCheckInUndone
  fromStatus := none
  toStatus := none
  note := .undoneByAdmin undone.code (was.map fun c => (c.checkedInAt, c.checkedInBy)) reason

structure UndoneByAdmin where
  code : String
  eventId : Id
  at_ : Option Time
  deriving DecidableEq, Repr

def undoCheckInAsAdminTx (ticketId orderId expectedScanId : Id) (reason actor : String) :
    Tx UndoneByAdmin := do
  let some before ← exec (doorRepository.findTicket (.id ticketId)) | .throw (.ticketNotFound ticketId)
  if before.orderId ≠ orderId then .throw (.ticketNotFound ticketId)
  let some undone ← exec (ticketsRepository.undoCheckIn ticketId expectedScanId)
    | .throw (.checkInUndoRefused .notCheckedIn)
  exec (ordersRepository.insertEvent (undoneByAdminEvent undone before.checkIn reason actor))
  return {
    code := undone.code, eventId := before.eventId, at_ := before.checkIn.map (·.checkedInAt) }

/-- A compare-and-swap on what the page showed: the order and the check-in's scan id. -/
def undoCheckInAsAdmin (ticketId orderId expectedScanId : Id) (reason actor : String) :
    Svc String := do
  let out ← Svc.transaction (undoCheckInAsAdminTx ticketId orderId expectedScanId reason actor)
  if let some t := out.at_ then Svc.say (.announce out.eventId (.undo ticketId t))
  return out.code

end doorService

end EchoAndAura
