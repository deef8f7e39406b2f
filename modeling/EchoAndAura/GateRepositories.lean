import EchoAndAura.Repositories

/-!
# The repositories of tickets and the gate

The one status write of a ticket, its check-in and the audited reverse are each one conditional
UPDATE.  The scan log is keyed by the phone's scan id; its unique index is what makes a retried
scan answer once.
-/

namespace EchoAndAura

section Tickets

namespace ticketsRepository

def codes (rows : List (Id × Ticket)) : List String := rows.map (·.2.code)

/-- The first unique index or CHECK a batch of tickets breaks, row by row. -/
def insertViolation (d : Db) (collision : Err) :
    List (Id × Ticket) → List (Id × Ticket) → Option Err
  | _, [] => none
  | earlier, r :: rows =>
    match r.2.broken with
    | some c => some (.check c)
    | none =>
      if (d.tickets.lookup r.1).isSome || earlier.any fun e => e.1 == r.1 then
        some (.unique "tickets_pkey")
      else if (d.ticketCodes.lookup r.2.code).isSome || earlier.any fun e => e.2.code == r.2.code then
        some collision
      else if (d.ticketPositions.lookup (r.2.orderId, r.2.position)).isSome ||
          earlier.any fun e => e.2.orderId == r.2.orderId && e.2.position == r.2.position then
        some (.unique "tickets_order_position_uq")
      else insertViolation d collision (r :: earlier) rows

def insertKeys (rows : List (Id × Ticket)) : List Row :=
  rows.flatMap fun r => [.ticket r.1, .code r.2.code, .position r.2.orderId r.2.position]

def insertWrites (rows : List (Id × Ticket)) : List Write :=
  rows.flatMap fun r =>
    [.ticket r.1 r.2, .code r.2.code r.1, .position r.2.orderId r.2.position r.1]

theorem insertViolation_congr {d d' : Db} {collision : Err} :
    ∀ {rows : List (Id × Ticket)} (earlier : List (Id × Ticket)),
      (∀ x ∈ insertKeys rows, Row.Same x d d') →
        insertViolation d collision earlier rows = insertViolation d' collision earlier rows
  | [], _, _ => rfl
  | r :: rows, earlier, h => by
    have h₁ : d.tickets.lookup r.1 = d'.tickets.lookup r.1 :=
      h (.ticket r.1) (by simp [insertKeys])
    have h₂ : d.ticketCodes.lookup r.2.code = d'.ticketCodes.lookup r.2.code :=
      h (.code r.2.code) (by simp [insertKeys])
    have h₃ : d.ticketPositions.lookup (r.2.orderId, r.2.position) =
        d'.ticketPositions.lookup (r.2.orderId, r.2.position) :=
      h (.position r.2.orderId r.2.position) (by simp [insertKeys])
    have ih : insertViolation d collision (r :: earlier) rows =
        insertViolation d' collision (r :: earlier) rows :=
      insertViolation_congr (r :: earlier) fun x hx => h x (List.mem_append_right _ hx)
    simp only [insertViolation, h₁, h₂, h₃, ih]

theorem insertWrites_row {rows : List (Id × Ticket)} {w : Write} (hw : w ∈ insertWrites rows)
    {x : Row} (hx : w.row = some x) : x ∈ insertKeys rows := by
  obtain ⟨r, hr, hw⟩ := List.mem_flatMap.1 hw
  refine List.mem_flatMap.2 ⟨r, hr, ?_⟩
  simp only [List.mem_cons, List.not_mem_nil, or_false] at hw
  rcases hw with rfl | rfl | rfl <;> cases hx <;> simp

def insertManyStmt (rows : List (Id × Ticket)) : Stmt (List (Id × Ticket)) :=
  .insert "tickets.insertMany" (insertKeys rows)
    (fun d => insertViolation d (.ticketCodeCollision (String.intercalate "," (codes rows))) [] rows)
    (insertWrites rows) rows (fun h => insertViolation_congr [] h)
    (fun _ hw _ hx => insertWrites_row hw hx)

def insertMany (rows : List (Id × Ticket)) : Tx (List (Id × Ticket)) :=
  if rows.isEmpty then pure [] else exec (insertManyStmt rows)

def findByCode (code : String) : Stmt (Option (Id × Ticket)) :=
  .reads "tickets.findByCode" fun d =>
    (d.tickets.entries.find? fun e => e.2.code == code).map fun e => (e.1, e.2)

def findByIdForUpdate (id : Id) : Stmt (Option Ticket) :=
  .onRow "tickets.findByIdForUpdate" (.ticket id) (·.tickets.lookup id)
    (fun
      | some t => .lock (some t)
      | none => .miss none)
    (fun h => h) (fun {c _ _} h => by cases c <;> cases h)

/-- `UPDATE tickets SET … WHERE id = $id AND …`: the row it left, where one matched. -/
def updateTicket (name : String) (id : Id) (cond : Ticket → Bool) (set : Ticket → Ticket) :
    Stmt (Option Ticket) :=
  .onRow name (.ticket id) (·.tickets.lookup id)
    (fun
      | some t =>
        if cond t then
          match (set t).broken with
          | some c => .refuse (.check c)
          | none => .write (.ticket id (set t)) (some (set t))
        else .miss none
      | none => .miss none)
    (fun h => h)
    (fun {c w r} h => by
      rcases c with _ | t
      · cases h
      · simp only at h
        split_ifs at h
        split at h <;> cases h
        rfl)

/-- The ticket status write: only while still issued and not checked in. -/
def cancel (id : Id) : Stmt (Option Ticket) :=
  updateTicket "tickets.cancel" id (fun t => t.status == .issued && t.checkIn.isNone)
    fun t => { t with status := .cancelled }

def checkInStmt (id : Id) (c : CheckIn) : Stmt (Option Ticket) :=
  updateTicket "tickets.checkIn" id (fun t => t.status == .issued && t.checkIn.isNone)
    fun t => { t with checkIn := some c }

/-- Gate check-in; without a time, the database's clock. -/
def checkIn (id : Id) (gate : String) (scanId : Id) (at_ : Option Time) : Tx (Option Ticket) := do
  let t ← match at_ with
    | some t => pure t
    | none => exec now
  exec (checkInStmt id { checkedInAt := t, checkedInBy := gate, checkedInScanId := scanId })

/-- The audited reverse: only while `scanId` is still the scan that checked the ticket in. -/
def undoCheckIn (id : Id) (scanId : Id) : Stmt (Option Ticket) :=
  updateTicket "tickets.undoCheckIn" id (fun t => t.checkIn.any fun c => c.checkedInScanId == scanId)
    fun t => { t with checkIn := none }

/-- Compare-and-swap on the status and the old name. -/
def updateAttendeeName (id : Id) (expectedName attendeeName : String) : Stmt (Option Ticket) :=
  updateTicket "tickets.updateAttendeeName" id
    (fun t => t.status == .issued && t.attendeeName == expectedName)
    fun t => { t with attendeeName }

def countIssuedByOrder (orderId : Id) : Stmt Nat :=
  .reads "tickets.countIssuedByOrder" fun d =>
    (d.tickets.rows.filter fun t => t.orderId == orderId && t.status == .issued).length

end ticketsRepository

end Tickets

section Gate

/-- A ticket as the gate reads it, with the names of its type, event and order. -/
structure DoorTicket where
  id : Id
  code : String
  status : TicketStatus
  attendeeName : String
  position : Int
  orderId : Id
  eventId : Id
  eventTitle : String
  ticketTypeName : String
  orderQuantity : Int
  checkIn : Option CheckIn
  checkedInPassId : Option Id
  buyerPhoneLast3 : Option String
  deriving DecidableEq, Repr

inductive TicketKey
  | id (id : Id)
  | code (code : String)
  deriving DecidableEq, Repr

/-- `right(phone, 3)`. -/
def last3 (phone : String) : String := String.ofList (phone.toList.drop (phone.toList.length - 3))

def Db.doorTicket (d : Db) (id : Id) : Option DoorTicket := do
  let t ← d.tickets.lookup id
  let ticketType ← d.ticketTypes.lookup t.ticketTypeId
  let order ← d.orders.lookup t.orderId
  let event ← d.events.lookup t.eventId
  some {
    id, code := t.code, status := t.status, attendeeName := t.attendeeName
    position := t.position, orderId := t.orderId, eventId := t.eventId
    eventTitle := event.title, ticketTypeName := ticketType.name
    orderQuantity := order.quantity, checkIn := t.checkIn
    checkedInPassId := t.checkIn.bind fun c =>
      (d.doorScans.lookup c.checkedInScanId).map (·.passId)
    buyerPhoneLast3 := order.buyerPhone.map last3 }

/-- A check-in a pass made that still stands. -/
structure PassCheckIn where
  id : Id
  code : String
  orderId : Id
  checkedInScanId : Id
  checkedInAt : Time
  deriving DecidableEq, Repr

/-- The check-in of a ticket, if a scan of the pass made it. -/
def Db.passCheckIn (d : Db) (passId : Id) (e : Sigma fun _ : Id => Ticket) : Option PassCheckIn :=
  match e.2.checkIn with
  | none => none
  | some c =>
    if (d.doorScans.lookup c.checkedInScanId).any fun s => s.passId == passId then
      some ⟨e.1, e.2.code, e.2.orderId, c.checkedInScanId, c.checkedInAt⟩
    else none

namespace doorRepository

def findPassByCode (code : String) : Stmt (Option (Id × DoorPass)) :=
  .reads "door.findPassByCode" fun d =>
    (d.doorPasses.entries.find? fun e => e.2.code == code).map fun e => (e.1, e.2)

def findPassById (id : Id) : Stmt (Option DoorPass) :=
  .reads "door.findPassById" (·.doorPasses.lookup id)

def revokePassStmt (id : Id) (t : Time) : Stmt (Option DoorPass) :=
  .onRow "door.revokePass" (.pass id) (·.doorPasses.lookup id)
    (fun
      | some p =>
        if p.revokedAt.isNone then
          .write (.pass id { p with revokedAt := some t }) (some { p with revokedAt := some t })
        else .miss none
      | none => .miss none)
    (fun h => h)
    (fun {c w r} h => by
      rcases c with _ | p
      · cases h
      · simp only at h
        split_ifs at h
        cases h
        rfl)

def revokePass (id : Id) : Tx (Option DoorPass) := do
  exec (revokePassStmt id (← exec now))

/-- Whether the pass is unrevoked, its row locked against a revoke for the rest of the
transaction. -/
def lockActivePass (id : Id) : Stmt Bool :=
  .onRow "door.lockActivePass" (.pass id) (·.doorPasses.lookup id)
    (fun
      | some p => if p.revokedAt.isNone then .share true else .miss false
      | none => .miss false)
    (fun h => h)
    (fun {c _ _} h => by
      rcases c with _ | p
      · cases h
      · simp only at h
        split_ifs at h)

def insertScanViolation (scanId : Id) (s : DoorScan) (d : Db) : Option Err :=
  match s.broken with
  | some c => some (.check c)
  | none => if (d.doorScans.lookup scanId).isSome then some (.doorScanIdTaken scanId) else none

def insertScanStmt (scanId : Id) (s : DoorScan) : Stmt Unit :=
  .insert "door.insertScan" [.scan scanId] (insertScanViolation scanId s) [.scan scanId s] ()
    (fun {d d'} h => by
      have h₁ : d.doorScans.lookup scanId = d'.doorScans.lookup scanId := h (.scan scanId) (by simp)
      simp only [insertScanViolation, h₁])
    (by rintro w hw x hx; simp at hw; subst hw; cases hx; simp)

/-- The log row, stamped with the database's clock. -/
def insertScan (scanId : Id) (s : Time → DoorScan) : Tx Unit := do
  exec (insertScanStmt scanId (s (← exec now)))

def findScanByScanId (scanId : Id) : Stmt (Option DoorScan) :=
  .reads "door.findScanByScanId" (·.doorScans.lookup scanId)

def findTicket (key : TicketKey) : Stmt (Option DoorTicket) :=
  .reads "door.findTicket" fun d =>
    match key with
    | .id id => d.doorTicket id
    | .code code => (d.tickets.entries.find? fun e => e.2.code == code).bind fun e => d.doorTicket e.1

def ticketsCheckedInByPass (passId : Id) : Stmt (List PassCheckIn) :=
  .reads "door.ticketsCheckedInByPass" fun d => d.tickets.entries.filterMap (d.passCheckIn passId)

end doorRepository

end Gate

end EchoAndAura
