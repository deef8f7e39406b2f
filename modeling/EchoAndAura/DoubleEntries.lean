import EchoAndAura.Joins
import EchoAndAura.Door

/-!
# Double entries

The admin's list of an event's offline admits that the server could not honour.  Nothing of it is
stored: it is read back from the scan log, joined with the pass, the ticket and the online scan that
a scan says it replaced.
-/

namespace EchoAndAura

structure OfflineConflictRow where
  scanId : Id
  gate : String
  result : ScanResultKind
  scannedAt : Option Time
  receivedAt : Time
  ticketId : Option Id
  orderId : Option Id
  attendeeName : Option String
  ticketTypeName : Option String
  priorCheckedInAt : Option Time
  priorCheckedInBy : Option String
  deriving DecidableEq, Repr

/-- A row of the log with what is joined to it. -/
structure JoinedScan where
  scanId : Id
  scan : DoorScan
  pass : DoorPass
  ticket : Option Ticket
  ticketType : Option TicketType
  supersededScan : Option DoorScan

def Db.joinedScans (d : Db) : List JoinedScan :=
  let scans := Table.innerJoin d.doorScans.entries d.doorPasses fun s => some s.2.passId
  let tickets := Table.leftJoin scans d.tickets (·.1.2.ticketId) fun s t => t.eventId == s.1.2.eventId
  let types := Table.leftJoin tickets d.ticketTypes (fun s => s.2.map (·.ticketTypeId)) fun _ _ => true
  let superseded := Table.leftJoin types d.doorScans (·.1.1.1.2.supersedesScanId) fun _ _ => true
  superseded.map fun s => ⟨s.1.1.1.1.1, s.1.1.1.1.2, s.1.1.1.2, s.1.1.2, s.1.2, s.2⟩

/-- The query's WHERE. -/
def JoinedScan.isConflict (eventId : Id) (s : JoinedScan) : Bool :=
  s.scan.eventId == eventId && s.scan.mode == .offline && s.scan.doorVerdict == some .admitted &&
    s.scan.result != .admitted && s.supersededScan.map (·.result) != some .admitted

def JoinedScan.conflictRow (s : JoinedScan) : OfflineConflictRow where
  scanId := s.scanId
  gate := s.pass.label
  result := s.scan.result
  scannedAt := s.scan.scannedAt
  receivedAt := s.scan.receivedAt
  ticketId := s.scan.ticketId
  orderId := s.ticket.map (·.orderId)
  attendeeName := s.ticket.map (·.attendeeName)
  ticketTypeName := s.ticketType.map (·.name)
  priorCheckedInAt := s.scan.priorCheckedInAt
  priorCheckedInBy := s.scan.priorCheckedInBy

def doorRepository.offlineConflicts (eventId : Id) : Stmt (List OfflineConflictRow) :=
  .reads "door.offlineConflicts" fun d =>
    ((d.joinedScans.filter (·.isConflict eventId)).map (·.conflictRow)).mergeSort
      fun r r' => r.receivedAt ≤ r'.receivedAt

/-- One double entry. -/
structure OfflineConflict where
  scanId : Id
  gate : String
  result : ScanResultKind
  admittedAt : Time
  syncedAt : Time
  ticketId : Option Id
  orderId : Option Id
  attendeeName : Option String
  ticketTypeName : Option String
  priorAt : Option Time
  priorGate : Option String
  deriving DecidableEq, Repr

def OfflineConflictRow.toConflict (r : OfflineConflictRow) : OfflineConflict where
  scanId := r.scanId
  gate := r.gate
  result := r.result
  admittedAt := r.scannedAt.getD r.receivedAt
  syncedAt := r.receivedAt
  ticketId := r.ticketId
  orderId := r.orderId
  attendeeName := r.attendeeName
  ticketTypeName := r.ticketTypeName
  priorAt := r.priorCheckedInAt
  priorGate := r.priorCheckedInBy

def doorService.offlineConflicts (eventId : Id) : Svc (List OfflineConflict) := do
  let rows ← Svc.query (doorRepository.offlineConflicts eventId)
  return rows.map (·.toConflict)

end EchoAndAura
