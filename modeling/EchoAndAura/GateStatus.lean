import EchoAndAura.Joins
import EchoAndAura.OfflineDoor

/-!
# The status ping

`door.service`, `status`, with the queries behind it, and the scanner's `refresh`: every few seconds
a phone asks for the counts, its gate's last scans and the check-ins since its last ask.  Asks
overlap; a list may be downloaded between them, and only the newest ask's answer counts.
-/

namespace EchoAndAura

def doorRecentScans : Nat := 10
def doorCheckinsLimit : Nat := 500
def checkinsOverlapMs : Int := 10000

section Queries

/-- The check-ins of an event. -/
def Db.standing (d : Db) (eventId : Id) : List (WireCheckIn Id) :=
  (d.tickets.entries.filter (·.2.eventId == eventId)).filterMap fun e =>
    e.2.checkIn.map fun c => ⟨e.1, c.checkedInAt, some c.checkedInBy⟩

/-- Oldest first, and no more than the limit. -/
def checkInsAfter (there : List (WireCheckIn Id)) (since : Time) (limit : Nat) :
    List (WireCheckIn Id) :=
  ((there.filter (since < ·.at_)).mergeSort fun c c' => c.at_ ≤ c'.at_).take limit

def doorRepository.checkInsSince (eventId : Id) (since : Time) (limit : Nat) :
    Stmt (List (WireCheckIn Id)) :=
  .reads "door.checkInsSince" fun d => checkInsAfter (d.standing eventId) since limit

structure DoorCounts where
  issued : Nat
  checkedIn : Nat
  deriving DecidableEq, Repr

def doorRepository.counts (eventId : Id) : Stmt DoorCounts :=
  .reads "door.counts" fun d =>
    let tickets := d.tickets.entries.filter (·.2.eventId == eventId)
    ⟨tickets.countP (·.2.status == .issued), tickets.countP (·.2.checkIn.isSome)⟩

structure RecentScanRow where
  scanId : Id
  scan : DoorScan
  attendeeName : Option String
  ticketTypeName : Option String
  stillCheckedInByThisScan : Bool
  deriving DecidableEq, Repr

/-- The pass's scans, each with its ticket where that is one of the same event. -/
def Db.scansOfPass (d : Db) (passId : Id) : List RecentScanRow :=
  let scans := d.doorScans.entries.filter (·.2.passId == passId)
  let tickets := Table.leftJoin scans d.tickets (·.2.ticketId) fun s t => t.eventId == s.2.eventId
  let types :=
    Table.leftJoin tickets d.ticketTypes (fun s => s.2.map (·.ticketTypeId)) fun _ _ => true
  types.map fun s => {
    scanId := s.1.1.1, scan := s.1.1.2, attendeeName := s.1.2.map (·.attendeeName)
    ticketTypeName := s.2.map (·.name)
    stillCheckedInByThisScan :=
      (s.1.2.bind (·.checkIn)).map (·.checkedInScanId) == some s.1.1.1 }

/-- Newest first, by when it happened and then by when it came in. -/
def RecentScanRow.newer (r r' : RecentScanRow) : Bool :=
  scanTime r'.scan < scanTime r.scan ||
    (scanTime r.scan == scanTime r'.scan && r'.scan.receivedAt ≤ r.scan.receivedAt)

def doorRepository.recentScans (passId : Id) (limit : Nat) : Stmt (List RecentScanRow) :=
  .reads "door.recentScans" fun d => ((d.scansOfPass passId).mergeSort (·.newer ·)).take limit

end Queries

section Status

structure DoorRecentScan where
  scanId : Id
  result : ScanResultKind
  method : ScanMethod
  at_ : Time
  attendeeName : Option String
  ticketTypeName : Option String
  /-- This pass's own admit, still standing, inside the undo window. -/
  undoable : Bool
  deriving DecidableEq, Repr

structure DoorStatus where
  issued : Nat
  checkedIn : Nat
  practice : Bool
  recent : List DoorRecentScan
  checkIns : List (WireCheckIn Id)
  serverTime : Time
  deriving DecidableEq, Repr

def RecentScanRow.shown (r : RecentScanRow) (at_ : Time) : DoorRecentScan where
  scanId := r.scanId
  result := r.scan.result
  method := r.scan.method
  at_ := scanTime r.scan
  attendeeName := r.attendeeName
  ticketTypeName := r.ticketTypeName
  undoable := r.scan.result == .admitted && r.stillCheckedInByThisScan &&
    decide (at_ - scanTime r.scan ≤ doorUndoWindowMs)

/-- The time is taken after the reads. -/
def doorService.status (ctx : DoorContext) (since : Option Time) : Svc DoorStatus := do
  let counts ← Svc.query (doorRepository.counts ctx.eventId)
  let recent ← Svc.query (doorRepository.recentScans ctx.passId doorRecentScans)
  let checkIns ← match since with
    | some s => Svc.query (doorRepository.checkInsSince ctx.eventId s doorCheckinsLimit)
    | none => pure []
  let serverTime ← Svc.now
  return {
    issued := counts.issued, checkedIn := counts.checkedIn, practice := ctx.practice
    recent := recent.map (·.shown serverTime), checkIns, serverTime }

end Status

section Refresh

/-- How far an ask is. -/
inductive AskStage
  | sent
  | read (there : List (WireCheckIn Id))
  | answered (there : List (WireCheckIn Id)) (serverTime : Time)

structure StatusAsk where
  seq : Nat
  since : Option Time
  stage : AskStage

/-- A list on its way: its time is taken, then the tickets are read. -/
inductive Download
  | asked (asOf : Time)
  | read (l : OfflineList Id)

/-- A gate's phone and its event's database; `heard` is what the phone did so far. -/
structure DoorGate where
  db : Db
  phone : Phone Id
  heard : List (PhoneEvent Id)
  checkInsSince : Option Time
  statusSeq : Nat
  asks : List StatusAsk
  download : Option Download

inductive DoorGateEvent
  /-- A transaction of anyone, or time goes on. -/
  | commit (d : Db)
  /-- Any other stretch of the phone. -/
  | stretch (e : PhoneEvent Id)
  | downloadAsked
  | downloadRead (salt : String)
  | downloaded
  | downloadLost
  | ask
  | read (seq : Nat)
  | answer (seq : Nat)
  | reply (seq : Nat) (now : Time)
  | unheard (seq : Nat)

/-- The check-ins a stretch tells the phone of, and only a list or a status answer does. -/
def PhoneEvent.tells : PhoneEvent Id → Option (List (WireCheckIn Id))
  | .list l => some (l.entries.filterMap fun e => e.inAt.map fun t => ⟨e.id, t, e.inBy⟩)
  | .checkIns _ rows => some rows
  | _ => none

variable (digest : String → String → String) (nameLe : String → String → Bool) (ctx : DoorContext)

/-- The list of the tickets as they are. -/
def offlineListOf (salt : String) (asOf : Time) (d : Db) : OfflineList Id where
  eventId := ctx.eventId
  passId := ctx.passId
  salt := salt
  serverTime := asOf
  validFrom := ctx.window.validFrom
  validUntil := ctx.window.validUntil
  entries := (((d.tickets.entries.filter (·.2.eventId == ctx.eventId)).filterMap
    d.offlineRow).insertionSort fun a b => a.before nameLe b).map (·.entry digest salt)

namespace StatusAsk

def readAt (there : List (WireCheckIn Id)) (a : StatusAsk) : StatusAsk :=
  match a.stage with
  | .sent => { a with stage := .read there }
  | _ => a

def answerAt (serverTime : Time) (a : StatusAsk) : StatusAsk :=
  match a.stage with
  | .read there => { a with stage := .answered there serverTime }
  | _ => a

end StatusAsk

namespace DoorGate

/-- The phone as it starts. -/
def start (d : Db) : DoorGate where
  db := d
  phone := Phone.start ctx.passId ctx.pass.label
  heard := []
  checkInsSince := none
  statusSeq := 0
  asks := []
  download := none

def stretch (g : DoorGate) (e : PhoneEvent Id) : DoorGate :=
  { g with phone := (g.phone.step e).1, heard := g.heard ++ [e] }

/-- The check-ins since the last ask, or since the list was made. -/
def nextSince (g : DoorGate) : Option Time := g.checkInsSince.or (g.phone.list.map (·.serverTime))

def onAsk (g : DoorGate) (seq : Nat) (f : StatusAsk → StatusAsk) : DoorGate :=
  { g with asks := g.asks.map fun a => if a.seq = seq then f a else a }

def hearReply (g : DoorGate) (seq : Nat) (now : Time) : DoorGate :=
  match g.asks.find? (·.seq == seq) with
  | some ⟨_, since, .answered there serverTime⟩ =>
    let g := { g with asks := g.asks.filter (·.seq != seq) }
    if seq ≠ g.statusSeq then g
    else
      match since with
      | some s =>
        { g.stretch (.checkIns now (checkInsAfter there s doorCheckinsLimit)) with
          checkInsSince := some (serverTime - checkinsOverlapMs) }
      | none => g
  | _ => g

def step (g : DoorGate) : DoorGateEvent → DoorGate
  | .commit d => { g with db := d }
  | .stretch e => if e.tells.isSome then g else g.stretch e
  | .downloadAsked =>
    if g.download.isSome then g else { g with download := some (.asked g.db.clock) }
  | .downloadRead salt =>
    match g.download with
    | some (.asked asOf) =>
      { g with download := some (.read (offlineListOf digest nameLe ctx salt asOf g.db)) }
    | _ => g
  | .downloaded =>
    match g.download with
    | some (.read l) => { g.stretch (.list l) with download := none }
    | _ => g
  | .downloadLost => { g with download := none }
  | .ask =>
    { g with
      statusSeq := g.statusSeq + 1
      asks := g.asks ++ [⟨g.statusSeq + 1, g.nextSince, .sent⟩] }
  | .read seq => g.onAsk seq (·.readAt (g.db.standing ctx.eventId))
  | .answer seq => g.onAsk seq (·.answerAt g.db.clock)
  | .reply seq now => g.hearReply seq now
  | .unheard seq => { g with asks := g.asks.filter (·.seq != seq) }

/-- The check-ins the phone was told of. -/
def told (g : DoorGate) : List (WireCheckIn Id) := g.heard.flatMap fun e => e.tells.getD []

end DoorGate

end Refresh

end EchoAndAura
