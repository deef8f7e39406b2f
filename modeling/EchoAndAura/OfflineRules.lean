import EchoAndAura.Door

/-!
# The door phone's rules

`server/lib/door-offline.ts` and `app/door/offline/rules.ts`: the list a door phone downloads, the
answer it gives from the list when there is no signal, and its two bookkeeping rules.  A mark is what
the phone knows of a check-in its list does not have.  `κ` is what the phone keys its tickets by.
-/

namespace EchoAndAura

variable {κ : Type}

section List

/-- One ticket on the phone: a digest in place of its code. -/
structure OfflineEntry (κ : Type) where
  d : String
  id : κ
  name : String
  type : String
  pos : Int
  of : Int
  status : TicketStatus
  inAt : Option Time
  inBy : Option String
  deriving DecidableEq, Repr

structure OfflineList (κ : Type) where
  eventId : Id
  passId : Id
  salt : String
  serverTime : Time
  validFrom : Time
  validUntil : Time
  entries : List (OfflineEntry κ)
  deriving DecidableEq, Repr

/-- `new Map(entries.map((e) => [e.d, e]))`: of two entries with one digest the last counts. -/
def OfflineList.index (l : OfflineList κ) (d : String) : Option (OfflineEntry κ) :=
  l.entries.reverse.find? (·.d == d)

/-- A check-in the phone knows of that is newer than its list. -/
structure LocalAdmit where
  at_ : Time
  gate : String
  byThisPhone : Bool
  deriving DecidableEq, Repr

structure OfflineJudgement (κ : Type) where
  result : ScanResultKind
  verdict : DoorVerdict
  practice : Bool
  entry : Option (OfflineEntry κ)
  at_ : Option Time := none
  gate : Option String := none
  byThisPhone : Option Bool := none
  deriving DecidableEq, Repr

/-- The offline answer for one read. -/
def judgeOffline (entry : Option (OfflineEntry κ)) (localAdmit : Option LocalAdmit)
    (now validFrom : Time) : OfflineJudgement κ :=
  let practice := decide (now < validFrom)
  let refusal := if practice then DoorVerdict.practice else .refused
  match entry with
  | none => { result := .unknown, verdict := refusal, practice, entry }
  | some e =>
    if e.status == .cancelled then { result := .cancelled, verdict := refusal, practice, entry }
    else
      match localAdmit with
      | some l =>
        { result := .alreadyIn, verdict := refusal, practice, entry, at_ := some l.at_
          gate := some l.gate, byThisPhone := some l.byThisPhone }
      | none =>
        match e.inAt with
        | some t =>
          { result := .alreadyIn, verdict := refusal, practice, entry, at_ := some t
            gate := e.inBy, byThisPhone := some false }
        | none =>
          if practice then { result := .practiceOk, verdict := .practice, practice, entry }
          else { result := .admitted, verdict := .admitted, practice, entry }

end List

section Rules

def markGraceMs : Int := 15000

/-- May a list read as of `listAsOf` replace a mark the server had at `knownSince`? -/
def listCovers (knownSince : Option Time) (listAsOf : Time) : Bool :=
  knownSince.any fun t => t + markGraceMs < listAsOf

/-- One scan answered offline, waiting to be sent. -/
structure OutboxItem (κ : Type) where
  scanId : Id
  passId : Id
  method : ScanMethod
  input : String
  scannedAt : Time
  verdict : DoorVerdict
  supersedesScanId : Option Id
  attempted : Bool
  ticketId : Option κ
  attendeeName : Option String
  ticketTypeName : Option String
  deriving DecidableEq, Repr

inductive OfflineUndo
  | done
  | sent
  | notFound
  deriving DecidableEq, Repr

/-- May the door undo this scan on the phone? Not once it was sent, even unanswered. -/
def localUndo (item : Option (OutboxItem κ)) (now : Time) (inFlight : Bool) : OfflineUndo :=
  match item with
  | none => .notFound
  | some i =>
    if i.verdict ≠ .admitted then .notFound
    else if i.attempted || inFlight then .sent
    else if doorUndoWindowMs < now - i.scannedAt then .notFound
    else .done

inductive MarkSource
  | own
  | server
  | relay
  deriving DecidableEq, Repr

structure Mark where
  at_ : Time
  gate : String
  byThisPhone : Bool
  knownSince : Option Time
  source : MarkSource
  deriving DecidableEq, Repr

def Mark.localAdmit (m : Mark) : LocalAdmit := ⟨m.at_, m.gate, m.byThisPhone⟩

/-- A row from the relay. -/
structure RelayRow (κ : Type) where
  ticketId : κ
  at_ : Time
  gate : Option String
  confirmed : Bool
  deriving DecidableEq, Repr

/-- What this phone tells the relay: its own admit, or taking it back. -/
inductive RelayOwnMark (κ : Type)
  | in_ (ticketId : κ) (at_ : Time)
  | undo (ticketId : κ)
  deriving DecidableEq, Repr

/-- A relay row against this phone's mark: the new mark, or none for no change. -/
def markFromRelay (existing : Option Mark) (row : RelayRow κ) (now : Time) : Option Mark :=
  match existing with
  | none =>
    some {
      at_ := row.at_, gate := row.gate.getD "?", byThisPhone := false
      knownSince := if row.confirmed then some now else none, source := .relay }
  | some m =>
    if m.source == .relay && (m.knownSince.isNone || row.confirmed) then
      some { m with
        at_ := row.at_, gate := row.gate.getD m.gate
        knownSince := if row.confirmed then some (m.knownSince.getD now) else none }
    else none

def sameCheckInMs : Nat := 1000

def undoSlack : Int := 5000

inductive UndoBy
  | gate
  | server
  deriving DecidableEq, Repr

structure RelayUndo where
  by_ : UndoBy
  at_ : Time
  deriving DecidableEq, Repr

/-- This phone's own admit, which the server has not had yet. -/
def Mark.isUnsent (m : Mark) : Bool := m.source == .own && m.knownSince.isNone

/-- Another gate's claim, which the server has not confirmed. -/
def Mark.isClaim (m : Mark) : Bool := m.source == .relay && m.knownSince.isNone

/-- Does an undo heard through the relay remove this phone's mark? -/
def relayUndoRemoves (mark : Option Mark) (undo : RelayUndo) : Bool :=
  match mark with
  | none => false
  | some m =>
    if m.isUnsent then false
    else if undo.by_ == .gate then m.isClaim
    else if m.isClaim then m.at_ ≤ undo.at_ + undoSlack
    else decide ((m.at_ - undo.at_).natAbs < sameCheckInMs)

/-- What this phone sends again each time its relay link opens. -/
def unconfirmedOwnClaims [DecidableEq κ] (marks : Table κ Mark) (outbox : List (OutboxItem κ)) :
    List (RelayOwnMark κ) :=
  (marks.entries.filterMap fun e => if e.2.isUnsent then some (.in_ e.1 e.2.at_) else none) ++
    outbox.filterMap fun i =>
      match i.ticketId with
      | some id =>
        if i.verdict == .undone && (marks.lookup id).isNone then some (.undo id) else none
      | none => none

end Rules

end EchoAndAura
