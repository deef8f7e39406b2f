import EchoAndAura.OfflineRules

/-!
# The door phone

`app/door/offline/use-offline.ts`, one stretch between two awaits at a time: the phone's list, its
marks and its outbox, and what each stretch tells the relay.  `now` is the phone's clock corrected to
the server's, read where the source reads it; `digest` is the salted hash.
-/

namespace EchoAndAura

variable {κ : Type}

/-- The first `n` UTF-16 code units; half a pair stays a character that no code holds. -/
def jsSlice : Nat → List Char → List Char
  | 0, _ => []
  | _, [] => []
  | n + 1, c :: cs =>
    if 0xffff < c.toNat then
      match n with
      | 0 => ['\uFFFD']
      | n + 1 => c :: jsSlice n cs
    else c :: jsSlice n cs

/-- What goes to the server and the outbox: the code, never stray QR text. -/
def loggableInput (raw : String) : String :=
  let trimmed := String.ofList (jsSlice scanInputMax (trim raw).toList)
  (parseScanToken trimmed).getD (String.ofList (List.replicate (max 1 (jsLength trimmed)) '#'))

/-- The send in progress, at its await: the batch being saved, on its way, or taken out of the
store.  `again` is what comes after: the rest of the outbox, or the end. -/
inductive Sending (κ : Type)
  | saving (batch : List (OutboxItem κ))
  | inFlight (batch : List (OutboxItem κ))
  | removing (again : Bool)
  deriving DecidableEq, Repr

structure Phone (κ : Type) where
  passId : Id
  gate : String
  list : Option (OfflineList κ)
  marks : Table κ Mark
  outbox : List (OutboxItem κ)
  inFlight : List Id
  running : Option (Sending κ)
  /-- Callers of `sync` that wait for the send in progress. -/
  waiting : Nat

/-- What a read takes with it over the await of its digest. -/
structure Read (κ : Type) where
  raw : String
  entry : Option (OfflineEntry κ)
  at_ : Time
  validFrom : Time

/-- A check-in as the status ping tells it. -/
structure WireCheckIn (κ : Type) where
  ticketId : κ
  at_ : Time
  gate : Option String
  deriving DecidableEq, Repr

def findEntry (digest : String → String → String) (l : OfflineList κ) (raw : String) :
    Option (OfflineEntry κ) :=
  (parseScanToken raw).bind fun code => l.index (digest l.salt code)

def syncBatch : Nat := 50

namespace Phone

variable [DecidableEq κ]

/-- The phone at its start: nothing kept, its list not there yet. -/
def start (passId : Id) (gate : String) : Phone κ where
  passId := passId
  gate := gate
  list := none
  marks := ∅
  outbox := []
  inFlight := []
  running := none
  waiting := 0

def mark (p : Phone κ) (id : κ) : Option Mark := p.marks.lookup id

def setMark (p : Phone κ) (id : κ) (m : Mark) : Phone κ := { p with marks := p.marks.insert id m }

def dropMark (p : Phone κ) (id : κ) : Phone κ := { p with marks := p.marks.erase id }

/-- The mark of an admit made here that the server does not have. -/
def ownMark (p : Phone κ) (at_ : Time) : Mark where
  at_ := at_
  gate := p.gate
  byThisPhone := true
  knownSince := none
  source := .own

section List

/-- Still in the outbox: the server has not got it, so no list knows. -/
def keepUnsent (p : Phone κ) (i : OutboxItem κ) : Phone κ :=
  match i.ticketId with
  | some id => if i.verdict == .admitted then p.setMark id (p.ownMark i.scannedAt) else p
  | none => p

/-- Keep only the marks the new list cannot know of. -/
def adopt (p : Phone κ) (l : OfflineList κ) : Phone κ :=
  let covered := p.marks.entries.filter fun e => listCovers e.2.knownSince l.serverTime
  let kept := covered.foldl (fun p e => p.dropMark e.1) { p with list := some l }
  kept.outbox.foldl keepUnsent kept

end List

section Answers

variable (digest : String → String → String)

/-- What `answer` and `peek` take into the await: none without a usable list. -/
def read (p : Phone κ) (now : Time) (raw : String) : Option (Read κ) :=
  match p.list with
  | none => none
  | some l =>
    if l.validUntil < now then none
    else some { raw, entry := findEntry digest l raw, at_ := now, validFrom := l.validFrom }

def judge (p : Phone κ) (r : Read κ) : OfflineJudgement κ :=
  judgeOffline r.entry (r.entry.bind fun e => (p.mark e.id).map (·.localAdmit)) r.at_ r.validFrom

def shown (p : Phone κ) (r : Read κ) (scanId : Id) : ScanResult :=
  let j := p.judge r
  let admitted := j.result == .admitted
  { scanId, result := .logged j.result, practice := j.practice
    attendeeName := r.entry.map (·.name), ticketTypeName := r.entry.map (·.type)
    position := r.entry.map (·.pos), total := r.entry.map (·.of)
    at_ := j.at_.or (if admitted then some r.at_ else none)
    gate := j.gate.or (if admitted then some p.gate else none), byThisPass := j.byThisPhone
    secondsAgo := j.at_.map (secondsBetween r.at_) }

def outboxItem (p : Phone κ) (r : Read κ) (method : ScanMethod) (supersedesScanId : Option Id)
    (scanId : Id) (at_ : Time) (verdict : DoorVerdict) : OutboxItem κ where
  scanId := scanId
  passId := p.passId
  method := method
  input := loggableInput r.raw
  scannedAt := at_
  verdict := verdict
  supersedesScanId := supersedesScanId
  attempted := false
  ticketId := r.entry.map (·.id)
  attendeeName := r.entry.map (·.name)
  ticketTypeName := r.entry.map (·.type)

def queue (p : Phone κ) (i : OutboxItem κ) : Phone κ := { p with outbox := p.outbox ++ [i] }

/-- `answer` after its digest: judged, marked, queued. -/
def answer (p : Phone κ) (r : Read κ) (method : ScanMethod) (supersedesScanId : Option Id)
    (scanId : Id) : Phone κ × List (RelayOwnMark κ) :=
  let verdict := (p.judge r).verdict
  let item := p.outboxItem r method supersedesScanId scanId r.at_ verdict
  match r.entry with
  | some e =>
    if verdict == .admitted then
      ((p.setMark e.id (p.ownMark r.at_)).queue item, [.in_ e.id r.at_])
    else (p.queue item, [])
  | none => (p.queue item, [])

/-- `learn` after its digest, the ticket known: an online answer. -/
def learn (p : Phone κ) (now : Time) (id : κ) (result : ScanResult) :
    Phone κ × List (RelayOwnMark κ) :=
  if p.list.isNone then (p, [])
  else if result.result ≠ .logged .admitted ∧ result.result ≠ .logged .alreadyIn then (p, [])
  else if (p.mark id).any (·.source ≠ .relay) then (p, [])
  else
    let own := result.result == .logged .admitted || result.byThisPass == some true
    let at_ := result.at_.getD now
    (p.setMark id {
      at_, gate := result.gate.getD p.gate, byThisPhone := own, knownSince := some now
      source := if own then .own else .server },
      if result.result == .logged .admitted then [.in_ id at_] else [])

/-- The phone showed ADMIT before the server answered. -/
def admitEarly (p : Phone κ) (now : Time) (id : κ) : Phone κ × List (RelayOwnMark κ) :=
  (p.setMark id (p.ownMark now), [.in_ id now])

/-- The server's late answer to an early ADMIT. -/
def settleEarly (p : Phone κ) (now : Time) (id : κ) (result : ScanResult) :
    Phone κ × List (RelayOwnMark κ) :=
  if result.result = .logged .admitted then
    match p.mark id with
    | some m => (p.setMark id { m with knownSince := some now, at_ := result.at_.getD m.at_ }, [])
    | none => (p, [])
  else if result.result = .logged .alreadyIn then
    (p.setMark id {
      at_ := result.at_.getD now, gate := result.gate.getD p.gate
      byThisPhone := result.byThisPass == some true, knownSince := some now, source := .server }, [])
  else (p.dropMark id, [.undo id])

/-- `queueEarlyAdmit` after its digest: what the door showed, never judged again. -/
def queueEarlyAdmit (p : Phone κ) (now : Time) (r : Read κ) (method : ScanMethod)
    (supersedesScanId scanId : Id) : Phone κ :=
  p.queue (p.outboxItem r method (some supersedesScanId) scanId now .admitted)

end Answers

section Others

def onList (p : Phone κ) (id : κ) : Bool := p.list.any fun l => l.entries.any (·.id == id)

def learnCheckIn (now : Time) (p : Phone κ) (row : WireCheckIn κ) : Phone κ :=
  if !p.onList row.ticketId then p
  else if (p.mark row.ticketId).any (·.source ≠ .relay) then p
  else p.setMark row.ticketId {
    at_ := row.at_, gate := row.gate.getD "?", byThisPhone := row.gate == some p.gate
    knownSince := some now, source := .server }

/-- Check-ins other gates made, from the status ping. -/
def learnCheckIns (p : Phone κ) (now : Time) (rows : List (WireCheckIn κ)) : Phone κ :=
  rows.foldl (learnCheckIn now) p

def learnRelayRow (now : Time) (p : Phone κ) (row : RelayRow κ) : Phone κ :=
  if !p.onList row.ticketId then p
  else
    match markFromRelay (p.mark row.ticketId) row now with
    | some m => p.setMark row.ticketId m
    | none => p

def learnRelayRows (p : Phone κ) (now : Time) (rows : List (RelayRow κ)) : Phone κ :=
  rows.foldl (learnRelayRow now) p

/-- An undo through the relay; an admit the server has not had is told again. -/
def learnRelayUndo (p : Phone κ) (id : κ) (undo : RelayUndo) : Phone κ × List (RelayOwnMark κ) :=
  if relayUndoRemoves (p.mark id) undo then (p.dropMark id, [])
  else
    match p.mark id with
    | some m => (p, if m.isUnsent then [.in_ id m.at_] else [])
    | none => (p, [])

def ownClaims (p : Phone κ) : List (RelayOwnMark κ) := unconfirmedOwnClaims p.marks p.outbox

/-- The door takes back an admit that has not been sent. -/
def undo (p : Phone κ) (now : Time) (scanId : Id) : Phone κ × OfflineUndo × List (RelayOwnMark κ) :=
  let item := p.outbox.find? (·.scanId == scanId)
  let outcome := localUndo item now (p.inFlight.contains scanId)
  match item with
  | none => (p, outcome, [])
  | some i =>
    if outcome ≠ .done then (p, outcome, [])
    else
      let undone : OutboxItem κ := { i with verdict := .undone }
      let p := { p with outbox := p.outbox.map fun j => if j.scanId = scanId then undone else j }
      match i.ticketId with
      | some id => (p.dropMark id, .done, [.undo id])
      | none => (p, .done, [])

end Others

section Sync

/-- A reply to a batch: answered, refused, or nothing heard (`network` and `slow`). -/
inductive SyncReply
  | ok
  | refused
  | unheard
  deriving DecidableEq, Repr

/-- The next batch, marked as sent and put in flight before anything else can look. -/
def takeBatch (p : Phone κ) : Phone κ :=
  if p.outbox.isEmpty then { p with running := none }
  else
    let batch := (p.outbox.take syncBatch).map fun i => { i with attempted := true }
    { p with
      outbox := p.outbox.map fun i => (batch.find? (·.scanId == i.scanId)).getD i
      inFlight := p.inFlight ++ (batch.map (·.scanId)).filter (!p.inFlight.contains ·)
      running := some (.saving batch) }

/-- `sync` called: it starts a send, or waits for the one in progress. -/
def sync (p : Phone κ) : Phone κ :=
  match p.running with
  | some _ => { p with waiting := p.waiting + 1 }
  | none => p.takeBatch

/-- A caller that waited goes on. -/
def resume (p : Phone κ) : Phone κ :=
  match p.running, p.waiting with
  | none, n + 1 => { p with waiting := n }.takeBatch
  | _, _ => p

/-- The batch is saved, and its request leaves. -/
def sendBatch (p : Phone κ) : Phone κ :=
  match p.running with
  | some (.saving batch) => { p with running := some (.inFlight batch) }
  | _ => p

/-- The server has an admit of the batch now. -/
def nowKnown (now : Time) (p : Phone κ) (i : OutboxItem κ) : Phone κ :=
  match i.ticketId with
  | some id =>
    match p.mark id with
    | some m => if m.knownSince.isNone then p.setMark id { m with knownSince := some now } else p
    | none => p
  | none => p

/-- A batch came back. -/
def batchReply (p : Phone κ) (now : Time) (reply : SyncReply) : Phone κ :=
  match p.running with
  | some (.inFlight batch) =>
    let ids := batch.map (·.scanId)
    let landed := { p with inFlight := p.inFlight.filter (!ids.contains ·) }
    match reply with
    | .unheard => { landed with running := none }
    | _ =>
      let told := if reply = .ok then batch.foldl (nowKnown now) landed else landed
      { told with
        outbox := told.outbox.filter fun i => !ids.contains i.scanId
        running := some (.removing (reply = .ok)) }
  | _ => p

/-- The batch is out of the store: the rest follows, or the send ends. -/
def batchRemoved (p : Phone κ) : Phone κ :=
  match p.running with
  | some (.removing again) => if again then p.takeBatch else { p with running := none }
  | _ => p

end Sync

end Phone

/-- One stretch of the phone's work, with what it reads: the clock, a reply, a message. -/
inductive PhoneEvent (κ : Type)
  | list (l : OfflineList κ)
  | answer (r : Read κ) (method : ScanMethod) (supersedesScanId : Option Id) (scanId : Id)
  | learn (now : Time) (id : κ) (result : ScanResult)
  | admitEarly (now : Time) (id : κ)
  | settleEarly (now : Time) (id : κ) (result : ScanResult)
  | queueEarlyAdmit (now : Time) (r : Read κ) (method : ScanMethod) (supersedesScanId scanId : Id)
  | checkIns (now : Time) (rows : List (WireCheckIn κ))
  | relayRows (now : Time) (rows : List (RelayRow κ))
  | relayUndo (id : κ) (undo : RelayUndo)
  | undo (now : Time) (scanId : Id)
  | sync
  | resume
  | sendBatch
  | batchReply (now : Time) (reply : Phone.SyncReply)
  | batchRemoved

/-- What a stretch leaves on record: what it queued, sent, was answered, or told. -/
inductive PhoneNote (κ : Type)
  | queued (i : OutboxItem κ)
  | undid (scanId : Id) (outcome : OfflineUndo)
  | sent (batch : List (OutboxItem κ))
  | answered (batch : List (OutboxItem κ))
  | told (m : RelayOwnMark κ)

namespace Phone

variable [DecidableEq κ]

def step (p : Phone κ) : PhoneEvent κ → Phone κ × List (PhoneNote κ)
  | .list l => (p.adopt l, [])
  | .answer r method supersedes scanId =>
    let (p', told) := p.answer r method supersedes scanId
    (p', .queued (p.outboxItem r method supersedes scanId r.at_ (p.judge r).verdict) ::
      told.map .told)
  | .learn now id result =>
    let (p', told) := p.learn now id result
    (p', told.map .told)
  | .admitEarly now id =>
    let (p', told) := p.admitEarly now id
    (p', told.map .told)
  | .settleEarly now id result =>
    let (p', told) := p.settleEarly now id result
    (p', told.map .told)
  | .queueEarlyAdmit now r method supersedes scanId =>
    (p.queueEarlyAdmit now r method supersedes scanId,
      [.queued (p.outboxItem r method (some supersedes) scanId now .admitted)])
  | .checkIns now rows => (p.learnCheckIns now rows, [])
  | .relayRows now rows => (p.learnRelayRows now rows, [])
  | .relayUndo id undo =>
    let (p', told) := p.learnRelayUndo id undo
    (p', told.map .told)
  | .undo now scanId =>
    let (p', outcome, told) := p.undo now scanId
    (p', .undid scanId outcome :: told.map .told)
  | .sync => (p.sync, [])
  | .resume => (p.resume, [])
  | .sendBatch =>
    (p.sendBatch,
      match p.running with
      | some (.saving batch) => [.sent batch]
      | _ => [])
  | .batchReply now reply =>
    (p.batchReply now reply,
      match p.running with
      | some (.inFlight batch) => if reply = .unheard then [] else [.answered batch]
      | _ => [])
  | .batchRemoved => (p.batchRemoved, [])

/-- The phone after a list of stretches, and all they left on record. -/
def run : Phone κ → List (PhoneEvent κ) → Phone κ × List (PhoneNote κ)
  | p, [] => (p, [])
  | p, e :: es =>
    let (p', notes) := p.step e
    let (p'', notes') := run p' es
    (p'', notes ++ notes')

end Phone

/-- The scan id a stretch makes up. -/
def PhoneEvent.newScanId : PhoneEvent κ → Option Id
  | .answer _ _ _ scanId => some scanId
  | .queueEarlyAdmit _ _ _ _ scanId => some scanId
  | _ => none

end EchoAndAura
