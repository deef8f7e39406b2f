import EchoAndAura.EventAdmin

/-!
# The cover image

`setCoverImage` and `removeCoverImage` of the events service on one event, split at their reads,
their storage calls and their write.  The row and the stored objects are two stores: a request
writes the row first and deletes the old object afterwards, and each of its calls may fail, or take
effect and lose its answer.
-/

namespace EchoAndAura

section Rules

def coverImageMaxBytes : Int := 5 * 1024 * 1024

/-- Accepted MIME types and the extension each is stored under. -/
def coverImageTypes : List (String × String) :=
  [("image/jpeg", "jpg"), ("image/png", "png"), ("image/webp", "webp")]

/-- What every object has: `in` finds these names too. -/
def objectPrototype : List String :=
  ["constructor", "__defineGetter__", "__defineSetter__", "hasOwnProperty", "__lookupGetter__",
    "__lookupSetter__", "isPrototypeOf", "propertyIsEnumerable", "toString", "valueOf", "__proto__",
    "toLocaleString"]

inductive CoverErr
  | eventNotFound
  | notUploaded (key : String)
  | invalid (reason : String)
  deriving DecidableEq, Repr

def validateCoverImage (contentType : String) (size : Int) : Except CoverErr Unit :=
  if contentType ∉ coverImageTypes.map (·.1) ++ objectPrototype then
    .error (.invalid "Cover image must be a JPEG, PNG or WebP")
  else if size ≤ 0 then .error (.invalid "Cover image is empty")
  else if coverImageMaxBytes < size then .error (.invalid "Cover image must be 5 MB or smaller")
  else .ok ()

def coverImagePrefix (eventId : String) : String := "events/" ++ eventId ++ "/"

def isNanoidChar (c : Char) : Bool := c.isAlphanum || c == '_' || c == '-'

/-- `/^cover-[A-Za-z0-9_-]{12}\.(jpg|png|webp)$/` -/
def isCoverName (rest : List Char) : Bool :=
  "cover-".toList.isPrefixOf rest &&
    let tail := rest.drop 6
    (tail.take 12).length == 12 && (tail.take 12).all isNanoidChar &&
      coverImageTypes.any fun t => tail.drop 12 == '.' :: t.2.toList

/-- Only keys this event could have been issued. -/
def isCoverKeyForEvent (key eventId : String) : Bool :=
  (coverImagePrefix eventId).toList.isPrefixOf key.toList &&
    isCoverName (key.toList.drop (coverImagePrefix eventId).toList.length)

end Rules

section Storage

/-- What storage reports of an object. -/
structure StoredObjectInfo where
  contentType : Option String
  size : Option Int
  deriving DecidableEq, Repr

/-- What an object must be for its key to go on the event. -/
def checkUploaded (key : String) : Option StoredObjectInfo → Except CoverErr Unit
  | some ⟨some contentType, some size⟩ => validateCoverImage contentType size
  | _ => .error (.notUploaded key)

/-- The event's row and the stored objects by key. -/
structure CoverDesk where
  event : Option EventRecord
  objects : Table String StoredObjectInfo

inductive CoverRequest
  | setCoverImage (key : String)
  | removeCoverImage
  deriving DecidableEq, Repr

/-- A request at its next call: `old` is the key its first read found. -/
inductive CoverStage
  | getting (q : CoverRequest)
  | heading (key : String) (old : Option String)
  | writing (key : Option String) (old : Option String)
  | deleting (key : String)
  deriving DecidableEq, Repr

/-- The browser's PUT to the URL it was given. -/
structure Upload where
  key : String
  info : StoredObjectInfo

/-- The old object, unless there was none or it is the one the row points at now. -/
def cleanup (old key : Option String) : Option CoverStage :=
  match old with
  | none => none
  | some k => if k = "" ∨ key = some k then none else some (.deleting k)

namespace CoverDesk

variable (d : CoverDesk)

def imageKey : Option String := d.event.bind (·.imageKey)

def setImageKey (key : Option String) : CoverDesk :=
  { d with event := d.event.map fun e => { e with imageKey := key } }

def delete (key : String) : CoverDesk := { d with objects := d.objects.erase key }

def put (u : Upload) : CoverDesk := { d with objects := d.objects.insert u.key u.info }

/-- What follows the read of the row. -/
def afterGet (eventId : String) (event : EventRecord) : CoverRequest → Option CoverStage
  | .removeCoverImage => some (.writing none event.imageKey)
  | .setCoverImage key =>
    if isCoverKeyForEvent key eventId then some (.heading key event.imageKey) else none

def next (eventId : String) : CoverStage → CallOutcome → CoverDesk × Option CoverStage
  | .getting q, .ok => (d, d.event.bind fun event => afterGet eventId event q)
  | .heading key old, .ok =>
    match checkUploaded key (d.objects.lookup key) with
    | .error _ => (d, none)
    | .ok () => (d, some (.writing (some key) old))
  | .writing key old, .ok =>
    match d.event with
    | none => (d, none)
    | some _ => (d.setImageKey key, cleanup old key)
  | .writing key _, .lost => (d.setImageKey key, none)
  | .deleting key, .ok | .deleting key, .lost => (d.delete key, none)
  | .getting _, .failed | .heading _ _, .failed | .writing _ _, .failed | .deleting _, .failed
  | .getting _, .lost | .heading _ _, .lost => (d, none)

end CoverDesk

/-- The requests at work on the cover of one event. -/
def coverWork (eventId : String) : Work CoverDesk CoverStage CoverRequest CallOutcome Upload where
  first := .getting
  next d := d.next eventId
  change := CoverDesk.put

end Storage

end EchoAndAura
