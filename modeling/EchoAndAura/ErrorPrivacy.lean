import EchoAndAura.Json
import Mathlib.Data.List.Basic

/-!
# What an error report keeps

`privateErrorEvent` builds a report from an event, field by field.  An event's other fields are any
JSON, and so are those of its exceptions, frames and images.  `pathname` is the path of a URL, none
where `new URL` throws.
-/

namespace EchoAndAura

namespace ErrorTracking

def components : List String := ["browser", "web", "worker"]

def operations : List String :=
  ["render", "route", "action", "proxy", "payment.submit", "admin.order", "job.failed",
    "queue.error", "startup", "shutdown", "fatal", "diagnostics"]

def queues : List String := ["orders", "holds", "relay"]

def routes : List String :=
  ["/", "/events/[slug]", "/orders/[id]", "/tickets/[code]", "/admin", "/admin/orders/[id]",
    "/door", "/auth", "unknown"]

def types : List String :=
  ["Error", "TypeError", "RangeError", "ReferenceError", "SyntaxError", "URIError",
    "AggregateError", "PostgresError", "UnrecoverableError", "InventoryStateError",
    "AttendeeNamesMismatchError", "TicketCodeCollisionError", "SyntheticTestError"]

def omitted : String := "Unexpected application error (private details omitted)"

section Events

abbrev Fields := List (String × JsonValue String)

/-- A whole number, or any other. -/
inductive FrameNumber
  | whole (n : Int)
  | other

structure StackFrame where
  filename : Option String
  abs_path : Option String
  lineno : Option FrameNumber
  colno : Option FrameNumber
  in_app : Option Bool
  rest : Fields

structure Mechanism where
  type : Option String
  handled : Option Bool
  rest : Fields

structure Stacktrace where
  frames : Option (List StackFrame)
  rest : Fields

structure Exception where
  type : Option String
  value : Option String
  mechanism : Option Mechanism
  stacktrace : Option Stacktrace
  rest : Fields

structure DebugImage where
  type : String
  code_file : Option String
  debug_id : Option String
  rest : Fields

structure DebugMeta where
  images : Option (List DebugImage)
  rest : Fields

structure ErrorValues where
  values : Option (List Exception)
  rest : Fields

structure Event where
  type : Option String
  platform : Option String
  event_id : Option String
  release : Option String
  environment : Option String
  level : Option String
  exception : Option ErrorValues
  tags : Option Fields
  debug_meta : Option DebugMeta
  rest : Fields

/-- What an item of an envelope holds: an object, read as an event, or anything else. -/
inductive Payload
  | event (event : Event)
  | other

structure EnvelopeItem where
  type : String
  rest : Fields
  payload : Payload

structure Envelope where
  event_id : Option String
  sent_at : Option String
  rest : Fields
  items : List EnvelopeItem

end Events

section Shapes

def isLowerHex (c : Char) : Bool := c.isDigit || ('a' ≤ c && c ≤ 'f')

/-- `/^[a-f0-9]{n}$/` -/
def isHexOf (n : Nat) (s : List Char) : Bool := s.length == n && s.all isLowerHex

def debugIdPattern (s : List Char) : Bool :=
  let parts := s.splitOn '-'
  parts.map List.length == [8, 4, 4, 4, 12] && parts.all fun part => part.all isLowerHex

def workerFile : String := "app:///dist/worker.mjs"

def nextStart : List Char := ['a', 'p', 'p', ':', '/', '/', '/', 'n', 'e', 'x', 't', '/']

def scriptEnd : List Char := ['.', 'j', 's']

def unmapped : List Char := ['u', 'n', 'm', 'a', 'p', 'p', 'e', 'd']

/-- `app:///next/<id>.js` -/
def nextFile (id : List Char) : String := String.ofList (nextStart ++ (id ++ scriptEnd))

/-- `/^app:\/\/\/next\/([^/]+)\.js$/` and what it captures. -/
def canonicalId (value : String) : Option (List Char) :=
  let rest := value.toList.drop nextStart.length
  let id := rest.take (rest.length - scriptEnd.length)
  if nextStart.isPrefixOf value.toList ∧ scriptEnd.isSuffixOf rest ∧ id ≠ [] ∧ '/' ∉ id then some id
  else none

/-- `/^\/(?:app|[^?#]*echoandaura)\/dist\/worker\.mjs$/` -/
def isWorkerPath (path : List Char) : Bool :=
  let tail := "/dist/worker.mjs".toList
  let front := path.take (path.length - tail.length)
  tail.isSuffixOf path && (front == "/app".toList ||
    (['/'].isPrefixOf front && "echoandaura".toList.isSuffixOf front.tail &&
      (front.tail.take (front.tail.length - 11)).all fun c => c != '?' && c != '#'))

/-- `/\/(?:_next\/static|\.next-build\/server)\//` -/
def isAssetPath (path : List Char) : Bool :=
  path.tails.any fun rest => "/_next/static/".toList.isPrefixOf rest ||
    "/.next-build/server/".toList.isPrefixOf rest

/-- `/\.m?js$/` -/
def isScript (path : List Char) : Bool :=
  scriptEnd.isSuffixOf path || ['.', 'm', 'j', 's'].isSuffixOf path

end Shapes

section Policy

variable (pathname : String → Option String)

def codePath (value : String) : Option String :=
  if value.toList.tails.any fun rest => "://".toList.isPrefixOf rest then pathname value
  else some value

def isCanonical (value : String) : Bool :=
  (canonicalId value).any fun id => id == unmapped || debugIdPattern id

def codeFile (value : Option String) (debugId : Option String) : Option String :=
  match value with
  | none => none
  | some value =>
    if value = "" then none
    else if value = workerFile then some value
    else if isCanonical value then some value
    else match codePath pathname value with
      | none => none
      | some path =>
        if isWorkerPath path.toList then some workerFile
        else if !isAssetPath path.toList then none
        else if !isScript path.toList then none
        else match debugId with
          | none => some (nextFile unmapped)
          | some id =>
            if debugIdPattern id.toList then some (nextFile id.toList)
            else some (nextFile unmapped)

def maxSafeInteger : Int := 9007199254740991

/-- A safe integer no smaller than `least`. -/
def safeFrom (least : Int) : Option FrameNumber → Option FrameNumber
  | some (.whole n) => if least ≤ n ∧ n ≤ maxSafeInteger then some (.whole n) else none
  | _ => none

/-- The debug ids by code file, the last of each. -/
abbrev DebugIds := List (String × String)

def DebugIds.get (ids : DebugIds) (file : String) : Option String := ids.reverse.lookup file

def safeFrame (ids : DebugIds) (frame : StackFrame) : Option StackFrame :=
  let original := frame.abs_path <|> frame.filename
  let id := original.bind fun file => if file = "" then none else ids.get file
  (codeFile pathname original id).map fun filename =>
    { filename := some filename
      abs_path := some filename
      lineno := safeFrom 1 frame.lineno
      colno := safeFrom 0 frame.colno
      in_app := some true
      rest := [] }

def safeTag (tags : Option Fields) (key : String) (allow : List String) : Fields :=
  match tags.bind (·.lookup key) with
  | some (.str value) => if value ∈ allow then [(key, .str value)] else []
  | _ => []

def safeTags (tags : Option Fields) : Fields :=
  safeTag tags "component" components ++ safeTag tags "operation" operations ++
    safeTag tags "queue" queues ++ safeTag tags "route" routes

def DebugMeta.list (meta_ : Option DebugMeta) : List DebugImage :=
  ((meta_.bind (·.images)).getD []).take 50

def imageIds (images : List DebugImage) : DebugIds :=
  images.filterMap fun image =>
    match image.code_file, image.debug_id with
    | some file, some id =>
      if image.type = "sourcemap" ∧ file ≠ "" ∧ debugIdPattern id.toList then some (file, id)
      else none
    | _, _ => none

/-- The last `n` of a list. -/
def lastOf {α : Type} (n : Nat) (l : List α) : List α := l.drop (l.length - n)

/-- The type a report gives an exception. -/
def safeType (type : Option String) : String :=
  match type with
  | some type => if type ∈ types then type else "Error"
  | none => "Error"

def safeException (ids : DebugIds) (exception : Exception) : Exception where
  type := some (safeType exception.type)
  value := some omitted
  mechanism := some
    { type := some "generic"
      handled := some ((exception.mechanism.bind (·.handled)) != some false)
      rest := [] }
  stacktrace := some
    { frames := some ((lastOf 50 ((exception.stacktrace.bind (·.frames)).getD [])).filterMap
        (safeFrame pathname ids))
      rest := [] }
  rest := []

def safeImage (image : DebugImage) : Option DebugImage :=
  match codeFile pathname image.code_file image.debug_id, image.debug_id with
  | some file, some id =>
    if image.type = "sourcemap" ∧ debugIdPattern id.toList then
      some ⟨"sourcemap", some file, some id, []⟩
    else none
  | _, _ => none

def privateErrorEvent (event : Event) : Option Event :=
  let values := (event.exception.bind (·.values)).getD []
  if event.type ≠ none ∨ values = [] then none
  else
    let ids := imageIds (DebugMeta.list event.debug_meta)
    let images := (DebugMeta.list event.debug_meta).filterMap (safeImage pathname)
    some
      { type := none
        platform := some (if event.platform = some "node" then "node" else "javascript")
        event_id := event.event_id.filter fun id => isHexOf 32 id.toList
        release := event.release.filter fun release => isHexOf 40 release.toList
        environment := some (if event.environment = some "staging" then "staging" else "production")
        level := some (if event.level = some "fatal" then "fatal" else "error")
        exception := some ⟨some ((lastOf 5 values).map (safeException pathname ids)), []⟩
        tags := some (safeTags event.tags)
        debug_meta := if images = [] then none else some ⟨some images, []⟩
        rest := [] }

def privateItem (item : EnvelopeItem) : Option Event :=
  match item.payload with
  | .event event =>
    if item.type ≠ "event" then none
    else (privateErrorEvent pathname event).filter fun event =>
      event.event_id.any fun id => id != ""
  | .other => none

def privateEnvelope (now : String) (envelope : Envelope) : Option Envelope :=
  match envelope.items.filterMap (privateItem pathname) with
  | [] => none
  | event :: events =>
    some
      { event_id := some (event.event_id.getD "")
        sent_at := some now
        rest := []
        items := (event :: events).map fun event => ⟨"event", [], .event event⟩ }

end Policy

end ErrorTracking

end EchoAndAura
