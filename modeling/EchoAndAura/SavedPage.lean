import EchoAndAura.CacheApi

/-!
# The saved gate page

`keepPageOffline` and `forgetPageOffline` of the gate page and the answers of its service worker,
await by await.  A save that began under an older generation than the one it ends under is dropped.
-/

namespace EchoAndAura

section Data

inductive DoorCache
  | page
  | files
  deriving DecidableEq, Repr

def DoorCache.name : DoorCache → String
  | .page => "door-page-v1"
  | .files => "door-files-v1"

def pagePath : String := "/door"

structure WebAnswer where
  status : Nat
  redirected : Bool
  body : String
  deriving DecidableEq, Repr

def WebAnswer.ok (r : WebAnswer) : Bool := 200 ≤ r.status && r.status < 300

inductive SavedCopy
  | saved
  | failed
  | unsupported
  deriving DecidableEq, Repr

/-- What the worker answers an opening of the page with. -/
inductive PageAnswer
  | network (r : WebAnswer)
  | saved (r : WebAnswer)
  | noSignal
  deriving DecidableEq, Repr

/-- The files a loaded page used, of the same-origin paths it loaded. -/
def filesToKeep (loaded : List String) : List String :=
  (loaded.filter fun path => "/_next/static/".toList.isPrefixOf path.toList ||
    "/vendor/".toList.isPrefixOf path.toList).dedup

/-- A save once both its caches are open. -/
structure Saving where
  files : List String
  page : WebAnswer
  pageCache : CacheHandle
  fileCache : CacheHandle
  had : List String
  deriving DecidableEq, Repr

inductive KeepStage
  | registering
  | fetchingPage (files : List String)
  | opening (files : List String) (page : WebAnswer) (pageCache fileCache : Option CacheHandle)
  | listing (s : Saving)
  | fetchingFile (s : Saving) (path : String) (rest : List String)
  | puttingFile (s : Saving) (path : String) (r : WebAnswer) (rest : List String)
  | puttingPage (s : Saving)
  | dropping (fileCache : CacheHandle) (paths : List String) (result : SavedCopy)
  deriving DecidableEq, Repr

/-- What a page answer falls back to without a saved copy. -/
inductive Fallback
  | noSignal
  | answer (r : WebAnswer)
  | network
  deriving DecidableEq, Repr

inductive AnswerStage
  | racing
  | opening (fallback : Fallback)
  | matching (cache : CacheHandle) (fallback : Fallback)
  | waiting
  deriving DecidableEq, Repr

inductive FileStage
  | opening (path : String)
  | matching (cache : CacheHandle) (path : String)
  | fetching (cache : CacheHandle) (path : String)
  | putting (cache : CacheHandle) (path : String) (r : WebAnswer)
  deriving DecidableEq, Repr

/-- A call at its next await.  A save has the generation it began under, a delete the one it made;
`stray` is an open whose save has failed meanwhile. -/
inductive DoorStage
  | keep (gen : Nat) (stage : KeepStage)
  | forget (gen : Nat)
  | page (stage : AnswerStage)
  | file (stage : FileStage)
  | stray (cache : DoorCache)
  deriving DecidableEq, Repr

/-- How an await ends.  `opened` and `refused` say which of two opens. -/
inductive DoorOutcome
  | ok
  | failed
  | timedOut
  | loaded (paths : List String)
  | answered (r : WebAnswer)
  | opened (cache : DoorCache)
  | refused (cache : DoorCache)
  deriving DecidableEq, Repr

/-- The phone: its caches, the calls in progress, and what saves and page answers have come to. -/
structure DoorPhone where
  generation : Nat
  caches : CacheStorage WebAnswer
  calls : List DoorStage
  saves : List SavedCopy
  answers : List PageAnswer

def DoorPhone.fresh : DoorPhone := ⟨0, .empty, [], [], []⟩

end Data

namespace DoorPhone

section Calls

variable (d : DoorPhone)

def ended (r : SavedCopy) : DoorPhone × List DoorStage := ({ d with saves := r :: d.saves }, [])

def answered (a : PageAnswer) : DoorPhone × List DoorStage :=
  ({ d with answers := a :: d.answers }, [])

def opened (cache : DoorCache) : DoorPhone :=
  { d with caches := (d.caches.openCache cache.name).1 }

def handle (cache : DoorCache) : CacheHandle := (d.caches.openCache cache.name).2

/-- The loop over the files: the next one the cache does not have, or the check after the last. -/
def nextFile (gen : Nat) (s : Saving) : List String → DoorPhone × List DoorStage
  | path :: rest => (d, [.keep gen (.fetchingFile s path rest)])
  | [] => if gen ≠ d.generation then d.ended .failed else (d, [.keep gen (.puttingPage s)])

/-- Both opens have to come back. -/
def afterOpen (gen : Nat) (files : List String) (page : WebAnswer) :
    Option CacheHandle → Option CacheHandle → DoorPhone × List DoorStage
  | some p, some f => (d, [.keep gen (.listing ⟨files, page, p, f, []⟩)])
  | p, f => (d, [.keep gen (.opening files page p f)])

def afterDrop (gen : Nat) (fileCache : CacheHandle) (result : SavedCopy) :
    List String → DoorPhone × List DoorStage
  | [] => d.ended result
  | paths => (d, [.keep gen (.dropping fileCache paths result)])

/-- The opens a failed save leaves behind. -/
def strays (pageCache fileCache : Option CacheHandle) (refused : DoorCache) : List DoorStage :=
  (if pageCache = none ∧ refused ≠ .page then [.stray .page] else []) ++
    if fileCache = none ∧ refused ≠ .files then [.stray .files] else []

def keepNext (gen : Nat) : KeepStage → DoorOutcome → DoorPhone × List DoorStage
  | .registering, .loaded paths => (d, [.keep gen (.fetchingPage (filesToKeep paths))])
  | .fetchingPage files, .answered page =>
    if !page.ok || page.redirected then d.ended .failed
    else (d, [.keep gen (.opening files page none none)])
  | .opening files page none f, .opened .page =>
    (d.opened .page).afterOpen gen files page (some (d.handle .page)) f
  | .opening files page p none, .opened .files =>
    (d.opened .files).afterOpen gen files page p (some (d.handle .files))
  | .opening _ _ p f, .refused cache => ((d.ended .failed).1, strays p f cache)
  | .listing s, .ok =>
    let s := { s with had := d.caches.keys s.fileCache }
    d.nextFile gen s (s.files.filter (· ∉ s.had))
  | .fetchingFile s path rest, .answered r =>
    if r.ok then (d, [.keep gen (.puttingFile s path r rest)]) else d.nextFile gen s rest
  | .puttingFile s path r rest, .ok =>
    nextFile { d with caches := d.caches.put s.fileCache path r } gen s rest
  | .puttingPage s, .ok =>
    afterDrop { d with caches := d.caches.put s.pageCache pagePath s.page } gen s.fileCache .saved
      (s.had.filter (· ∉ s.files))
  | .dropping fileCache (path :: rest) result, .ok =>
    afterDrop { d with caches := d.caches.remove fileCache path } gen fileCache result rest
  | .dropping fileCache (_ :: rest) _, _ => d.afterDrop gen fileCache .failed rest
  | _, _ => d.ended .failed

def fallBack : Fallback → DoorPhone × List DoorStage
  | .noSignal => d.answered .noSignal
  | .answer r => d.answered (.network r)
  | .network => (d, [.page .waiting])

def pageNext : AnswerStage → DoorOutcome → DoorPhone × List DoorStage
  | .racing, .answered r =>
    if r.status < 500 then d.answered (.network r) else (d, [.page (.opening (.answer r))])
  | .racing, .timedOut => (d, [.page (.opening .network)])
  | .racing, _ => (d, [.page (.opening .noSignal)])
  | .opening fallback, .ok => (d.opened .page, [.page (.matching (d.handle .page) fallback)])
  | .matching cache fallback, .ok =>
    match d.caches.findPath cache pagePath with
    | some r => d.answered (.saved r)
    | none => d.fallBack fallback
  | .waiting, .answered r => d.answered (.network r)
  | .waiting, _ => d.answered .noSignal
  | .opening _, _ | .matching _ _, _ => (d, [])

def fileNext : FileStage → DoorOutcome → DoorPhone × List DoorStage
  | .opening path, .ok => (d.opened .files, [.file (.matching (d.handle .files) path)])
  | .matching cache path, .ok =>
    match d.caches.find cache path with
    | some _ => (d, [])
    | none => (d, [.file (.fetching cache path)])
  | .fetching cache path, .answered r => (d, if r.ok then [.file (.putting cache path r)] else [])
  | .putting cache path r, .ok => ({ d with caches := d.caches.put cache path r }, [])
  | _, _ => (d, [])

def next : DoorStage → DoorOutcome → DoorPhone × List DoorStage
  | .keep gen stage, out => d.keepNext gen stage out
  | .forget _, _ => ({ d with caches := d.caches.delete DoorCache.page.name }, [])
  | .page stage, out => d.pageNext stage out
  | .file stage, out => d.fileNext stage out
  | .stray cache, .ok => (d.opened cache, [])
  | .stray _, _ => (d, [])

end Calls

end DoorPhone

/-- A call that begins, or an await that ends. -/
inductive DoorTurn
  | keep (supported : Bool)
  | forget
  | page (onLine : Bool)
  | file (path : String)
  | go (i : Nat) (out : DoorOutcome)
  deriving DecidableEq, Repr

namespace DoorPhone

section Runs

variable (d : DoorPhone)

def call (stage : DoorStage) : DoorPhone := { d with calls := d.calls ++ [stage] }

def step : DoorTurn → DoorPhone
  | .keep supported =>
    if supported then d.call (.keep d.generation .registering) else (d.ended .unsupported).1
  | .forget =>
    let d := { d with generation := d.generation + 1 }
    d.call (.forget d.generation)
  | .page onLine => d.call (.page (if onLine then .racing else .opening .noSignal))
  | .file path => d.call (.file (.opening path))
  | .go i out =>
    match d.calls[i]? with
    | none => d
    | some stage =>
      let r := next { d with calls := d.calls.eraseIdx i } stage out
      { r.1 with calls := r.1.calls ++ r.2 }

def run (turns : List DoorTurn) : DoorPhone := turns.foldl step d

end Runs

end DoorPhone

end EchoAndAura
