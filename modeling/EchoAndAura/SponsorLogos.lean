import EchoAndAura.Sponsors
import EchoAndAura.Tasks

/-!
# Sponsor logos

`create`, `update` and `delete` of the sponsors service, split at their storage calls and their
transactions.  A logo is stored before the row that names it is written; the key a request replaced
or removed, or stored for a transaction that failed, is deleted afterwards, and a delete that fails
is logged and left.  An upload that throws ends its request, and its key is forgotten.
-/

namespace EchoAndAura

/-- A logo as `inspectLogo` measures or refuses it, with the fresh key it will be stored under. -/
structure LogoFile where
  inspected : Except String (Rat × Rat)
  key : String

inductive LogoRequest
  | create (id : Id) (input : SponsorInput) (logo : LogoFile) (time : Time)
  | update (id : Id) (input : SponsorInput) (logo : Option LogoFile) (time : Time)
  | delete (id : Id)

namespace LogoRequest

/-- The key the request uploads to. -/
def key : LogoRequest → Option String
  | .create _ _ logo _ => some logo.key
  | .update _ _ logo _ => logo.map (·.key)
  | .delete _ => none

/-- The logo of the request is refused before anything is stored. -/
def refused : LogoRequest → Bool
  | .create _ _ logo _ => logo.inspected.toBool == false
  | .update _ _ logo _ => logo.any (·.inspected.toBool == false)
  | .delete _ => false

end LogoRequest

/-- The upload once its object is stored. -/
def LogoFile.stored (logo : LogoFile) : SponsorLogoUpload := ⟨logo.inspected, some logo.key⟩

/-- A request at its next call. -/
inductive LogoStage
  | getting (q : LogoRequest)
  | putting (key : String) (q : LogoRequest)
  | committing (q : LogoRequest)
  | deleting (key : String)

/-- The sponsors, the keys of the stored objects, the keys `bestEffortDelete` logged a failed delete
of, and those of the uploads that were stored and lost their answer. -/
structure LogoDesk where
  sponsors : Sponsors
  objects : List String
  warned : List String
  lost : List String

namespace LogoRequest

/-- The request's transaction: the table it commits and the key it has to delete afterwards. -/
def commit (t : Sponsors) : LogoRequest → Except SponsorErr (Sponsors × Option String)
  | .create id input logo time =>
    (sponsorsService.create id input logo.stored time t).map fun r => (r.2, none)
  | .update id input logo time =>
    (sponsorsService.update id input (logo.map (·.stored)) time t).map fun r =>
      (r.2, logo.bind fun _ => (t.lookup id).map (·.logoKey))
  | .delete id =>
    (sponsorsService.delete id t).map fun r => (r.2, (t.lookup id).map (·.logoKey))

/-- The first call of a request: `create` uploads, `update` reads the row, `delete` commits. -/
def first : LogoRequest → LogoStage
  | .create id input logo time => .putting logo.key (.create id input logo time)
  | .update id input logo time => .getting (.update id input logo time)
  | .delete id => .committing (.delete id)

/-- What follows the read of the row. -/
def afterGet (q : LogoRequest) : LogoStage :=
  match q.key with
  | some key => .putting key q
  | none => .committing q

/-- The row the read before the upload is about. -/
def found (t : Sponsors) : LogoRequest → Bool
  | .update id _ _ _ => (t.lookup id).isSome
  | _ => true

end LogoRequest

namespace LogoDesk

variable (d : LogoDesk)

def put (key : String) : LogoDesk := { d with objects := key :: d.objects }

def delete (key : String) : LogoDesk := { d with objects := d.objects.filter (· ≠ key) }

def warn (key : String) : LogoDesk := { d with warned := key :: d.warned }

def lose (key : String) : LogoDesk := { d with lost := key :: d.lost }

/-- A put that throws may have stored, and a delete that fails may have deleted; a transaction that
fails has done nothing. -/
def next : LogoStage → CallOutcome → LogoDesk × Option LogoStage
  | .getting q, .ok => (d, if q.refused ∨ !q.found d.sponsors then none else some q.afterGet)
  | .getting _, .failed | .getting _, .lost => (d, none)
  | .putting key q, .ok => if q.refused then (d, none) else (d.put key, some (.committing q))
  | .putting _ _, .failed => (d, none)
  | .putting key q, .lost => if q.refused then (d, none) else ((d.put key).lose key, none)
  | .committing q, .ok =>
    match q.commit d.sponsors with
    | .ok (t, old) => ({ d with sponsors := t }, old.map .deleting)
    | .error _ => (d, q.key.map .deleting)
  | .committing q, .failed | .committing q, .lost => (d, q.key.map .deleting)
  | .deleting key, .ok => (d.delete key, none)
  | .deleting key, .failed => (d.warn key, none)
  | .deleting key, .lost => ((d.delete key).warn key, none)

end LogoDesk

/-- The requests at work on the sponsors and their logos. -/
def logoWork : Work LogoDesk LogoStage LogoRequest CallOutcome Empty where
  first := LogoRequest.first
  next d := d.next
  change d _ := d

end EchoAndAura
