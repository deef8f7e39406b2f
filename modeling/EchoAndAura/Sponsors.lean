import Mathlib.Data.List.Sort
import EchoAndAura.Shop

/-!
# Sponsors

The writes of the sponsors service over the sponsors table.  Every one of them holds the same
advisory lock from its first statement to its commit, so a request is one step, and one that throws
leaves the table as it was.  Storage comes before the transaction: what it answers is part of the
request.
-/

namespace EchoAndAura

section Rows

inductive SponsorLevel
  | presenting
  | partner
  | supporter
  deriving DecidableEq, Repr

inductive SponsorTileTone
  | light
  | dark
  deriving DecidableEq, Repr

structure SponsorRecord where
  name : String
  websiteUrl : Option String
  level : SponsorLevel
  logoKey : String
  logoWidth : Rat
  logoHeight : Rat
  tileTone : SponsorTileTone
  active : Bool
  position : Nat
  createdAt : Time
  updatedAt : Time
  deriving DecidableEq, Repr

abbrev Sponsors := Table Id SponsorRecord

inductive SponsorErr
  | notFound (id : Id)
  | logoInvalid (reason : String)
  | presentingConflict
  | storage
  | constraint (name : String)
  deriving DecidableEq, Repr

/-- Part of a request: on an error nothing it wrote stays. -/
abbrev SponsorTx := StateT Sponsors (Except SponsorErr)

/-- The check constraint the row breaks. -/
def SponsorRecord.broken (row : SponsorRecord) : Option String :=
  if row.logoWidth ≤ 0 then some "sponsors_logo_width_positive"
  else if row.logoHeight ≤ 0 then some "sponsors_logo_height_positive"
  else if row.position < 1 then some "sponsors_position_positive"
  else none

/-- The columns a listing is ordered by, within one level. -/
def displayOrder (a b : Sigma fun _ : Id => SponsorRecord) : Prop :=
  a.2.position < b.2.position ∨ a.2.position = b.2.position ∧
    (a.2.createdAt < b.2.createdAt ∨ a.2.createdAt = b.2.createdAt ∧ a.1 ≤ b.1)

instance : DecidableRel displayOrder :=
  fun a b => inferInstanceAs (Decidable (a.2.position < b.2.position ∨ _ ∧ (_ ∨ _ ∧ _)))

end Rows

namespace sponsorsRepository

section Statements

/-- The row under its id, where the constraints let it stand. -/
def store (id : Id) (row : SponsorRecord) : SponsorTx SponsorRecord := fun t =>
  let others : List SponsorRecord := Table.rows (t.erase id)
  match row.broken with
  | some name => .error (.constraint name)
  | none =>
    if others.any (·.logoKey == row.logoKey) then .error (.constraint "sponsors_logo_key_unique")
    else if row.level = .presenting ∧ others.any (·.level == .presenting) then
      .error .presentingConflict
    else .ok (row, t.insert id row)

def findById (id : Id) : SponsorTx (Option SponsorRecord) := do
  return (← get).lookup id

/-- One level's ids in display order. -/
def idsByLevel (t : Sponsors) (level : SponsorLevel) : List Id :=
  ((t.entries.filter (·.2.level == level)).insertionSort displayOrder).map (·.1)

def listIdsByLevel (level : SponsorLevel) : SponsorTx (List Id) := do
  return idsByLevel (← get) level

def insert (id : Id) (values : SponsorRecord) : SponsorTx SponsorRecord := do
  match (← get).lookup id with
  | some _ => throw (.constraint "sponsors_pkey")
  | none => store id values

/-- None when no row has this id. -/
def update (id : Id) (patch : SponsorRecord → SponsorRecord) : SponsorTx (Option SponsorRecord) := do
  match (← get).lookup id with
  | none => return none
  | some row => return some (← store id (patch row))

/-- The deleted row, or none when there was none. -/
def delete (id : Id) : SponsorTx (Option SponsorRecord) := do
  let row := (← get).lookup id
  modify fun t => t.erase id
  return row

def shiftPartner (_ : Id) (row : SponsorRecord) : SponsorRecord :=
  if row.level = .partner then { row with position := row.position + 1 } else row

/-- The presenting sponsor, unless it is `keepId`, made first of the partners. -/
def demotePresenting (keepId : Option Id) (time : Time) : SponsorTx (Option SponsorRecord) := do
  match (← get).entries.find? fun e => e.2.level == .presenting && keepId != some e.1 with
  | none => return none
  | some current =>
    modify (Table.mapRows shiftPartner)
    update current.1 fun row => { row with level := .partner, position := 1, updatedAt := time }

/-- Positions from one in the order given. -/
def renumberRow (ids : List Id) (id : Id) (row : SponsorRecord) : SponsorRecord :=
  if id ∈ ids then { row with position := ids.idxOf id + 1 } else row

def renumber (ids : List Id) : SponsorTx Unit := modify (Table.mapRows (renumberRow ids))

end Statements

end sponsorsRepository

section Requests

/-- A logo file, by what `inspectLogo` measures or refuses it for and the key it is stored under. -/
structure SponsorLogoUpload where
  inspected : Except String (Rat × Rat)
  stored : Option String

/-- `position`: whole numbers only, the form takes nothing else. -/
structure SponsorInput where
  name : String
  websiteUrl : Option String
  level : SponsorLevel
  tileTone : SponsorTileTone
  active : Bool
  position : Option Int
  deriving DecidableEq, Repr

/-- A position and the level's full order with the sponsor at it. -/
structure PlacedIn where
  position : Nat
  order : List Id
  deriving DecidableEq, Repr

/-- Clamped to 1…n+1, the end when none is requested. -/
def placeIn (order : List Id) (id : Id) (requested : Option Int) : PlacedIn :=
  let last : Int := order.length + 1
  let position := (requested.elim last fun n => min (max n 1) last).toNat
  ⟨position, order.insertIdx (position - 1) id⟩

namespace sponsorsService

def checkLogo (logo : SponsorLogoUpload) : SponsorTx (Rat × Rat) :=
  match logo.inspected with
  | .error reason => throw (.logoInvalid reason)
  | .ok shape => return shape

def storeLogo (logo : SponsorLogoUpload) : SponsorTx String :=
  match logo.stored with
  | none => throw .storage
  | some key => return key

def get (id : Id) : SponsorTx SponsorRecord := do
  match ← sponsorsRepository.findById id with
  | none => throw (.notFound id)
  | some row => return row

def demoteFor (level : SponsorLevel) (keepId : Option Id) (time : Time) :
    SponsorTx (Option SponsorRecord) :=
  if level = .presenting then sponsorsRepository.demotePresenting keepId time else return none

def create (id : Id) (input : SponsorInput) (logo : SponsorLogoUpload) (time : Time) :
    SponsorTx SponsorRecord := do
  let shape ← checkLogo logo
  let logoKey ← storeLogo logo
  let _demoted ← demoteFor input.level none time
  let order ← sponsorsRepository.listIdsByLevel input.level
  let placed := placeIn order id input.position
  let row ← sponsorsRepository.insert id {
    name := input.name
    websiteUrl := input.websiteUrl
    level := input.level
    tileTone := input.tileTone
    active := input.active
    logoKey := logoKey
    logoWidth := shape.1
    logoHeight := shape.2
    position := placed.position
    createdAt := time
    updatedAt := time }
  sponsorsRepository.renumber placed.order
  return row

/-- The row an update writes: a new logo replaces the key and the shape. -/
def updatedRow (input : SponsorInput) (logo : Option ((Rat × Rat) × String)) (position : Nat)
    (time : Time) (row : SponsorRecord) : SponsorRecord :=
  { row with
    name := input.name
    websiteUrl := input.websiteUrl
    level := input.level
    tileTone := input.tileTone
    active := input.active
    logoKey := logo.elim row.logoKey (·.2)
    logoWidth := logo.elim row.logoWidth (·.1.1)
    logoHeight := logo.elim row.logoHeight (·.1.2)
    position := position
    updatedAt := time }

def update (id : Id) (input : SponsorInput) (logo : Option SponsorLogoUpload) (time : Time) :
    SponsorTx SponsorRecord := do
  let shape ← logo.mapM checkLogo
  let _ ← get id
  let logoKey ← logo.mapM storeLogo
  let current ← get id
  let _demoted ← demoteFor input.level (some id) time
  let order ← sponsorsRepository.listIdsByLevel input.level
  let requested := input.position <|>
    if current.level = input.level then some (current.position : Int) else none
  let placed := placeIn (order.filter (· ≠ id)) id requested
  let stored := shape.bind fun s => logoKey.map (Prod.mk s)
  match ← sponsorsRepository.update id (updatedRow input stored placed.position time) with
  | none => throw (.notFound id)
  | some row =>
    sponsorsRepository.renumber placed.order
    if current.level ≠ input.level then
      sponsorsRepository.renumber (← sponsorsRepository.listIdsByLevel current.level)
    return row

def setActive (id : Id) (active : Bool) (time : Time) : SponsorTx SponsorRecord := do
  match ← sponsorsRepository.update id fun row =>
      { row with active := active, updatedAt := time } with
  | none => throw (.notFound id)
  | some row => return row

def setPosition (id : Id) (position : Int) : SponsorTx SponsorRecord := do
  let current ← get id
  let order ← sponsorsRepository.listIdsByLevel current.level
  let placed := placeIn (order.filter (· ≠ id)) id (some position)
  sponsorsRepository.renumber placed.order
  return { current with position := placed.position }

def delete (id : Id) : SponsorTx Unit := do
  match ← sponsorsRepository.delete id with
  | none => throw (.notFound id)
  | some deleted =>
    sponsorsRepository.renumber (← sponsorsRepository.listIdsByLevel deleted.level)

end sponsorsService

/-- A request to the service. -/
inductive SponsorOp
  | create (id : Id) (input : SponsorInput) (logo : SponsorLogoUpload) (time : Time)
  | update (id : Id) (input : SponsorInput) (logo : Option SponsorLogoUpload) (time : Time)
  | setActive (id : Id) (active : Bool) (time : Time)
  | setPosition (id : Id) (position : Int)
  | delete (id : Id)

def SponsorOp.run : SponsorOp → SponsorTx Unit
  | .create id input logo time => discard (sponsorsService.create id input logo time)
  | .update id input logo time => discard (sponsorsService.update id input logo time)
  | .setActive id active time => discard (sponsorsService.setActive id active time)
  | .setPosition id position => discard (sponsorsService.setPosition id position)
  | .delete id => sponsorsService.delete id

/-- `runInTransaction`: the table the request commits, or the one it found. -/
def Sponsors.step (t : Sponsors) (op : SponsorOp) : Sponsors :=
  match op.run t with
  | .ok (_, t') => t'
  | .error _ => t

end Requests

end EchoAndAura
