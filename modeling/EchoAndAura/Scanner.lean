import EchoAndAura.Phone

/-!
# The scanner

`app/door/scanner.tsx`: one scan at a time is sent, and a read the phone would admit from its own
list races the server's answer.  What else happens on the phone meanwhile is a `PhoneEvent`.
-/

namespace EchoAndAura

variable {κ : Type}

/-- Where `send` stands with its scan. -/
inductive ScanStage (κ : Type)
  | idle
  /-- In `peek`, over its digest. -/
  | peeking (r : Read κ)
  /-- The request is out, and the phone's own list would admit. -/
  | racing (ticketId : κ)
  /-- The request is out, and its answer decides. -/
  | waiting

structure Scanner (κ : Type) where
  phone : Phone κ
  stage : ScanStage κ

inductive ScannerEvent (κ : Type)
  | scan (now : Time) (raw : String)
  /-- A retry or a name search: never raced. -/
  | ask
  | peeked
  /-- `RACE_MS` passed without an answer. -/
  | slow (now : Time)
  | replied
  | phone (e : PhoneEvent κ)

namespace Scanner

variable [DecidableEq κ] (digest : String → String → String)

def start (passId : Id) (gate : String) : Scanner κ := ⟨Phone.start passId gate, .idle⟩

/-- The ticket `peek` would let in: an early admission needs one. -/
def peeked (p : Phone κ) (r : Read κ) : Option κ :=
  if (p.judge r).result = .admitted then r.entry.map (·.id) else none

/-- One stretch of the scanner, and the ticket it shows an early ADMIT for. -/
def step (s : Scanner κ) : ScannerEvent κ → Scanner κ × Option κ
  | .scan now raw =>
    match s.stage, s.phone.read digest now raw with
    | .idle, some r => ({ s with stage := .peeking r }, none)
    | .idle, none => ({ s with stage := .waiting }, none)
    | _, _ => (s, none)
  | .ask =>
    match s.stage with
    | .idle => ({ s with stage := .waiting }, none)
    | _ => (s, none)
  | .peeked =>
    match s.stage with
    | .peeking r =>
      match peeked s.phone r with
      | some id => ({ s with stage := .racing id }, none)
      | none => ({ s with stage := .waiting }, none)
    | _ => (s, none)
  | .slow now =>
    match s.stage with
    | .racing id => (⟨(s.phone.admitEarly now id).1, .idle⟩, some id)
    | _ => (s, none)
  | .replied =>
    match s.stage with
    | .racing _ => ({ s with stage := .idle }, none)
    | .waiting => ({ s with stage := .idle }, none)
    | _ => (s, none)
  | .phone e => ({ s with phone := (s.phone.step e).1 }, none)

def run (s : Scanner κ) (events : List (ScannerEvent κ)) : Scanner κ :=
  events.foldl (fun s e => (s.step digest e).1) s

end Scanner

end EchoAndAura
