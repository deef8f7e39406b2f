import Mathlib.Data.List.Basic

/-!
# Transactions

Programs that work on a database one statement at a time, at read committed: a statement sees the
committed rows and its own transaction's writes, a write takes its row's lock and waits while
another transaction holds it, and nobody else sees a write before the commit.

A `Prog` is what one request does; a `Sys` runs any number of them, and the schedule, a list of
`Action`s, says whose statement comes next and which transactions are cut off.
-/

namespace Txn

/-- A database seen as rows: a write changes the row it names and no other, and what it puts
there does not depend on the rest. -/
class Rows (Db : Type) (Row W : outParam Type) where
  /-- The two databases have the same content in a row. -/
  Same : Row → Db → Db → Prop
  same_equiv : ∀ r, Equivalence (Same r)
  /-- The row a write goes to; an append to a journal goes to none. -/
  row : W → Option Row
  write : W → Db → Db
  same_write : ∀ {w r} (d : Db), row w ≠ some r → Same r d (write w d)
  write_congr : ∀ {r d d'} (w : W), Same r d d' → Same r (write w d) (write w d')

inductive Mode
  | share
  | excl
  deriving DecidableEq, Repr

abbrev Lock (Row : Type) := Row × Mode

/-- Two transactions cannot hold these together. -/
def Lock.conflict {Row : Type} (l l' : Lock Row) : Prop :=
  l.1 = l'.1 ∧ ¬(l.2 = .share ∧ l'.2 = .share)

instance {Row : Type} [DecidableEq Row] (l l' : Lock Row) : Decidable (l.conflict l') :=
  inferInstanceAs (Decidable (_ ∧ _))

/-- What a statement does where it runs: it answers from what it sees, it locks rows, writes and
answers, or the database refuses it. -/
inductive Outcome (Row W ε ρ : Type)
  | read (r : ρ)
  | hit (K : List (Lock Row)) (ws : List W) (r : ρ)
  | fail (e : ε)

variable {Db Row W : Type} [Rows Db Row W]

def writeAll (ws : List W) (d : Db) : Db := ws.foldl (fun d w => Rows.write w d) d

/-- A statement.  It writes only rows it locks for itself, and what it does when it locks is
settled by the rows it locks. -/
structure Stmt (Db Row W ε ρ : Type) [Rows Db Row W] where
  name : String
  exec : Db → Outcome Row W ε ρ
  covered : ∀ {d K ws r}, exec d = .hit K ws r →
    ∀ w ∈ ws, ∀ x, Rows.row Db w = some x → (x, .excl) ∈ K
  stable : ∀ {d d' K ws r}, exec d = .hit K ws r →
    (∀ l ∈ K, Rows.Same l.1 d d') → exec d' = .hit K ws r

/-- What a statement about one row makes of it: nothing, a lock, a write to it, or a refusal. -/
inductive Change (W ε ρ : Type)
  | miss (r : ρ)
  | share (r : ρ)
  | lock (r : ρ)
  | write (w : W) (r : ρ)
  | refuse (e : ε)

namespace Change

variable {Row W ε ρ : Type}

def outcome (x : Row) : Change W ε ρ → Outcome Row W ε ρ
  | .miss r => .read r
  | .share r => .hit [(x, .share)] [] r
  | .lock r => .hit [(x, .excl)] [] r
  | .write w r => .hit [(x, .excl)] [w] r
  | .refuse e => .fail e

/-- Where a change locks at all, it locks its row. -/
theorem outcome_hit {x : Row} {c : Change W ε ρ} {K : List (Lock Row)} {ws : List W} {r : ρ}
    (h : c.outcome x = .hit K ws r) : ∃ m, (x, m) ∈ K := by
  cases c <;> simp only [outcome, reduceCtorEq, Outcome.hit.injEq] at h
  all_goals
    obtain ⟨rfl, -, -⟩ := h
    exact ⟨_, List.mem_singleton_self _⟩

end Change

namespace Stmt

variable {Db Row W : Type} [Rows Db Row W] {ε ρ γ : Type}

/-- A plain read: no lock, answered from what the statement sees. -/
def reads (name : String) (f : Db → ρ) : Stmt Db Row W ε ρ where
  name := name
  exec d := .read (f d)
  covered h := by simp at h
  stable h := by simp at h

/-- A statement about the row `x`, of which it sees `g`. -/
def onRow (name : String) (x : Row) (g : Db → γ) (f : γ → Change W ε ρ)
    (hg : ∀ {d d'}, Rows.Same x d d' → g d = g d')
    (hf : ∀ {c w r}, f c = .write w r → Rows.row Db w = some x) : Stmt Db Row W ε ρ where
  name := name
  exec d := (f (g d)).outcome x
  covered {d K ws r} h w hw y hy := by
    rcases hc : f (g d) with a | a | a | ⟨w', a⟩ | e <;>
      simp only [hc, Change.outcome, reduceCtorEq, Outcome.hit.injEq] at h
    all_goals obtain ⟨rfl, rfl, -⟩ := h
    · simp at hw
    · simp at hw
    · obtain rfl := List.mem_singleton.1 hw
      rw [hf hc] at hy
      obtain rfl := Option.some.inj hy
      exact List.mem_singleton_self _
  stable h hs := by
    obtain ⟨m, hm⟩ := Change.outcome_hit h
    rw [← hg (hs _ hm)]
    exact h

/-- An append to the journal: no lock, no condition. -/
def append (name : String) (w : W) (r : ρ) (hw : Rows.row Db w = none) : Stmt Db Row W ε ρ where
  name := name
  exec _ := .hit [] [w] r
  covered h := by
    simp only [Outcome.hit.injEq] at h
    obtain ⟨-, rfl, -⟩ := h
    simp [hw]
  stable h _ := h

/-- An insert under a fixed set of keys, refused or made by what those keys hold. -/
def insert (name : String) (K : List Row) (violation : Db → Option ε) (ws : List W) (r : ρ)
    (hv : ∀ {d d'}, (∀ x ∈ K, Rows.Same x d d') → violation d = violation d')
    (hws : ∀ w ∈ ws, ∀ x, Rows.row Db w = some x → x ∈ K) : Stmt Db Row W ε ρ where
  name := name
  exec d :=
    match violation d with
    | some e => .fail e
    | none => .hit (K.map fun x => (x, .excl)) ws r
  covered {d K' ws' r'} h w hw x hx := by
    rcases hd : violation d with _ | e <;>
      simp only [hd, reduceCtorEq, Outcome.hit.injEq] at h
    obtain ⟨rfl, rfl, -⟩ := h
    exact List.mem_map.2 ⟨x, hws w hw x hx, rfl⟩
  stable {d d' K' ws' r'} h hs := by
    have hK : ∀ x ∈ K, Rows.Same x d d' := by
      rcases hd : violation d with _ | e <;>
        simp only [hd, reduceCtorEq, Outcome.hit.injEq] at h
      obtain ⟨rfl, -, -⟩ := h
      exact fun x hx => hs (x, .excl) (List.mem_map.2 ⟨x, hx, rfl⟩)
    rw [← hv hK]
    exact h

end Stmt

/-- The body of a transaction. -/
inductive Tx (Db Row W ε : Type) [Rows Db Row W] (α : Type) : Type 1
  | pure (a : α)
  | throw (e : ε)
  | call {ρ : Type} (s : Stmt Db Row W ε ρ) (k : ρ → Tx Db Row W ε α)

/-- A request: transactions one after another, what it looks at and tells the outside between
them, and its answer. -/
inductive Prog (Db Row W ε : Type) [Rows Db Row W] (O α : Type) : Type 1
  | done (a : α)
  | say (o : O) (k : Prog Db Row W ε O α)
  | look {ρ : Type} (name : String) (f : Db → ρ) (k : ρ → Prog Db Row W ε O α)
  | tx {β : Type} (t : Tx Db Row W ε β) (k : Except ε β → Prog Db Row W ε O α)

variable {ε O α β : Type}

namespace Tx

def bind : Tx Db Row W ε α → (α → Tx Db Row W ε β) → Tx Db Row W ε β
  | .pure a, f => f a
  | .throw e, _ => .throw e
  | .call s k, f => .call s fun r => (k r).bind f

instance : Monad (Tx Db Row W ε) where
  pure := .pure
  bind := .bind

/-- A statement as a transaction body of its own. -/
def ofStmt (s : Stmt Db Row W ε α) : Tx Db Row W ε α := .call s .pure

end Tx

namespace Prog

def bind : Prog Db Row W ε O α → (α → Prog Db Row W ε O β) → Prog Db Row W ε O β
  | .done a, f => f a
  | .say o k, f => .say o (k.bind f)
  | .look name g k, f => .look name g fun r => (k r).bind f
  | .tx t k, f => .tx t fun r => (k r).bind f

instance : Monad (Prog Db Row W ε O) where
  pure := .done
  bind := .bind

end Prog

/-- What a run records of a process: the view a read was answered from; at a commit the locks
held and the database before and after; what it said, and its answer. -/
inductive Obs (Db Row O α : Type)
  | read (stmt : String) (d : Db)
  | commit (K : List (Lock Row)) (d d' : Db)
  | say (o : O)
  | done (a : α)

def Obs.isRead : Obs Db Row O α → Prop
  | .read _ _ => True
  | _ => False

/-- A process, between requests' statements: outside a transaction, inside one with the locks it
holds and the writes it has made, or ended. -/
inductive Proc (Db Row W ε : Type) [Rows Db Row W] (O α : Type) : Type 1
  | run (p : Prog Db Row W ε O α)
  | tx {β : Type} (t : Tx Db Row W ε β) (k : Except ε β → Prog Db Row W ε O α)
      (K : List (Lock Row)) (ws : List W)
  | ended

namespace Proc

def locks : Proc Db Row W ε O α → List (Lock Row)
  | .tx _ _ K _ => K
  | _ => []

/-- One step of a process on the committed database `d`, where `free K` says that nobody else
holds a lock in conflict with `K`; none while it waits. -/
def step (free : List (Lock Row) → Bool) (d : Db) :
    Proc Db Row W ε O α → Option (Proc Db Row W ε O α × Db × List (Obs Db Row O α))
  | .run (.done a) => some (.ended, d, [.done a])
  | .run (.say o k) => some (.run k, d, [.say o])
  | .run (.look name f k) => some (.run (k (f d)), d, [.read name d])
  | .run (.tx t k) => some (.tx t k [] [], d, [])
  | .tx (.pure b) k K ws =>
    some (.run (k (.ok b)), writeAll ws d, [.commit K d (writeAll ws d)])
  | .tx (.throw e) k _ _ => some (.run (k (.error e)), d, [])
  | .tx (.call s c) k K ws =>
    match s.exec (writeAll ws d) with
    | .read r => some (.tx (c r) k K ws, d, [.read s.name (writeAll ws d)])
    | .hit K' ws' r => if free K' then some (.tx (c r) k (K' ++ K) (ws ++ ws'), d, []) else none
    | .fail e => some (.run (k (.error e)), d, [])
  | .ended => none

/-- A connection lost inside a transaction rolls it back; the request hears `lost`. -/
def cut (lost : ε) : Proc Db Row W ε O α → Proc Db Row W ε O α
  | .tx _ k _ _ => .run (k (.error lost))
  | p => p

end Proc

/-- The requests a system serves. -/
structure Service (Db Row W ε : Type) [Rows Db Row W] (O α Req : Type) where
  prog : Req → Prog Db Row W ε O α
  lost : ε

/-- One line of the record of a run. -/
structure Entry (Req Db Row O α : Type) where
  pid : Nat
  req : Req
  obs : Obs Db Row O α

structure Sys (Req Db Row W ε : Type) [Rows Db Row W] (O α : Type) : Type 1 where
  db : Db
  procs : List (Req × Proc Db Row W ε O α)
  log : List (Entry Req Db Row O α)

inductive Action (Req : Type)
  | start (q : Req)
  | step (pid : Nat)
  | cut (pid : Nat)

variable {Req : Type}

namespace Sys

variable [DecidableEq Row] (S : Service Db Row W ε O α Req)

def init (d : Db) : Sys Req Db Row W ε O α := ⟨d, [], []⟩

/-- No other process holds a lock in conflict with `K`. -/
def free (σ : Sys Req Db Row W ε O α) (pid : Nat) (K : List (Lock Row)) : Bool :=
  (σ.procs.eraseIdx pid).all fun p =>
    p.2.locks.all fun l => K.all fun l' => decide ¬l.conflict l'

/-- An action that cannot happen now leaves the system as it is. -/
def act (a : Action Req) (σ : Sys Req Db Row W ε O α) : Sys Req Db Row W ε O α :=
  match a with
  | .start q => { σ with procs := σ.procs ++ [(q, .run (S.prog q))] }
  | .step pid =>
    match σ.procs[pid]? with
    | none => σ
    | some (q, p) =>
      match p.step (σ.free pid) σ.db with
      | none => σ
      | some (p', d, obs) =>
        { db := d, procs := σ.procs.set pid (q, p'), log := σ.log ++ obs.map (⟨pid, q, ·⟩) }
  | .cut pid =>
    match σ.procs[pid]? with
    | none => σ
    | some (q, p) => { σ with procs := σ.procs.set pid (q, p.cut S.lost) }

/-- The system after a schedule. -/
def run (d : Db) (sched : List (Action Req)) : Sys Req Db Row W ε O α :=
  sched.foldl (fun σ a => act S a σ) (init d)

end Sys

/-- What one process did, of a run's record. -/
def trace (pid : Nat) (log : List (Entry Req Db Row O α)) : List (Obs Db Row O α) :=
  (log.filter fun e => e.pid = pid).map (·.obs)

end Txn
