import EchoAndAura.Moves
import EchoAndAura.Proofs.Exactness
import EchoAndAura.Proofs.Replay

/-!
# Service functions and what they tell

`Svc.tells` walks a service function with the moves it has committed and not yet told of.  Most
parts owe nothing where they begin and where they end (`Svc.settles`); a transaction's moves are
told before the request goes on (`Svc.pays`).
-/

namespace EchoAndAura

open Txn (Lock writeAll Rely Telling)

variable {α β γ : Type} {q : Request} {d d' : Db}

section Rules

/-- However the others interfere, `s` tells only what it owes and ends as `Q` says, or in an error
as `E` says. -/
def Svc.tells (q : Request) (s : Svc α) (Q : α → Txn.Debt Move → Db → Prop)
    (E : Txn.Debt Move → Db → Prop) (owed : Txn.Debt Move) (d : Db) : Prop :=
  Txn.Prog.tells telling Good q (fun r owed d => match r with
    | .ok a => Q a owed d
    | .error _ => E owed d) s.run owed d

/-- The request may commit a change from `d` to `d'`. -/
def Request.commits (q : Request) (d d' : Db) : Prop := ∃ τ K, Good q τ (.commit K d d')

variable {Q : β → Txn.Debt Move → Db → Prop} {E : Txn.Debt Move → Db → Prop} {owed : Txn.Debt Move}

theorem Svc.tells_pure {b : β} (h : Q b owed d) : (pure b : Svc β).tells q Q E owed d := h

theorem Svc.tells_throw {e : Err} (h : E owed d) : (throw e : Svc β).tells q Q E owed d := h

theorem Svc.tells_bind {s : Svc α} {k : α → Svc β}
    (h : s.tells q (fun a owed d => (k a).tells q Q E owed d) E owed d) :
    (s >>= k).tells q Q E owed d := by
  refine Txn.Prog.tells_bind (Txn.Prog.tells_mono (fun r owed d hr => ?_) h)
  cases r with
  | ok a => exact hr
  | error e => exact hr

theorem Svc.tells_mono {s : Svc β} {Q' : β → Txn.Debt Move → Db → Prop}
    {E' : Txn.Debt Move → Db → Prop} (hQ : ∀ b owed d, Q b owed d → Q' b owed d)
    (hE : ∀ owed d, E owed d → E' owed d) (h : s.tells q Q E owed d) :
    s.tells q Q' E' owed d := by
  refine Txn.Prog.tells_mono (fun r owed d hr => ?_) h
  cases r with
  | ok a => exact hQ a owed d hr
  | error e => exact hE owed d hr

theorem Svc.tells_throw_bind {k : β → Svc α} {Q : α → Txn.Debt Move → Db → Prop} {e : Err}
    (h : E owed d) : ((throw e : Svc β) >>= k).tells q Q E owed d :=
  Svc.tells_bind (Svc.tells_throw h)

theorem Svc.tells_ite {c : Prop} [Decidable c] {s s' : Svc β} (pos : c → s.tells q Q E owed d)
    (neg : ¬c → s'.tells q Q E owed d) : (if c then s else s').tells q Q E owed d := by
  split_ifs with h
  · exact pos h
  · exact neg h

theorem Svc.tells_say {o : Say} {m : Move} {Q : Unit → Txn.Debt Move → Db → Prop}
    (ho : o.move = some m) (hm : 0 < owed.may m) (h : Q () (Telling.less owed m) d) :
    (Svc.say o).tells q Q E owed d := by
  refine ⟨fun hn => ?_, fun m' hm' => ?_⟩
  · rw [show telling.about o = some m from ho] at hn
    cases hn
  · obtain rfl := Option.some.inj (hm'.symm.trans ho)
    exact ⟨hm, h⟩

theorem Svc.tells_sayNothing {o : Say} {Q : Unit → Txn.Debt Move → Db → Prop}
    (ho : o.move = none) (h : Q () owed d) : (Svc.say o).tells q Q E owed d := by
  refine ⟨fun _ => h, fun m hm => ?_⟩
  rw [show telling.about o = none from ho] at hm
  cases hm

theorem Svc.tells_now {Q : Time → Txn.Debt Move → Db → Prop}
    (h : ∀ d', Later d d' → Q d'.clock owed d') : Svc.now.tells q Q E owed d :=
  fun d' h' => h d' h'

theorem Svc.tells_query {name : String} {f : Db → α} {Q : α → Txn.Debt Move → Db → Prop}
    (lost : ∀ d', Later d d' → E owed d')
    (ok : ∀ d₁ d', Later d d₁ → Later d₁ d' → Q (f d₁) owed d') :
    (Svc.query (.reads name f)).tells q Q E owed d := by
  refine ⟨fun e d' h' => lost d' h', fun d' h' => ⟨fun d₁ r h₁ h₂ he _ => ?_,
    fun _ _ _ he => nomatch he⟩⟩
  cases he
  rw [show writeAll ([] : List Write) d' = d' from rfl, Telling.after_idle]
  exact ok d₁ d' h₁ h₂

variable {t : Txn.Tx Db Row Write Err α} (P : α → Db → Db → Prop)

theorem Svc.tells_attempt {Q : Except Err α → Txn.Debt Move → Db → Prop}
    (ht : ∀ d', Later d d' → t.commits (Rely Good) d'
      (fun a _ _ ws => P a d' (writeAll ws d')) d [] [])
    (error : ∀ e d', Later d d' → Q (.error e) owed d')
    (ok : ∀ a d₁ d₂, Later d d₁ → q.commits d₁ d₂ → P a d₁ d₂ →
      Q (.ok a) (telling.after owed d₁ d₂) d₂) : (Svc.attempt t).tells q Q E owed d :=
  ⟨fun e d' h' => error e d' h', fun d' h' => Txn.Tx.commits_mono
    (fun a _ K _ hp ⟨τ, hg⟩ => ok a d' _ h' ⟨τ, K, hg⟩ hp) (ht d' h')⟩

theorem Svc.tells_transaction {Q : α → Txn.Debt Move → Db → Prop}
    (ht : ∀ d', Later d d' → t.commits (Rely Good) d'
      (fun a _ _ ws => P a d' (writeAll ws d')) d [] [])
    (error : ∀ d', Later d d' → E owed d')
    (ok : ∀ a d₁ d₂, Later d d₁ → q.commits d₁ d₂ → P a d₁ d₂ →
      Q a (telling.after owed d₁ d₂) d₂) : (Svc.transaction t).tells q Q E owed d :=
  ⟨fun _ d' h' => error d' h', fun d' h' => Txn.Tx.commits_mono
    (fun a _ K _ hp ⟨τ, hg⟩ => ok a d' _ h' ⟨τ, K, hg⟩ hp) (ht d' h')⟩

theorem Svc.tells_tryCatch {s : Svc β} {h : Err → Svc β}
    (hs : s.tells q Q (fun owed d => ∀ e, (h e).tells q Q E owed d) owed d) :
    (tryCatch s h).tells q Q E owed d := by
  refine Txn.Prog.tells_bind (Txn.Prog.tells_mono (fun r owed d hr => ?_) hs)
  cases r with
  | ok a => exact hr
  | error e => exact hr e

/-- What every good commit preserves, holds where a service function ends. -/
theorem Svc.tells_inv {I : Db → Prop}
    (hI : ∀ q τ L d d', Good q τ (.commit L d d') → I d → I d') (hd : I d) {s : Svc β}
    (h : s.tells q Q E owed d) :
    s.tells q (fun b owed d => Q b owed d ∧ I d) (fun owed d => E owed d ∧ I d) owed d := by
  refine Txn.Prog.tells_mono (fun r owed d hr => ?_) (Txn.Prog.tells_inv hI hd h)
  cases r with
  | ok a => exact hr
  | error e => exact hr

/-- What `Svc.tells` says of a request's whole program. -/
theorem Svc.tells_run {P : Txn.Debt Move → Prop} {s : Svc β}
    (h : s.tells q (fun _ owed _ => P owed) (fun owed _ => P owed) owed d) :
    Txn.Prog.tells telling Good q (fun _ owed _ => P owed) s.run owed d := by
  refine Txn.Prog.tells_mono (fun r owed d hr => ?_) h
  cases r with
  | ok a => exact hr
  | error e => exact hr

attribute [irreducible] Svc.tells

end Rules

section Settles

/-- Wherever it begins, `s` owes nothing when it ends. -/
def Svc.settles (q : Request) (s : Svc α) : Prop :=
  ∀ d, s.tells q (fun _ owed _ => owed = Telling.clear) (fun owed _ => owed = Telling.clear)
    Telling.clear d

/-- What is owed is paid by the rest of the request. -/
abbrev Svc.pays (q : Request) (s : Svc α) (owed : Txn.Debt Move) (d : Db) : Prop :=
  s.tells q (fun _ owed _ => owed = Telling.clear) (fun owed _ => owed = Telling.clear) owed d

theorem Svc.settles_pure (a : α) : (pure a : Svc α).settles q := fun _ => Svc.tells_pure rfl

theorem Svc.settles_throw (e : Err) : (throw e : Svc α).settles q := fun _ => Svc.tells_throw rfl

theorem Svc.pays_bind {s : Svc α} {k : α → Svc β} {owed : Txn.Debt Move} (h : s.pays q owed d)
    (hk : ∀ a, (k a).settles q) : (s >>= k).pays q owed d := by
  refine Svc.tells_bind (Svc.tells_mono (fun a owed' d ho => ?_) (fun _ _ ho => ho) h)
  obtain rfl : owed' = Telling.clear := ho
  exact hk a d

theorem Svc.settles_bind {s : Svc α} {k : α → Svc β} (h : s.settles q)
    (hk : ∀ a, (k a).settles q) : (s >>= k).settles q :=
  fun d => Svc.pays_bind (h d) hk

theorem Svc.settles_map {s : Svc α} {f : α → β} (h : s.settles q) : (f <$> s).settles q :=
  Svc.settles_bind h fun a => Svc.settles_pure (f a)

theorem Svc.settles_ite {c : Prop} [Decidable c] {s s' : Svc α} (pos : c → s.settles q)
    (neg : ¬c → s'.settles q) : (if c then s else s').settles q := by
  split_ifs with h
  · exact pos h
  · exact neg h

theorem Svc.settles_ofExcept (r : Except Err α) : (Svc.ofExcept r).settles q := by
  cases r with
  | ok a => exact Svc.settles_pure a
  | error e => exact Svc.settles_throw e

theorem Svc.settles_now : Svc.now.settles q := fun _ => Svc.tells_now fun _ _ => rfl

theorem Svc.settles_query {name : String} {f : Db → α} :
    (Svc.query (.reads name f)).settles q :=
  fun _ => Svc.tells_query (fun _ _ => rfl) fun _ _ _ _ => rfl

theorem Svc.settles_tryCatch {s : Svc α} {h : Err → Svc α} (hs : s.settles q)
    (hh : ∀ e, (h e).settles q) : (tryCatch s h).settles q := by
  refine fun d => Svc.tells_tryCatch (Svc.tells_mono (fun _ _ _ ho => ho)
    (fun owed d₁ ho e => ?_) (hs d))
  obtain rfl : owed = Telling.clear := ho
  exact hh e d₁

variable {t : Txn.Tx Db Row Write Err α} {P : α → Db → Db → Prop} {k : α → Svc β}

/-- Whatever the transaction commits, the rest of the request tells it. -/
theorem Svc.settles_transaction_bind
    (ht : ∀ d₀ d, t.commits (Rely Good) d (fun a _ _ ws => P a d (writeAll ws d)) d₀ [] [])
    (hk : ∀ a d₁ d₂, q.commits d₁ d₂ → P a d₁ d₂ →
      (k a).pays q (telling.after Telling.clear d₁ d₂) d₂) :
    (Svc.transaction t >>= k).settles q :=
  fun d => Svc.tells_bind (Svc.tells_transaction P (fun d' _ => ht d d') (fun _ _ => rfl)
    fun a d₁ d₂ _ hc hp => hk a d₁ d₂ hc hp)

theorem Svc.settles_transaction
    (ht : ∀ d₀ d, t.commits (Rely Good) d (fun a _ _ ws => P a d (writeAll ws d)) d₀ [] [])
    (hk : ∀ a d₁ d₂, q.commits d₁ d₂ → P a d₁ d₂ → ∀ m, ¬telling.makes m d₁ d₂) :
    (Svc.transaction t).settles q :=
  fun d => Svc.tells_transaction P (fun d' _ => ht d d') (fun _ _ => rfl)
    fun a d₁ d₂ _ hc hp => Telling.after_none (hk a d₁ d₂ hc hp)

/-- However many attempts it takes, what the one that commits makes is owed. -/
theorem Svc.tells_retry {ι : Type} {collision : Err → Bool}
    {t : ι → Txn.Tx Db Row Write Err α} {draw : Nat → ι} {Q : α → Txn.Debt Move → Db → Prop}
    {E : Txn.Debt Move → Db → Prop}
    (ht : ∀ x d₀ d, (t x).commits (Rely Good) d (fun a _ _ ws => P a d (writeAll ws d)) d₀ [] [])
    (error : ∀ d, E Telling.clear d)
    (ok : ∀ a d₁ d₂, q.commits d₁ d₂ → P a d₁ d₂ →
      Q a (telling.after Telling.clear d₁ d₂) d₂) :
    ∀ (more attempt : Nat) (d : Db),
      (Svc.retry collision t draw attempt more).tells q Q E Telling.clear d
  | 0, attempt, d => Svc.tells_transaction P (fun d' _ => ht (draw attempt) d d')
      (fun d' _ => error d') fun a d₁ d₂ _ hc hp => ok a d₁ d₂ hc hp
  | more + 1, attempt, d => by
    refine Svc.tells_bind (Svc.tells_attempt P (fun d' _ => ht (draw attempt) d d')
      (fun e d' _ => ?_) fun a d₁ d₂ _ hc hp => Svc.tells_pure (ok a d₁ d₂ hc hp))
    dsimp only
    split_ifs
    · exact tells_retry ht error ok more (attempt + 1) d'
    · exact Svc.tells_throw (error d')

end Settles

end EchoAndAura
