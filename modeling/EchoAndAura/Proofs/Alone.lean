import EchoAndAura.Alone
import EchoAndAura.Proofs.Services

/-!
# Requests alone

`Prog.alone` is what the running system does when one process has it to itself (`run_alone`), and
one of the endings its `wp` speaks of (`Prog.alone_of_wp`).  The rules below compute it.
-/

namespace Txn

variable {Db Row W ε O α β γ Req : Type} [Rows Db Row W]

theorem Tx.alone_bind {f : β → Tx Db Row W ε γ} {d : Db} :
    ∀ {t : Tx Db Row W ε β} {ws : List W},
      (t.bind f).alone d ws = (t.alone d ws).bind fun r => (f r.1).alone d r.2
  | .pure _, _ => rfl
  | .throw _, _ => rfl
  | .call s k, ws => by
    rcases he : s.exec (writeAll ws d) with r | ⟨K', ws', r⟩ | e <;> simp only [bind, alone, he]
    · exact alone_bind
    · exact alone_bind
    · rfl

theorem Prog.alone_bind {f : β → Prog Db Row W ε O γ} :
    ∀ {p : Prog Db Row W ε O β} {d : Db}, (p.bind f).alone d = (f (p.alone d).1).alone (p.alone d).2
  | .done _, _ => rfl
  | .say _ k, d => alone_bind (p := k) (d := d)
  | .look _ g k, d => alone_bind (p := k (g d)) (d := d)
  | .tx t k, d => by
    rcases ht : t.alone d [] with e | ⟨b, ws⟩ <;> simp only [bind, alone, ht]
    · exact alone_bind (p := k (.error e))
    · exact alone_bind (p := k (.ok b))

section Wp

variable {Good : Req → List (Obs Db Row O α) → Obs Db Row O α → Prop} {lost : ε} {q : Req}

theorem Tx.alone_of_wp
    {Q : Except ε β → List (Lock Row) → List W → List (Obs Db Row O α) → Db → Prop} {d : Db} :
    ∀ {t : Tx Db Row W ε β} {K : List (Lock Row)} {ws : List W} {τ : List (Obs Db Row O α)},
      t.wp Good Q K ws τ d → ∃ K' τ', match t.alone d ws with
        | .ok (b, ws') => Q (.ok b) K' ws' τ' d
        | .error e => Q (.error e) [] [] τ' d
  | .pure b, K, ws, τ, h => ⟨K, τ, h d .refl⟩
  | .throw e, K, ws, τ, h => ⟨K, τ, h d .refl⟩
  | .call s c, K, ws, τ, h => by
    have hd := h d .refl
    unfold alone
    rcases he : s.exec (writeAll ws d) with r | ⟨K', ws', r⟩ | e <;> simp only [he] at hd ⊢
    · exact alone_of_wp hd
    · exact alone_of_wp hd
    · exact ⟨K, τ, hd⟩

/-- Running alone is one way of running among the others. -/
theorem Prog.alone_of_wp {Q : γ → List (Obs Db Row O α) → Db → Prop} :
    ∀ {p : Prog Db Row W ε O γ} {τ : List (Obs Db Row O α)} {d : Db}, p.wp Good lost q Q τ d →
      ∃ τ', Q (p.alone d).1 τ' (p.alone d).2 ∧ Rely Good [] d (p.alone d).2
  | .done a, τ, d, h => ⟨τ, h d .refl, .refl⟩
  | .say o k, τ, d, h => alone_of_wp (p := k) (d := d) h.2
  | .look name f k, τ, d, h => alone_of_wp (p := k (f d)) (h d .refl)
  | .tx t k, τ, d, h => by
    obtain ⟨K, τ', ht⟩ := Tx.alone_of_wp h.1
    rcases hr : t.alone d [] with e | ⟨b, ws⟩ <;> simp only [alone, hr] at ht ⊢
    · exact alone_of_wp (p := k (.error e)) ht
    · obtain ⟨hg, hk⟩ := ht
      obtain ⟨τ'', hq, hrely⟩ := alone_of_wp (p := k (.ok b)) hk
      exact ⟨τ'', hq, .head ⟨⟨_, _, _, hg, by simp⟩, by simp⟩ hrely⟩

end Wp

section Run

variable [DecidableEq Row] (S : Service Db Row W ε O α Req)

/-- The first process does some steps. -/
def Sys.Steps (σ σ' : Sys Req Db Row W ε O α) : Prop :=
  ∃ n, (List.replicate n (.step 0)).foldl (fun σ a => Sys.act S a σ) σ = σ'

variable {S} {σ σ' σ'' : Sys Req Db Row W ε O α} {q : Req}

theorem Sys.Steps.trans (h : Sys.Steps S σ σ') (h' : Sys.Steps S σ' σ'') : Sys.Steps S σ σ'' := by
  obtain ⟨n, rfl⟩ := h
  obtain ⟨m, rfl⟩ := h'
  exact ⟨n + m, by rw [List.replicate_add, List.foldl_append]⟩

/-- A lone process has no one to wait for. -/
theorem Sys.Steps.one {p p' : Proc Db Row W ε O α} {d d' : Db} {l : List (Entry Req Db Row O α)}
    {obs : List (Obs Db Row O α)} (h : ∀ free : List (Lock Row) → Bool, (∀ K, free K = true) →
      p.step free d = some (p', d', obs)) :
    Sys.Steps S ⟨d, [(q, p)], l⟩ ⟨d', [(q, p')], l ++ obs.map (⟨0, q, ·⟩)⟩ := by
  refine ⟨1, ?_⟩
  have hfree : ∀ K, Sys.free ⟨d, [(q, p)], l⟩ 0 K = true := fun _ => rfl
  show Sys.act S (.step 0) ⟨d, [(q, p)], l⟩ = _
  simp only [Sys.act, List.getElem?_cons_zero, h _ hfree, List.set_cons_zero]

theorem Tx.steps_alone {k : Except ε β → Prog Db Row W ε O α} {d : Db} :
    ∀ (t : Tx Db Row W ε β) (K : List (Lock Row)) (ws : List W) (l : List (Entry Req Db Row O α)),
      ∃ l', Sys.Steps S ⟨d, [(q, .tx t k K ws)], l⟩ (match t.alone d ws with
        | .ok (b, ws') => ⟨writeAll ws' d, [(q, .run (k (.ok b)))], l'⟩
        | .error e => ⟨d, [(q, .run (k (.error e)))], l'⟩)
  | .pure b, K, ws, l => ⟨_, .one fun _ _ => rfl⟩
  | .throw e, K, ws, l => ⟨_, .one fun _ _ => rfl⟩
  | .call s c, K, ws, l => by
    rcases he : s.exec (writeAll ws d) with r | ⟨K', ws', r⟩ | e
    · have hone : Sys.Steps S ⟨d, [(q, .tx (.call s c) k K ws)], l⟩ ⟨d, [(q, .tx (c r) k K ws)],
          l ++ [.read s.name (writeAll ws d)].map (⟨0, q, ·⟩)⟩ :=
        .one fun free _ => by simp only [Proc.step, he]
      obtain ⟨l', hl⟩ := steps_alone (c r) K ws (l ++ [.read s.name (writeAll ws d)].map (⟨0, q, ·⟩))
      refine ⟨l', ?_⟩
      simp only [alone, he]
      exact hone.trans hl
    · have hone : Sys.Steps S ⟨d, [(q, .tx (.call s c) k K ws)], l⟩
          ⟨d, [(q, .tx (c r) k (K' ++ K) (ws ++ ws'))], l ++ [].map (⟨0, q, ·⟩)⟩ :=
        .one fun free hfree => by simp only [Proc.step, he, hfree, if_true]
      obtain ⟨l', hl⟩ := steps_alone (c r) (K' ++ K) (ws ++ ws') (l ++ [].map (⟨0, q, ·⟩))
      refine ⟨l', ?_⟩
      simp only [alone, he]
      exact hone.trans hl
    · refine ⟨l ++ [].map (⟨0, q, ·⟩), ?_⟩
      simp only [alone, he]
      exact .one fun free _ => by simp only [Proc.step, he]

theorem Prog.steps_alone :
    ∀ (p : Prog Db Row W ε O α) (d : Db) (l : List (Entry Req Db Row O α)),
      ∃ l', Sys.Steps S ⟨d, [(q, .run p)], l⟩
        ⟨(p.alone d).2, [(q, .ended)], l' ++ [⟨0, q, .done (p.alone d).1⟩]⟩
  | .done a, d, l => by
    have hone : Sys.Steps S ⟨d, [(q, .run (.done a))], l⟩
        ⟨d, [(q, .ended)], l ++ [.done a].map (⟨0, q, ·⟩)⟩ := .one fun _ _ => rfl
    exact ⟨l, hone⟩
  | .say o k, d, l => by
    have hone : Sys.Steps S ⟨d, [(q, .run (.say o k))], l⟩
        ⟨d, [(q, .run k)], l ++ [.say o].map (⟨0, q, ·⟩)⟩ := .one fun _ _ => rfl
    obtain ⟨l', hl⟩ := steps_alone k d (l ++ [.say o].map (⟨0, q, ·⟩))
    exact ⟨l', hone.trans hl⟩
  | .look name f k, d, l => by
    have hone : Sys.Steps S ⟨d, [(q, .run (.look name f k))], l⟩
        ⟨d, [(q, .run (k (f d)))], l ++ [.read name d].map (⟨0, q, ·⟩)⟩ := .one fun _ _ => rfl
    obtain ⟨l', hl⟩ := steps_alone (k (f d)) d (l ++ [.read name d].map (⟨0, q, ·⟩))
    exact ⟨l', hone.trans hl⟩
  | .tx t k, d, l => by
    have hone : Sys.Steps S ⟨d, [(q, .run (.tx t k))], l⟩
        ⟨d, [(q, .tx t k [] [])], l ++ [].map (⟨0, q, ·⟩)⟩ := .one fun _ _ => rfl
    obtain ⟨l₁, h₁⟩ := Tx.steps_alone (S := S) (q := q) (k := k) (d := d) t [] []
      (l ++ [].map (⟨0, q, ·⟩))
    rcases hr : t.alone d [] with e | ⟨b, ws⟩ <;> simp only [alone, hr] at h₁ ⊢
    · obtain ⟨l', hl⟩ := steps_alone (k (.error e)) d l₁
      exact ⟨l', hone.trans (h₁.trans hl)⟩
    · obtain ⟨l', hl⟩ := steps_alone (k (.ok b)) (writeAll ws d) l₁
      exact ⟨l', hone.trans (h₁.trans hl)⟩

/-- A request that has the system to itself ends with the answer and the database of `alone`. -/
theorem run_alone (d : Db) (q : Req) : ∃ n l,
    Sys.run S d (.start q :: List.replicate n (.step 0)) =
      ⟨((S.prog q).alone d).2, [(q, .ended)], l ++ [⟨0, q, .done ((S.prog q).alone d).1⟩]⟩ := by
  obtain ⟨l, n, hn⟩ := Prog.steps_alone (S := S) (q := q) (S.prog q) d []
  exact ⟨n, l, hn⟩

end Run

end Txn

namespace EchoAndAura

open Txn (writeAll)

variable {α β : Type} {d d' : Db}

section Failures

variable {γ : Type} {e : Err}

/-- One fails just where the other does, and with the same error. -/
def SameFailure (r : Except Err α) (r' : Except Err β) : Prop :=
  ∀ e, r = .error e ↔ r' = .error e

theorem SameFailure.ok {r : Except Err α} {r' : Except Err β} (h : SameFailure r r') {a : α}
    (hr : r = .ok a) : ∃ b, r' = .ok b := by
  rcases hr' : r' with e | b
  · rw [(h e).2 hr'] at hr
    cases hr
  · exact ⟨b, rfl⟩

theorem SameFailure.bind {r : Except Err γ} {f : γ → Except Err α} {f' : γ → Except Err β}
    (h : ∀ c, SameFailure (f c) (f' c)) : SameFailure (r.bind f) (r.bind f') := by
  rcases r with e | c
  · exact fun _ => ⟨fun h => by cases h; rfl, fun h => by cases h; rfl⟩
  · exact h c

end Failures

section Statements

variable {ρ : Type} {ws : List Write}

theorem Tx.alone_bind (t : Tx α) (k : α → Tx β) (d : Db) (ws : List Write) :
    (t >>= k).alone d ws = (t.alone d ws).bind fun r => (k r.1).alone d r.2 :=
  Txn.Tx.alone_bind

theorem Tx.alone_bind_eq {t : Tx α} {k : α → Tx β} {r : β × List Write}
    (h : (t >>= k).alone d ws = .ok r) :
    ∃ a ws', t.alone d ws = .ok (a, ws') ∧ (k a).alone d ws' = .ok r := by
  rw [Tx.alone_bind] at h
  rcases ht : t.alone d ws with e | ⟨a, ws'⟩ <;> rw [ht] at h
  · cases h
  · exact ⟨a, ws', rfl, h⟩

theorem Tx.alone_ofExcept_eq {r : Except Err α} {a : α × List Write}
    (h : (Tx.ofExcept r).alone d ws = .ok a) : r = .ok a.1 ∧ a.2 = ws := by
  cases r with
  | error e => cases h
  | ok b =>
    cases h
    exact ⟨rfl, rfl⟩

/-- A composition fails in one of its parts. -/
theorem Tx.alone_bind_failed {t : Tx α} {k : α → Tx β} {e : Err}
    (h : (t >>= k).alone d ws = .error e) : t.alone d ws = .error e ∨
      ∃ a ws', t.alone d ws = .ok (a, ws') ∧ (k a).alone d ws' = .error e := by
  rw [Tx.alone_bind] at h
  rcases ht : t.alone d ws with e' | ⟨a, ws'⟩ <;> rw [ht] at h
  · cases h
    exact .inl rfl
  · exact .inr ⟨a, ws', rfl, h⟩

theorem Tx.alone_ofExcept_failed {r : Except Err α} {e : Err}
    (h : (Tx.ofExcept r).alone d ws = .error e) : r = .error e := by
  cases r with
  | error e' =>
    cases h
    rfl
  | ok b => cases h

theorem Tx.alone_exec_failed {s : Stmt ρ} {e : Err} (h : (exec s).alone d ws = .error e) :
    s.exec (writeAll ws d) = .fail e := by
  simp only [exec, Txn.Tx.ofStmt, Txn.Tx.alone] at h
  rcases hs : s.exec (writeAll ws d) with r | ⟨K, ws', r⟩ | e' <;> simp only [hs] at h
  · cases h
  · cases h
  · cases h
    rfl

theorem Tx.alone_pure (b : β) (d : Db) (ws : List Write) :
    (pure b : Tx β).alone d ws = .ok (b, ws) := rfl

theorem Tx.alone_reads (name : String) (f : Db → ρ) (d : Db) (ws : List Write) :
    (exec (.reads name f)).alone d ws = .ok (f (writeAll ws d), ws) := rfl

theorem Tx.alone_append {name : String} {w : Write} {r : ρ} {hw : Txn.Rows.row Db w = none} :
    (exec (.append name w r hw)).alone d ws = .ok (r, ws ++ [w]) := rfl

theorem Tx.alone_insert {name : String} {keys : List Row} {violation : Db → Option Err}
    {new : List Write} {r : ρ} {hv hws} (h : violation (writeAll ws d) = none) :
    (exec (.insert name keys violation new r hv hws)).alone d ws = .ok (r, ws ++ new) := by
  simp only [exec, Txn.Tx.ofStmt, Txn.Tx.alone, Txn.Stmt.insert, h]

/-- What a change to one row comes to. -/
def Change.alone (ws : List Write) : Change ρ → Except Err (ρ × List Write)
  | .miss r | .share r | .lock r => .ok (r, ws)
  | .write w r => .ok (r, ws ++ [w])
  | .refuse e => .error e

theorem Tx.alone_change {s : Stmt ρ} {x : Row} {c : Change ρ}
    (h : s.exec (writeAll ws d) = c.outcome x) : (exec s).alone d ws = c.alone ws := by
  cases c <;>
    simp [exec, Txn.Tx.ofStmt, Txn.Tx.alone, h, Txn.Change.outcome, Change.alone]

end Statements

section Services

variable {s : Svc α} {k : α → Svc β} {a : α} {e : Err}

theorem Svc.alone_bind_ok (h : s.alone d = (.ok a, d')) : (s >>= k).alone d = (k a).alone d' := by
  show (Txn.Prog.bind s.run _).alone d = _
  rw [Txn.Prog.alone_bind, show s.run.alone d = (.ok a, d') from h]
  rfl

theorem Svc.alone_bind_error (h : s.alone d = (.error e, d')) :
    (s >>= k).alone d = (.error e, d') := by
  show (Txn.Prog.bind s.run _).alone d = _
  rw [Txn.Prog.alone_bind, show s.run.alone d = (.error e, d') from h]
  rfl

theorem Svc.alone_pure (a : α) (d : Db) : (pure a : Svc α).alone d = (.ok a, d) := rfl

theorem Svc.alone_throw (e : Err) (d : Db) : (throw e : Svc α).alone d = (.error e, d) := rfl

theorem Svc.alone_now (d : Db) : Svc.now.alone d = (.ok d.clock, d) := rfl

theorem Svc.alone_say (o : Say) (d : Db) : (Svc.say o).alone d = (.ok (), d) := rfl

theorem Svc.alone_query (name : String) (f : Db → α) (d : Db) :
    (Svc.query (.reads name f)).alone d = (.ok (f d), d) := rfl

theorem Svc.alone_transaction_ok {t : Tx α} {ws : List Write} (h : t.alone d [] = .ok (a, ws)) :
    (Svc.transaction t).alone d = (.ok a, writeAll ws d) := by
  show (Txn.Prog.tx t .done).alone d = _
  simp only [Txn.Prog.alone, h]

theorem Svc.alone_transaction_error {t : Tx α} (h : t.alone d [] = .error e) :
    (Svc.transaction t).alone d = (.error e, d) := by
  show (Txn.Prog.tx t .done).alone d = _
  simp only [Txn.Prog.alone, h]

theorem Svc.alone_attempt_ok {t : Tx α} {ws : List Write} (h : t.alone d [] = .ok (a, ws)) :
    (Svc.attempt t).alone d = (.ok (.ok a), writeAll ws d) := by
  show (Txn.Prog.tx _ _).alone d = _
  simp only [Txn.Prog.alone, h]

theorem Svc.alone_attempt_error {t : Tx α} (h : t.alone d [] = .error e) :
    (Svc.attempt t).alone d = (.ok (.error e), d) := by
  show (Txn.Prog.tx _ _).alone d = _
  simp only [Txn.Prog.alone, h]

theorem Svc.alone_tryCatch_ok {h : Err → Svc α} (hs : s.alone d = (.ok a, d')) :
    (tryCatch s h).alone d = (.ok a, d') := by
  show (Txn.Prog.bind s.run _).alone d = _
  rw [Txn.Prog.alone_bind, show s.run.alone d = (.ok a, d') from hs]
  rfl

theorem Svc.alone_tryCatch_error {h : Err → Svc α} (hs : s.alone d = (.error e, d')) :
    (tryCatch s h).alone d = (h e).alone d' := by
  show (Txn.Prog.bind s.run _).alone d = _
  rw [Txn.Prog.alone_bind, show s.run.alone d = (.error e, d') from hs]
  rfl

/-- A composition that answers has answered in each part. -/
theorem Svc.alone_bind_eq {b : β} {d₂ : Db} (h : (s >>= k).alone d = (.ok b, d₂)) :
    ∃ a d₁, s.alone d = (.ok a, d₁) ∧ (k a).alone d₁ = (.ok b, d₂) := by
  rcases hs : s.alone d with ⟨e | a, d₁⟩
  · rw [Svc.alone_bind_error hs] at h
    cases h
  · rw [Svc.alone_bind_ok hs] at h
    exact ⟨a, d₁, rfl, h⟩

theorem Svc.alone_map_eq {f : α → β} {b : β} {d₂ : Db} (h : (f <$> s).alone d = (.ok b, d₂)) :
    ∃ a, s.alone d = (.ok a, d₂) ∧ f a = b := by
  change (Txn.Prog.bind s.run _).alone d = _ at h
  rw [Txn.Prog.alone_bind] at h
  rcases hs : s.alone d with ⟨e | a, d₁⟩
  · rw [show s.run.alone d = (.error e, d₁) from hs] at h
    cases h
  · rw [show s.run.alone d = (.ok a, d₁) from hs] at h
    cases h
    exact ⟨a, rfl, rfl⟩

theorem Svc.alone_map_failed {f : α → β} (h : (f <$> s).alone d = (.error e, d')) :
    s.alone d = (.error e, d') := by
  change (Txn.Prog.bind s.run _).alone d = _ at h
  rw [Txn.Prog.alone_bind] at h
  rcases hs : s.alone d with ⟨e' | a, d₁⟩
  · rw [show s.run.alone d = (.error e', d₁) from hs] at h
    cases h
    rfl
  · rw [show s.run.alone d = (.ok a, d₁) from hs] at h
    cases h

theorem Svc.alone_ofExcept {r : Except Err α} : (Svc.ofExcept r).alone d = (r, d) := rfl

theorem Svc.alone_ofExcept_eq {r : Except Err α} (h : (Svc.ofExcept r).alone d = (.ok a, d')) :
    r = .ok a ∧ d' = d := by
  cases h
  exact ⟨rfl, rfl⟩

theorem Svc.alone_ofExcept_failed {r : Except Err α}
    (h : (Svc.ofExcept r).alone d = (.error e, d')) : r = .error e ∧ d' = d := by
  cases h
  exact ⟨rfl, rfl⟩

/-- A composition fails in one of its parts. -/
theorem Svc.alone_bind_failed (h : (s >>= k).alone d = (.error e, d')) :
    s.alone d = (.error e, d') ∨
      ∃ a d₁, s.alone d = (.ok a, d₁) ∧ (k a).alone d₁ = (.error e, d') := by
  rcases hs : s.alone d with ⟨e' | a, d₁⟩
  · rw [Svc.alone_bind_error hs] at h
    cases h
    exact .inl rfl
  · rw [Svc.alone_bind_ok hs] at h
    exact .inr ⟨a, d₁, rfl, h⟩

/-- A transaction that answers has come to that answer on its own, and has written what it
wrote. -/
theorem Svc.alone_transaction_eq {t : Tx α} (h : (Svc.transaction t).alone d = (.ok a, d')) :
    ∃ ws, t.alone d [] = .ok (a, ws) ∧ d' = writeAll ws d := by
  rcases ht : t.alone d [] with e | ⟨a', ws⟩
  · rw [Svc.alone_transaction_error ht] at h
    cases h
  · rw [Svc.alone_transaction_ok ht] at h
    cases h
    exact ⟨ws, rfl, rfl⟩

section Retry

variable {ι : Type} {collision : Err → Bool} {t : ι → Tx α} {t' : ι → Tx β} {draw : Nat → ι}

/-- What a retried transaction answers is what one attempt came to, the ones before it undone. -/
theorem Svc.alone_retry_eq :
    ∀ {more attempt : Nat} {d : Db},
      (Svc.retry collision t draw attempt more).alone d = (.ok a, d') →
        ∃ x ws, (t x).alone d [] = .ok (a, ws) ∧ d' = writeAll ws d
  | 0, attempt, d, h => by
    obtain ⟨ws, hws, hd⟩ := Svc.alone_transaction_eq h
    exact ⟨_, ws, hws, hd⟩
  | more + 1, attempt, d, h => by
    rcases ht : (t (draw attempt)).alone d [] with e | ⟨b, ws⟩
    · rw [Svc.retry, Svc.alone_bind_ok (Svc.alone_attempt_error ht)] at h
      dsimp only at h
      split_ifs at h
      · exact Svc.alone_retry_eq h
      · cases h
    · rw [Svc.retry, Svc.alone_bind_ok (Svc.alone_attempt_ok ht)] at h
      cases h
      exact ⟨_, ws, ht, rfl⟩

/-- What a retried transaction fails with is what one attempt failed with. -/
theorem Svc.alone_retry_failed :
    ∀ {more attempt : Nat} {d : Db},
      (Svc.retry collision t draw attempt more).alone d = (.error e, d') →
        ∃ x, (t x).alone d [] = .error e
  | 0, attempt, d, h => by
    rcases ht : (t (draw attempt)).alone d [] with e' | ⟨a, ws⟩
    · have h' := (Svc.alone_transaction_error ht).symm.trans h
      cases h'
      exact ⟨_, ht⟩
    · have h' := (Svc.alone_transaction_ok ht).symm.trans h
      cases h'
  | more + 1, attempt, d, h => by
    rcases ht : (t (draw attempt)).alone d [] with e' | ⟨b, ws⟩
    · rw [Svc.retry, Svc.alone_bind_ok (Svc.alone_attempt_error ht)] at h
      dsimp only at h
      split_ifs at h
      · exact Svc.alone_retry_failed h
      · cases h
        exact ⟨_, ht⟩
    · rw [Svc.retry, Svc.alone_bind_ok (Svc.alone_attempt_ok ht)] at h
      cases h

/-- Transactions that succeed alike, whatever they draw, succeed alike when retried. -/
theorem Svc.alone_retry_alike (h : ∀ x, SameFailure ((t x).alone d []) ((t' x).alone d [])) :
    ∀ {more attempt : Nat} {a : α} {d₁ : Db},
      (Svc.retry collision t draw attempt more).alone d = (.ok a, d₁) →
        ∃ b d₂, (Svc.retry collision t' draw attempt more).alone d = (.ok b, d₂)
  | 0, attempt, a, d₁, hr => by
    obtain ⟨ws, hws, -⟩ := Svc.alone_transaction_eq hr
    obtain ⟨r, hok⟩ := (h _).ok hws
    exact ⟨_, _, Svc.alone_transaction_ok hok⟩
  | more + 1, attempt, a, d₁, hr => by
    rcases ht : (t (draw attempt)).alone d [] with e | ⟨b, ws⟩
    · rw [Svc.retry, Svc.alone_bind_ok (Svc.alone_attempt_error ht)] at hr
      rw [Svc.retry, Svc.alone_bind_ok (Svc.alone_attempt_error ((h _ e).1 ht))]
      dsimp only at hr ⊢
      split_ifs at hr ⊢
      · exact Svc.alone_retry_alike h hr
      · cases hr
    · obtain ⟨r, hok⟩ := (h _).ok ht
      rw [Svc.retry, Svc.alone_bind_ok (Svc.alone_attempt_ok hok)]
      exact ⟨_, _, rfl⟩

end Retry

/-- A service that others leave good has only made good commits when it ran alone. -/
theorem Svc.later_alone {q : Request} {Q : α → List Obs → Db → Prop}
    {E : Err → List Obs → Db → Prop} {τ : List Obs} (hw : s.wp q Q E τ d) :
    Later d (s.alone d).2 := by
  unfold Svc.wp at hw
  obtain ⟨-, -, hrely⟩ := Txn.Prog.alone_of_wp hw
  exact hrely

end Services

end EchoAndAura
