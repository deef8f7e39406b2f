import EchoAndAura.Proofs.Conduct

/-!
# Service functions among others

`Svc.wp` says that a service function does only good things however the others interfere, and what
it ends in.  There is one rule for each way a service function touches the world; up to its
transaction a request only idles (`Idled`).
-/

namespace EchoAndAura

open Txn (Lock writeAll Rely)

variable {α β γ : Type} {q : Request} {τ : List Obs} {d : Db}

section Traces

theorem quiet_nil : Quiet [] := by simp [Quiet]

theorem quiet_append {τ τ' : List Obs} : Quiet (τ ++ τ') ↔ Quiet τ ∧ Quiet τ' := by
  simp only [Quiet, List.mem_append]
  exact ⟨fun h => ⟨fun K d d' hm => h K d d' (.inl hm), fun K d d' hm => h K d d' (.inr hm)⟩,
    fun h K d d' hm => hm.elim (h.1 K d d') (h.2 K d d')⟩

theorem quiet_of_reads {rs : List Obs} (h : ∀ o ∈ rs, o.isRead) : Quiet rs :=
  fun _ _ _ hm => (h _ hm).elim

theorem quiet_query {name : String} {K : List (Lock Row)} {d₁ : Db} :
    Quiet [.read name d₁, .commit K d d] := by
  intro K' d' d'' hm
  simp only [List.mem_cons, reduceCtorEq, Txn.Obs.commit.injEq, List.not_mem_nil, or_false,
    false_or] at hm
  exact hm.2.2.trans hm.2.1.symm

end Traces

section Rules

/-- However the others interfere, `s` does only good things and ends as `Q` says, or in an error
as `E` says. -/
def Svc.wp (q : Request) (s : Svc α) (Q : α → List Obs → Db → Prop)
    (E : Err → List Obs → Db → Prop) (τ : List Obs) (d : Db) : Prop :=
  Txn.Prog.wp Good .lost q (fun r τ d => match r with
    | .ok a => Q a τ d
    | .error e => ∀ d', Later d d' → E e τ d') s.run τ d

variable {Q : β → List Obs → Db → Prop} {E : Err → List Obs → Db → Prop}

theorem Svc.wp_later {s : Svc β} {d' : Db} (h : Later d d') (hw : s.wp q Q E τ d) :
    s.wp q Q E τ d' :=
  Txn.Prog.wp_rely h hw

theorem Svc.wp_pure {b : β} (h : ∀ d', Later d d' → Q b τ d') : (pure b : Svc β).wp q Q E τ d := h

theorem Svc.wp_throw {e : Err} (h : ∀ d', Later d d' → E e τ d') :
    (throw e : Svc β).wp q Q E τ d :=
  fun _ h' _ h'' => h _ (h'.trans h'')

theorem Svc.wp_bind {s : Svc α} {k : α → Svc β}
    (h : s.wp q (fun a τ d => (k a).wp q Q E τ d) E τ d) : (s >>= k).wp q Q E τ d := by
  refine Txn.Prog.wp_bind (Txn.Prog.wp_mono (fun r τ d hr => ?_) h)
  cases r with
  | ok a => exact hr
  | error e => exact fun d' h' d'' h'' => hr d'' (h'.trans h'')

theorem Svc.wp_map {s : Svc α} {f : α → β}
    (h : s.wp q (fun a τ d => ∀ d', Later d d' → Q (f a) τ d') E τ d) :
    (f <$> s).wp q Q E τ d := by
  refine Txn.Prog.wp_bind (Txn.Prog.wp_mono (fun r τ d hr => ?_) h)
  cases r with
  | ok a => exact hr
  | error e => exact fun d' h' d'' h'' => hr d'' (h'.trans h'')

theorem Svc.wp_mono {s : Svc β} {Q' : β → List Obs → Db → Prop} {E' : Err → List Obs → Db → Prop}
    (hQ : ∀ b τ d, Q b τ d → Q' b τ d) (hE : ∀ e τ d, E e τ d → E' e τ d)
    (h : s.wp q Q E τ d) : s.wp q Q' E' τ d := by
  refine Txn.Prog.wp_mono (fun r τ d hr => ?_) h
  cases r with
  | ok a => exact hQ a τ d hr
  | error e => exact fun d' h' => hE e τ d' (hr d' h')

theorem Svc.wp_throw_bind {e : Err} {k : α → Svc β} (h : ∀ d', Later d d' → E e τ d') :
    ((throw e : Svc α) >>= k).wp q Q E τ d :=
  Svc.wp_bind (Svc.wp_throw h)

theorem Svc.wp_pure_bind {a : α} {k : α → Svc β} (h : (k a).wp q Q E τ d) :
    ((pure a : Svc α) >>= k).wp q Q E τ d :=
  Svc.wp_bind (Svc.wp_pure fun _ h' => Svc.wp_later h' h)

theorem Svc.wp_ite {c : Prop} [Decidable c] {s s' : Svc β} (pos : c → s.wp q Q E τ d)
    (neg : ¬c → s'.wp q Q E τ d) : (if c then s else s').wp q Q E τ d := by
  split_ifs with h
  · exact pos h
  · exact neg h

theorem Svc.wp_ofExcept {r : Except Err α} {k : α → Svc β}
    (ok : ∀ a, r = .ok a → (k a).wp q Q E τ d) (error : ∀ e d', Later d d' → E e τ d') :
    (Svc.ofExcept r >>= k).wp q Q E τ d := by
  cases r with
  | ok a => exact Svc.wp_pure_bind (ok a rfl)
  | error e => exact Svc.wp_throw_bind (error e)

theorem Svc.wp_say {o : Say} {Q : Unit → List Obs → Db → Prop} (told : Told τ o)
    (h : ∀ d', Later d d' → Q () (τ ++ [.say o]) d') : (Svc.say o).wp q Q E τ d :=
  ⟨told, h⟩

theorem Svc.wp_say_bind {o : Say} {k : Unit → Svc β} (told : Told τ o)
    (h : (k ()).wp q Q E (τ ++ [.say o]) d) : (Svc.say o >>= k).wp q Q E τ d :=
  Svc.wp_bind (Svc.wp_say told fun _ h' => Svc.wp_later h' h)

theorem Svc.wp_tryCatch {s : Svc β} {h : Err → Svc β}
    (hw : s.wp q (fun a τ d => ∀ d', Later d d' → Q a τ d') (fun e τ d => (h e).wp q Q E τ d) τ d) :
    (tryCatch s h).wp q Q E τ d := by
  refine Txn.Prog.wp_bind (Txn.Prog.wp_mono (fun r τ d hr => ?_) hw)
  cases r with
  | ok a => exact hr
  | error e => exact hr d .refl

end Rules

section Idle

/-- From `τ` and `d` on, a request has changed nothing, while others committed. -/
structure Idled (τ : List Obs) (d : Db) (τ' : List Obs) (d' : Db) : Prop where
  trace : ∃ rs, τ' = τ ++ rs ∧ Quiet rs
  later : Later d d'

theorem Idled.refl (τ : List Obs) (d : Db) : Idled τ d τ d := ⟨⟨[], by simp, quiet_nil⟩, .refl⟩

theorem Idled.reads {rs : List Obs} {d' : Db} (hrs : ∀ o ∈ rs, o.isRead) (h : Later d d') :
    Idled τ d (τ ++ rs) d' :=
  ⟨⟨rs, rfl, quiet_of_reads hrs⟩, h⟩

theorem Idled.wait {d' : Db} (h : Later d d') : Idled τ d τ d' := ⟨⟨[], by simp, quiet_nil⟩, h⟩

theorem Idled.trans {τ₁ τ₂ : List Obs} {d₁ d₂ : Db} (h : Idled τ d τ₁ d₁)
    (h' : Idled τ₁ d₁ τ₂ d₂) : Idled τ d τ₂ d₂ := by
  obtain ⟨⟨rs, rfl, hrs⟩, hl⟩ := h
  obtain ⟨⟨rs', rfl, hrs'⟩, hl'⟩ := h'
  exact ⟨⟨rs ++ rs', by simp, quiet_append.2 ⟨hrs, hrs'⟩⟩, hl.trans hl'⟩

theorem Idled.mem {τ' : List Obs} {d' : Db} {o : Obs} (h : Idled τ d τ' d') (ho : o ∈ τ) :
    o ∈ τ' := by
  obtain ⟨⟨rs, rfl, -⟩, -⟩ := h
  exact List.mem_append_left _ ho

theorem Idled.quiet {τ' : List Obs} {d' : Db} (h : Idled τ d τ' d') (hτ : Quiet τ) : Quiet τ' := by
  obtain ⟨⟨rs, rfl, hrs⟩, -⟩ := h
  exact quiet_append.2 ⟨hτ, hrs⟩

/-- A request whose next commit may change nothing: not a revocation in its own transaction. -/
def Request.closed (q : Request) (τ : List Obs) : Prop :=
  match q with
  | .revokeAndUndo .. => committed τ ≠ 1
  | _ => True

theorem committed_append (τ τ' : List Obs) :
    committed (τ ++ τ') = committed τ + committed τ' :=
  List.countP_append

theorem committed_of_reads {rs : List Obs} (h : ∀ o ∈ rs, o.isRead) : committed rs = 0 := by
  refine List.countP_eq_zero.2 fun o ho => ?_
  have := h o ho
  cases o <;> simp_all [Txn.Obs.isRead]

theorem Request.closed_reads {rs : List Obs} (hτ : q.closed τ) (h : ∀ o ∈ rs, o.isRead) :
    q.closed (τ ++ rs) := by
  unfold Request.closed at hτ ⊢
  split
  · rwa [committed_append, committed_of_reads h]
  · trivial

/-- A commit that changes nothing is good for everybody. -/
theorem good_idle {K : List (Lock Row)} (hτ : q.closed τ) : Good q τ (.commit K d d) := by
  refine ⟨[], [], .nothing, rfl, ?_, Request.moves_same rfl⟩
  cases q <;> simp only [Request.mayCommit, TakesBack.nil, List.not_mem_nil, false_implies,
    implies_true, and_self, true_and]
  · intro id o h₀ h₁
    simp [h₀] at h₁
  · exact fun h => absurd h hτ

variable {Q : α → List Obs → Db → Prop} {E : Err → List Obs → Db → Prop}

theorem Svc.wp_now {Q : Time → List Obs → Db → Prop}
    (h : ∀ d₁ τ' d', .read "now" d₁ ∈ τ' → Idled τ d τ' d' → Q d₁.clock τ' d') :
    Svc.now.wp q Q E τ d :=
  fun d₁ h₁ _ h' => h d₁ _ _ (by simp)
    ⟨⟨[.read "now" d₁], rfl, quiet_of_reads (by simp [Txn.Obs.isRead])⟩, h₁.trans h'⟩

theorem Svc.wp_query_trace {name : String} {f : Db → α} (hτ : q.closed τ)
    (lost : ∀ e rs d', (∀ o ∈ rs, o.isRead) → Later d d' → E e (τ ++ rs) d')
    (ok : ∀ d₁ d₂ d', Later d d₁ → Later d₁ d₂ → Later d₂ d' →
      Q (f d₁) (τ ++ [.read name d₁, .commit [] d₂ d₂]) d') :
    (Svc.query (.reads name f)).wp q Q E τ d := by
  refine ⟨fun d₁ h₁ d₂ h₂ => ⟨good_idle (Request.closed_reads hτ ?_), fun d' h' => ?_⟩, ?_⟩
  · simp [Txn.Obs.isRead]
  · rw [List.append_assoc]
    exact ok d₁ d₂ d' h₁ h₂ h'
  · exact fun rs hrs d' h' d'' h'' d₃ h₃ => lost .lost rs d₃ hrs (h'.trans (h''.trans h₃))

theorem Svc.wp_query {name : String} {f : Db → α} (hτ : q.closed τ)
    (lost : ∀ e τ' d', Idled τ d τ' d' → E e τ' d')
    (ok : ∀ d₁ τ' d', Later d d₁ → Later d₁ d' → .read name d₁ ∈ τ' → Idled τ d τ' d' →
      Q (f d₁) τ' d') : (Svc.query (.reads name f)).wp q Q E τ d :=
  Svc.wp_query_trace hτ
    (fun e _ d' hrs h' => lost e _ d' (.reads hrs h'))
    fun d₁ d₂ d' h₁ h₂ h' => ok d₁ _ d' h₁ (h₂.trans h') (by simp)
      ⟨⟨[.read name d₁, .commit [] d₂ d₂], rfl, quiet_query⟩, h₁.trans (h₂.trans h')⟩

/-- A statement of its own is a transaction, whose commit the trace shows. -/
theorem Svc.wp_autocommit {name : String} {f : Db → α} (hτ : q.closed τ)
    (lost : ∀ e τ' d', Idled τ d τ' d' → E e τ' d')
    (ok : ∀ d₁ τ' d', .read name d₁ ∈ τ' → Idled τ d τ' d' →
      (∃ d₂ rs, τ' = τ ++ rs ++ [.commit [] d₂ d₂] ∧ Later d₂ d') → Q (f d₁) τ' d') :
    (Svc.query (.reads name f)).wp q Q E τ d :=
  Svc.wp_query_trace hτ
    (fun e _ d' hrs h' => lost e _ d' (.reads hrs h'))
    fun d₁ d₂ d' h₁ h₂ h' => ok d₁ _ d' (by simp)
      ⟨⟨[.read name d₁, .commit [] d₂ d₂], rfl, quiet_query⟩, h₁.trans (h₂.trans h')⟩
      ⟨d₂, [.read name d₁], by simp, h'⟩

/-- A transaction whose commits are effects, with what its answer says of its commit. -/
theorem wp_afterTx {t : Tx α} {P : α → List (Id × CheckIn) → Db → Db → Prop}
    {R : Except Err α → List Obs → Db → Prop}
    (ht : ∀ d', Later d d' → t.commits (Rely Good) d' (fun a _ K ws =>
      ∃ undone, Effect K d' ws undone ∧ P a undone d' (writeAll ws d')) d [] [])
    (may : ∀ rs d' a undone d'', (∀ o ∈ rs, o.isRead) → Later d d' → P a undone d' d'' →
      q.mayCommit (τ ++ rs) d' d'' undone ∧ q.moves d' d'')
    (ok : ∀ rs d' K a undone d'', (∀ o ∈ rs, o.isRead) → Later d d' →
      Good q (τ ++ rs) (.commit K d' d'') → P a undone d' d'' →
      R (.ok a) (τ ++ rs ++ [.commit K d' d'']) d'')
    (error : ∀ e rs d', (∀ o ∈ rs, o.isRead) → Later d d' → R (.error e) (τ ++ rs) d') :
    t.wp Good (Txn.afterTx Good q R) [] [] τ d := by
  refine Txn.Tx.wp_of_commits (fun d' h' => ?_) error
  refine Txn.Tx.commits_mono (fun a _ K ws ⟨undone, he, hp⟩ rs hrs => ?_) (ht d' h')
  have hg : Good q (τ ++ rs) (.commit K d' (writeAll ws d')) :=
    ⟨ws, undone, he, rfl, may rs d' a undone _ hrs h' hp⟩
  exact ⟨hg, ok rs d' K a undone _ hrs h' hg hp⟩

variable (P : α → List (Id × CheckIn) → Db → Db → Prop)

theorem Svc.wp_transaction {t : Tx α}
    (ht : ∀ d', Later d d' → t.commits (Rely Good) d' (fun a _ K ws =>
      ∃ undone, Effect K d' ws undone ∧ P a undone d' (writeAll ws d')) d [] [])
    (may : ∀ rs d' a undone d'', (∀ o ∈ rs, o.isRead) → Later d d' → P a undone d' d'' →
      q.mayCommit (τ ++ rs) d' d'' undone ∧ q.moves d' d'')
    (error : ∀ e rs d', (∀ o ∈ rs, o.isRead) → Later d d' → E e (τ ++ rs) d')
    (ok : ∀ rs d' K a undone d₁ d'', (∀ o ∈ rs, o.isRead) → Later d d' →
      Good q (τ ++ rs) (.commit K d' d₁) → P a undone d' d₁ → Later d₁ d'' →
      Q a (τ ++ rs ++ [.commit K d' d₁]) d'') :
    (Svc.transaction t).wp q Q E τ d := by
  have lost : ∀ e (rs : List Obs) d', (∀ o ∈ rs, o.isRead) → Later d d' → ∀ d'', Later d' d'' →
      ∀ d₃, Later d'' d₃ → E e (τ ++ rs) d₃ :=
    fun e rs d' hrs h' d'' h'' d₃ h₃ => error e rs d₃ hrs (h'.trans (h''.trans h₃))
  exact ⟨wp_afterTx ht may (fun rs d' K a undone d₁ hrs h' hg hp d'' h'' =>
    ok rs d' K a undone d₁ d'' hrs h' hg hp h'') lost, fun rs hrs d' h' => lost .lost rs d' hrs h'⟩

theorem Svc.wp_attempt {t : Tx α} {Q : Except Err α → List Obs → Db → Prop}
    (ht : ∀ d', Later d d' → t.commits (Rely Good) d' (fun a _ K ws =>
      ∃ undone, Effect K d' ws undone ∧ P a undone d' (writeAll ws d')) d [] [])
    (may : ∀ rs d' a undone d'', (∀ o ∈ rs, o.isRead) → Later d d' → P a undone d' d'' →
      q.mayCommit (τ ++ rs) d' d'' undone ∧ q.moves d' d'')
    (error : ∀ e rs d', (∀ o ∈ rs, o.isRead) → Later d d' → Q (.error e) (τ ++ rs) d')
    (ok : ∀ rs d' K a undone d₁ d'', (∀ o ∈ rs, o.isRead) → Later d d' →
      Good q (τ ++ rs) (.commit K d' d₁) → P a undone d' d₁ → Later d₁ d'' →
      Q (.ok a) (τ ++ rs ++ [.commit K d' d₁]) d'') :
    (Svc.attempt t).wp q Q E τ d := by
  have lost : ∀ e (rs : List Obs) d', (∀ o ∈ rs, o.isRead) → Later d d' → ∀ d'', Later d' d'' →
      Q (.error e) (τ ++ rs) d'' :=
    fun e rs d' hrs h' d'' h'' => error e rs d'' hrs (h'.trans h'')
  exact ⟨wp_afterTx ht may (fun rs d' K a undone d₁ hrs h' hg hp d'' h'' =>
    ok rs d' K a undone d₁ d'' hrs h' hg hp h'') lost, fun rs hrs d' h' => lost .lost rs d' hrs h'⟩

/-- However many attempts it takes, one transaction commits, or none does. -/
theorem Svc.wp_retry {ι : Type} {collision : Err → Bool} {t : ι → Tx α} {draw : Nat → ι}
    (ht : ∀ x d₀ d', Later d d₀ → (t x).commits (Rely Good) d' (fun a _ K ws =>
      ∃ undone, Effect K d' ws undone ∧ P a undone d' (writeAll ws d')) d₀ [] [])
    (may : ∀ τ' d' a undone d'', Idled τ d τ' d' → P a undone d' d'' →
      q.mayCommit τ' d' d'' undone ∧ q.moves d' d'')
    (error : ∀ e τ' d', Idled τ d τ' d' → E e τ' d')
    (ok : ∀ τ' d' K a undone d₁ d'', Idled τ d τ' d' → Good q τ' (.commit K d' d₁) →
      P a undone d' d₁ → Later d₁ d'' → Q a (τ' ++ [.commit K d' d₁]) d'') :
    ∀ (more attempt : Nat) {τ₁ : List Obs} {d₁ : Db}, Idled τ d τ₁ d₁ →
      (Svc.retry collision t draw attempt more).wp q Q E τ₁ d₁
  | 0, attempt, τ₁, d₁, hi =>
    Svc.wp_transaction P (fun d' _ => ht (draw attempt) d₁ d' hi.later)
      (fun rs d' a undone d'' hrs h' => may _ d' a undone d'' (hi.trans (.reads hrs h')))
      (fun e rs d' hrs h' => error e _ d' (hi.trans (.reads hrs h')))
      fun rs d' K a undone d₂ d'' hrs h' =>
        ok _ d' K a undone d₂ d'' (hi.trans (.reads hrs h'))
  | more + 1, attempt, τ₁, d₁, hi => by
    refine Svc.wp_bind (Svc.wp_attempt P
      (fun d' _ => ht (draw attempt) d₁ d' hi.later)
      (fun rs d' a undone d'' hrs h' => may _ d' a undone d'' (hi.trans (.reads hrs h')))
      (fun e rs d' hrs h' => ?_) fun rs d' K a undone d₂ d'' hrs h' hg hp h'' => ?_)
    · dsimp only
      split_ifs
      · exact wp_retry ht may error ok more (attempt + 1) (hi.trans (.reads hrs h'))
      · exact Svc.wp_throw fun d'' h'' =>
          error e _ d'' (hi.trans (.reads hrs (h'.trans h'')))
    · exact Svc.wp_pure fun d₃ h₃ =>
        ok _ d' K a undone d₂ d₃ (hi.trans (.reads hrs h')) hg hp (h''.trans h₃)

end Idle

/-- What `Svc.wp` says of a request's whole program. -/
theorem Svc.wp_run {s : Svc Answer}
    (h : s.wp q (fun a τ _ => q.mayAnswer τ (.ok a)) (fun e τ _ => q.mayAnswer τ (.error e)) τ d) :
    Txn.Prog.wp Good .lost q (fun a τ _ => Good q τ (.done a)) s.run τ d := by
  refine Txn.Prog.wp_mono (fun r τ d hr => ?_) h
  cases r with
  | ok a => exact hr
  | error e => exact hr d .refl

attribute [irreducible] Svc.wp

end EchoAndAura
