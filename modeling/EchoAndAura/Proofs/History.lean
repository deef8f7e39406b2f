import Mathlib.Data.List.Induction
import EchoAndAura.Proofs.Interference

/-!
# The history of a run

A `History` is a record of a run in which the commits follow one another and everything a process
did was good after what it had done before.  `History.of_run` says that every run of a service
whose requests pass their `wp` is one; a law about all runs is then an induction on `History`.
-/

namespace Txn

variable {Db Row W ε O α β Req : Type} [Rows Db Row W]

/-- `l` is a record of commits from `d₀` to the last database, each line good when it was made. -/
inductive History (Good : Req → List (Obs Db Row O α) → Obs Db Row O α → Prop) (d₀ : Db) :
    List (Entry Req Db Row O α) → Db → Prop
  | nil : History Good d₀ [] d₀
  | read {l d} (pid q s dv) : History Good d₀ l d → History Good d₀ (l ++ [⟨pid, q, .read s dv⟩]) d
  | commit {l d pid q K d'} : History Good d₀ l d → Good q (trace pid l) (.commit K d d') →
      History Good d₀ (l ++ [⟨pid, q, .commit K d d'⟩]) d'
  | say {l d pid q o} : History Good d₀ l d → Good q (trace pid l) (.say o) →
      History Good d₀ (l ++ [⟨pid, q, .say o⟩]) d
  | done {l d pid q a} : History Good d₀ l d → Good q (trace pid l) (.done a) →
      History Good d₀ (l ++ [⟨pid, q, .done a⟩]) d

section Past

variable {Good : Req → List (Obs Db Row O α) → Obs Db Row O α → Prop} {d₀ d : Db}
  {l l' : List (Entry Req Db Row O α)}

/-- What every good commit preserves holds after every history. -/
theorem History.preserves {I : Db → Prop}
    (hI : ∀ q τ K d d', Good q τ (.commit K d d') → I d → I d') (h₀ : I d₀)
    (h : History Good d₀ l d) : I d := by
  induction h with
  | nil => exact h₀
  | read _ _ _ _ _ ih => exact ih
  | commit _ hg ih => exact hI _ _ _ _ _ hg ih
  | say _ _ ih => exact ih
  | done _ _ ih => exact ih

/-- A run only commits what is good. -/
theorem History.rely (h : History Good d₀ l d) : Rely Good [] d₀ d := by
  induction h with
  | nil => exact .refl
  | read _ _ _ _ _ ih => exact ih
  | commit _ hg ih => exact ih.tail ⟨⟨_, _, _, hg, by simp⟩, by simp⟩
  | say _ _ ih => exact ih
  | done _ _ ih => exact ih

/-- What the last line of a record says of the run before it. -/
def Entry.After (Good : Req → List (Obs Db Row O α) → Obs Db Row O α → Prop) (d₀ : Db)
    (l : List (Entry Req Db Row O α)) (e : Entry Req Db Row O α) (d : Db) : Prop :=
  match e.obs with
  | .read _ _ => History Good d₀ l d
  | .commit K d₁ d₂ => History Good d₀ l d₁ ∧ Good e.req (trace e.pid l) (.commit K d₁ d₂) ∧ d = d₂
  | .say o => History Good d₀ l d ∧ Good e.req (trace e.pid l) (.say o)
  | .done a => History Good d₀ l d ∧ Good e.req (trace e.pid l) (.done a)

theorem History.last {L : List (Entry Req Db Row O α)} (h : History Good d₀ L d)
    {e : Entry Req Db Row O α} (hL : L = l ++ [e]) : e.After Good d₀ l d := by
  cases h with
  | nil => simp at hL
  | read pid q s dv h =>
    obtain ⟨rfl, rfl⟩ := List.concat_inj.1 (by simpa using hL)
    exact h
  | commit h hg =>
    obtain ⟨rfl, rfl⟩ := List.concat_inj.1 (by simpa using hL)
    exact ⟨h, hg, rfl⟩
  | say h hg =>
    obtain ⟨rfl, rfl⟩ := List.concat_inj.1 (by simpa using hL)
    exact ⟨h, hg⟩
  | done h hg =>
    obtain ⟨rfl, rfl⟩ := List.concat_inj.1 (by simpa using hL)
    exact ⟨h, hg⟩

/-- The run up to any line of its record, and what has been committed since. -/
theorem History.past (h : History Good d₀ (l ++ l') d) :
    ∃ d₁, History Good d₀ l d₁ ∧ Rely Good [] d₁ d := by
  induction l' using List.reverseRecOn generalizing d with
  | nil => exact ⟨d, by simpa using h, .refl⟩
  | append_singleton l' e ih =>
    have he := h.last (List.append_assoc _ _ _).symm
    unfold Entry.After at he
    split at he
    · exact ih he
    · obtain ⟨h, hg, rfl⟩ := he
      obtain ⟨d₁, h₁, hr⟩ := ih h
      exact ⟨d₁, h₁, hr.tail ⟨⟨_, _, _, hg, by simp⟩, by simp⟩⟩
    · exact ih he.1
    · exact ih he.1

/-- A line of a record, with the run before it and what has been committed since. -/
theorem History.entry {e : Entry Req Db Row O α} (h : History Good d₀ (l ++ e :: l') d) :
    ∃ d₁, e.After Good d₀ l d₁ ∧ Rely Good [] d₁ d := by
  rw [← List.singleton_append, ← List.append_assoc] at h
  obtain ⟨d₁, h₁, hr⟩ := h.past
  exact ⟨d₁, h₁.last rfl, hr⟩

/-- What every commit of a stretch of a record preserves, the stretch preserves. -/
theorem History.since (h : History Good d₀ (l ++ l') d) :
    ∃ d₁, History Good d₀ l d₁ ∧ ∀ I : Db → Prop,
      (∀ l₁ pid q K a b l₂, l' = l₁ ++ ⟨pid, q, .commit K a b⟩ :: l₂ →
        History Good d₀ (l ++ l₁) a → Good q (trace pid (l ++ l₁)) (.commit K a b) →
          I a → I b) → I d₁ → I d := by
  induction l' using List.reverseRecOn generalizing d with
  | nil => exact ⟨d, by simpa using h, fun _ _ h₁ => h₁⟩
  | append_singleton l' e ih =>
    have he := h.last (List.append_assoc _ _ _).symm
    have earlier : ∀ {d'}, History Good d₀ (l ++ l') d' → ∃ d₁, History Good d₀ l d₁ ∧
        ∀ I : Db → Prop, (∀ l₁ pid q K a b l₂, l' ++ [e] = l₁ ++ ⟨pid, q, .commit K a b⟩ :: l₂ →
          History Good d₀ (l ++ l₁) a → Good q (trace pid (l ++ l₁)) (.commit K a b) →
            I a → I b) → I d₁ → I d' := by
      intro d' h'
      obtain ⟨d₁, h₁, hd₁⟩ := ih h'
      refine ⟨d₁, h₁, fun I hI => hd₁ I fun l₁ pid q K a b l₂ hl => ?_⟩
      exact hI l₁ pid q K a b (l₂ ++ [e]) (by rw [hl, List.append_assoc]; rfl)
    unfold Entry.After at he
    split at he
    · exact earlier he
    · rename_i K a b heq
      obtain ⟨h, hg, rfl⟩ := he
      obtain ⟨d₁, h₁, hd₁⟩ := earlier h
      refine ⟨d₁, h₁, fun I hI hI₁ => ?_⟩
      have hentry : e = ⟨e.pid, e.req, .commit K a d⟩ := by rw [← heq]
      exact hI l' e.pid e.req K a d [] (by rw [← hentry]) h hg (hd₁ I hI hI₁)
    · exact earlier he.1
    · exact earlier he.1

theorem History.eq_of_nil (h : History Good d₀ l d) (hl : l = []) : d = d₀ := by
  cases h with
  | nil => rfl
  | _ => simp at hl

/-- What every commit of a record preserves, with the record before it in hand. -/
theorem History.along {I : Db → Prop} (h : History Good d₀ l d)
    (hI : ∀ l₁ pid q K a b l₂, l = l₁ ++ ⟨pid, q, .commit K a b⟩ :: l₂ → History Good d₀ l₁ a →
      Good q (trace pid l₁) (.commit K a b) → I a → I b) (h₀ : I d₀) : I d := by
  rw [← List.nil_append l] at h
  obtain ⟨d₁, h₁, hsince⟩ := h.since
  obtain rfl := h₁.eq_of_nil rfl
  exact hsince I (fun l₁ pid q K a b l₂ hl ha hg => hI l₁ pid q K a b l₂ hl ha hg) h₀

end Past

section Trace

variable {l : List (Entry Req Db Row O α)} {i j : Nat}

@[simp] theorem trace_nil : trace i ([] : List (Entry Req Db Row O α)) = [] := rfl

theorem trace_append (l l' : List (Entry Req Db Row O α)) :
    trace i (l ++ l') = trace i l ++ trace i l' := by
  simp [trace]

theorem trace_self (q : Req) (obs : List (Obs Db Row O α)) :
    trace i (obs.map (Entry.mk i q)) = obs := by
  induction obs with
  | nil => rfl
  | cons o obs ih => simpa [trace] using ih

theorem trace_other (h : j ≠ i) (q : Req) (obs : List (Obs Db Row O α)) :
    trace j (obs.map (Entry.mk i q)) = [] := by
  simp [trace, Ne.symm h]

/-- Where in a record a process did what its trace shows. -/
theorem trace_split {τ₁ τ₂ : List (Obs Db Row O α)} {o : Obs Db Row O α}
    (h : trace i l = τ₁ ++ o :: τ₂) :
    ∃ l₁ q l₂, l = l₁ ++ ⟨i, q, o⟩ :: l₂ ∧ trace i l₁ = τ₁ ∧ trace i l₂ = τ₂ := by
  rw [trace, List.map_eq_append_iff] at h
  obtain ⟨m₁, m₂, hm, rfl, hm₂⟩ := h
  obtain ⟨l₁, l₂, rfl, rfl, rfl⟩ := List.filter_eq_append_iff.1 hm
  obtain ⟨e, m₂, he, rfl, rfl⟩ := List.map_eq_cons_iff.1 hm₂
  obtain ⟨l₃, l₄, rfl, hnot, hpid, rfl⟩ := List.filter_eq_cons_iff.1 he
  have hnil : l₃.filter (fun e => e.pid = i) = [] := List.filter_eq_nil_iff.2 hnot
  have hi : e.pid = i := by simpa using hpid
  subst hi
  exact ⟨l₁ ++ l₃, e.req, l₄, by simp, by simp [trace, hnil], rfl⟩

theorem trace_eq_nil (h : ∀ e ∈ l, e.pid ≠ i) : trace i l = [] := by
  simpa [trace] using h

end Trace

section Step

variable (Good : Req → List (Obs Db Row O α) → Obs Db Row O α → Prop) (lost : ε)

/-- What is known of a process that has done `τ`. -/
def Proc.ok (q : Req) (τ : List (Obs Db Row O α)) (d : Db) : Proc Db Row W ε O α → Prop
  | .run p => p.wp Good lost q (fun a τ _ => Good q τ (.done a)) τ d
  | .tx t k K ws =>
    t.wp Good (afterTx Good q fun r =>
        (k r).wp Good lost q (fun a τ _ => Good q τ (.done a))) K ws τ d ∧
      (∀ rs : List (Obs Db Row O α), (∀ o ∈ rs, o.isRead) → ∀ d', Rely Good [] d d' →
        (k (.error lost)).wp Good lost q (fun a τ _ => Good q τ (.done a)) (τ ++ rs) d') ∧
      ∀ w ∈ ws, ∀ x, Rows.row Db w = some x → (x, .excl) ∈ K
  | .ended => True

/-- What a step of a process does to the rest of the system. -/
structure Proc.Moved (q : Req) (τ : List (Obs Db Row O α)) (free : List (Lock Row) → Bool)
    (p : Proc Db Row W ε O α) (d : Db) (p' : Proc Db Row W ε O α) (d' : Db)
    (obs : List (Obs Db Row O α)) : Prop where
  history : ∀ {d₀ : Db} {l : List (Entry Req Db Row O α)} {pid : Nat}, trace pid l = τ →
    History Good d₀ l d → History Good d₀ (l ++ obs.map (⟨pid, q, ·⟩)) d'
  rely : d' = d ∨ ∃ τ, Good q τ (.commit p.locks d d')
  frame : ∀ r, (r, .excl) ∉ p.locks → Rows.Same r d d'
  locks : p'.locks = [] ∨ ∃ K, free K = true ∧ p'.locks = K ++ p.locks
  ok : p'.ok Good lost q (τ ++ obs) d'

variable {Good lost} {q : Req} {τ : List (Obs Db Row O α)} {d d' : Db}

theorem Proc.ok_rely {p : Proc Db Row W ε O α} (h : Rely Good p.locks d d')
    (hp : p.ok Good lost q τ d) : p.ok Good lost q τ d' := by
  cases p with
  | run p => exact Prog.wp_rely h hp
  | tx t k K ws =>
    exact ⟨Tx.wp_rely h hp.1, fun rs hrs d'' h' => hp.2.1 rs hrs d'' (h.nil.trans h'), hp.2.2⟩
  | ended => trivial

theorem Proc.ok_cut {p : Proc Db Row W ε O α} (hp : p.ok Good lost q τ d) :
    (p.cut lost).ok Good lost q τ d := by
  cases p with
  | run p => exact hp
  | tx t k K ws => simpa [cut, ok] using hp.2.1 [] (by simp) d .refl
  | ended => trivial

/-- A process that stays outside the database: nothing recorded, no lock taken. -/
theorem Proc.Moved.quiet {free : List (Lock Row) → Bool} {p p' : Proc Db Row W ε O α}
    (hl : p'.locks = []) (hok : p'.ok Good lost q τ d) :
    Proc.Moved Good lost q τ free p d p' d [] where
  history _ h := by simpa using h
  rely := .inl rfl
  frame r _ := Same.refl r d
  locks := .inl hl
  ok := by simpa using hok

theorem Proc.moved {free : List (Lock Row) → Bool} {obs : List (Obs Db Row O α)} (hf : free [] = true) :
    ∀ {p p' : Proc Db Row W ε O α}, p.ok Good lost q τ d → p.step free d = some (p', d', obs) →
      Proc.Moved Good lost q τ free p d p' d' obs
  | .run (.done a), p', hp, hs => by
    simp only [step, Option.some.injEq, Prod.mk.injEq] at hs
    obtain ⟨rfl, rfl, rfl⟩ := hs
    have hg : Good q τ (.done a) := hp _ .refl
    exact ⟨fun ht h => h.done (ht ▸ hg), .inl rfl, fun r _ => Same.refl r _, .inl rfl, trivial⟩
  | .run (.say o k), p', hp, hs => by
    simp only [step, Option.some.injEq, Prod.mk.injEq] at hs
    obtain ⟨rfl, rfl, rfl⟩ := hs
    exact ⟨fun ht h => h.say (ht ▸ hp.1), .inl rfl, fun r _ => Same.refl r _, .inl rfl, hp.2⟩
  | .run (.look name f k), p', hp, hs => by
    simp only [step, Option.some.injEq, Prod.mk.injEq] at hs
    obtain ⟨rfl, rfl, rfl⟩ := hs
    exact ⟨fun _ h => h.read _ _ _ _, .inl rfl, fun r _ => Same.refl r _, .inl rfl, hp _ .refl⟩
  | .run (.tx t k), p', hp, hs => by
    simp only [step, Option.some.injEq, Prod.mk.injEq] at hs
    obtain ⟨rfl, rfl, rfl⟩ := hs
    exact .quiet rfl ⟨hp.1, hp.2, by simp⟩
  | .tx (.pure b) k K ws, p', hp, hs => by
    simp only [step, Option.some.injEq, Prod.mk.injEq] at hs
    obtain ⟨rfl, rfl, rfl⟩ := hs
    obtain ⟨hg, hk⟩ := hp.1 _ .refl
    refine ⟨fun ht h => h.commit (ht ▸ hg), .inr ⟨τ, hg⟩, fun r hr => ?_, .inl rfl, hk⟩
    exact same_writeAll d fun w' hw' h => hr (hp.2.2 w' hw' r h)
  | .tx (.throw e) k K ws, p', hp, hs => by
    simp only [step, Option.some.injEq, Prod.mk.injEq] at hs
    obtain ⟨rfl, rfl, rfl⟩ := hs
    exact .quiet rfl (hp.1 _ .refl)
  | .tx (.call s c) k K ws, p', hp, hs => by
    have hc := hp.1 d .refl
    rcases he : s.exec (writeAll ws d) with r | ⟨K', ws', r⟩ | e <;> simp only [step, he] at hs hc
    · simp only [Option.some.injEq, Prod.mk.injEq] at hs
      obtain ⟨rfl, rfl, rfl⟩ := hs
      refine ⟨fun _ h => h.read _ _ _ _, .inl rfl, fun r _ => Same.refl r _, .inr ⟨[], hf, rfl⟩,
        hc, fun rs hrs d' h => ?_, hp.2.2⟩
      rw [List.append_assoc]
      exact hp.2.1 _ (by simpa [Obs.isRead] using hrs) d' h
    · split_ifs at hs with hfree
      · simp only [Option.some.injEq, Prod.mk.injEq] at hs
        obtain ⟨rfl, rfl, rfl⟩ := hs
        refine ⟨fun _ h => by simpa using h, .inl rfl, fun r _ => Same.refl r _,
          .inr ⟨K', hfree, rfl⟩, ?_⟩
        rw [List.append_nil]
        refine ⟨hc, hp.2.1, fun w hw x hx => ?_⟩
        rcases List.mem_append.1 hw with hw | hw
        · exact List.mem_append_right _ (hp.2.2 w hw x hx)
        · exact List.mem_append_left _ (s.covered he w hw x hx)
    · simp only [Option.some.injEq, Prod.mk.injEq] at hs
      obtain ⟨rfl, rfl, rfl⟩ := hs
      exact .quiet rfl hc
  | .ended, _, _, hs => by simp [step] at hs

end Step

theorem Lock.conflict_symm {Row : Type} {l l' : Lock Row} (h : l.conflict l') : l'.conflict l :=
  ⟨h.1.symm, fun h' => h.2 ⟨h'.2, h'.1⟩⟩

section Run

variable [DecidableEq Row] (Good : Req → List (Obs Db Row O α) → Obs Db Row O α → Prop)
  (S : Service Db Row W ε O α Req) (I : Db → Prop) (d₀ : Db)

/-- No two processes hold locks in conflict. -/
def Sys.Apart (procs : List (Req × Proc Db Row W ε O α)) : Prop :=
  ∀ (i j : Nat) (x y : Req × Proc Db Row W ε O α), i ≠ j → procs[i]? = some x →
    procs[j]? = some y → ∀ l ∈ x.2.locks, ∀ l' ∈ y.2.locks, ¬l.conflict l'

/-- What holds after every schedule. -/
structure Sys.Sound (σ : Sys Req Db Row W ε O α) : Prop where
  history : History Good d₀ σ.log σ.db
  inv : I σ.db
  started : ∀ e ∈ σ.log, e.pid < σ.procs.length
  ok : ∀ pid q (p : Proc Db Row W ε O α), σ.procs[pid]? = some (q, p) →
    p.ok Good S.lost q (trace pid σ.log) σ.db
  apart : Sys.Apart σ.procs

variable {Good S I d₀} {σ : Sys Req Db Row W ε O α}

theorem Sys.free_spec {pid : Nat} {K : List (Lock Row)} (h : σ.free pid K = true) {j : Nat} {q : Req}
    {p : Proc Db Row W ε O α} (hj : j ≠ pid) (hp : σ.procs[j]? = some (q, p)) :
    ∀ l ∈ p.locks, ∀ l' ∈ K, ¬l.conflict l' := by
  simp only [Sys.free, List.all_eq_true, decide_eq_true_eq] at h
  exact fun l hl l' hl' =>
    h (q, p) (List.mem_eraseIdx_iff_getElem?.2 ⟨j, hj, hp⟩) l hl l' hl'

theorem getElem?_concat_cases {γ : Type*} {l : List γ} {a z : γ} {k : Nat}
    (h : (l ++ [a])[k]? = some z) : l[k]? = some z ∨ k = l.length ∧ z = a := by
  rcases Nat.lt_or_ge k l.length with hlt | hge
  · rw [List.getElem?_append_left hlt] at h
    exact .inl h
  · rw [List.getElem?_append_right hge, List.getElem?_singleton] at h
    split_ifs at h with hk
    exact .inr ⟨by omega, (Option.some.inj h).symm⟩

theorem Sys.Sound.start (hS : ∀ q d, I d → (S.prog q).wp Good S.lost q
    (fun a τ _ => Good q τ (.done a)) [] d) (h : σ.Sound Good S I d₀) (q : Req) :
    (act S (.start q) σ).Sound Good S I d₀ where
  history := h.history
  inv := h.inv
  started e he := by
    have := h.started e he
    simp only [act, List.length_append, List.length_singleton]
    omega
  ok pid q' p hp := by
    simp only [act] at hp ⊢
    rcases getElem?_concat_cases hp with hp | ⟨rfl, heq⟩
    · exact h.ok pid q' p hp
    · cases heq
      have hnil : trace σ.procs.length σ.log = [] := trace_eq_nil fun e he => by
        have := h.started e he
        omega
      rw [hnil]
      exact hS q σ.db h.inv
  apart i j x y hij h₁ h₂ l hl l' hl' := by
    have hold : ∀ (k : Nat) (z : Req × Proc Db Row W ε O α),
        (σ.procs ++ [(q, Proc.run (S.prog q))])[k]? = some z →
          ∀ l ∈ z.2.locks, σ.procs[k]? = some z := by
      intro k z hk l hl
      rcases getElem?_concat_cases hk with hk | ⟨-, rfl⟩
      · exact hk
      · simp [Proc.locks] at hl
    exact h.apart i j x y hij (hold i x h₁ l hl) (hold j y h₂ l' hl') l hl l' hl'

/-- A process replaced by one that holds no more than it did, or nothing others forbid. -/
theorem Sys.Sound.apart_set (h : σ.Sound Good S I d₀) {pid : Nat} {q : Req}
    {p p' : Proc Db Row W ε O α} (hp : σ.procs[pid]? = some (q, p))
    (hl : p'.locks = [] ∨ ∃ K, σ.free pid K = true ∧ p'.locks = K ++ p.locks) :
    Sys.Apart (σ.procs.set pid (q, p')) := by
  have key : ∀ (j : Nat) (y : Req × Proc Db Row W ε O α), j ≠ pid → σ.procs[j]? = some y →
      ∀ l ∈ p'.locks, ∀ l' ∈ y.2.locks, ¬l.conflict l' := by
    intro j y hj h₂ l hl₁ l' hl₂
    rcases hl with hnil | ⟨K, hK, heq⟩
    · simp [hnil] at hl₁
    · rcases List.mem_append.1 (heq ▸ hl₁) with hm | hm
      · exact fun hc => Sys.free_spec hK hj h₂ l' hl₂ l hm (Lock.conflict_symm hc)
      · exact h.apart pid j (q, p) y (Ne.symm hj) hp h₂ l hm l' hl₂
  have hlt : pid < σ.procs.length := (List.getElem?_eq_some_iff.1 hp).1
  intro i j x y hij h₁ h₂ l hl₁ l' hl₂
  by_cases hi : i = pid
  · subst hi
    rw [List.getElem?_set_self hlt] at h₁
    rw [List.getElem?_set_ne hij] at h₂
    cases h₁
    exact key j y (Ne.symm hij) h₂ l hl₁ l' hl₂
  · rw [List.getElem?_set_ne (Ne.symm hi)] at h₁
    by_cases hj : j = pid
    · subst hj
      rw [List.getElem?_set_self hlt] at h₂
      cases h₂
      exact fun hc => key i x hij h₁ l' hl₂ l hl₁ (Lock.conflict_symm hc)
    · rw [List.getElem?_set_ne (Ne.symm hj)] at h₂
      exact h.apart i j x y hij h₁ h₂ l hl₁ l' hl₂

theorem Sys.Sound.cut (h : σ.Sound Good S I d₀) (pid : Nat) :
    (act S (.cut pid) σ).Sound Good S I d₀ := by
  rcases hp : σ.procs[pid]? with _ | ⟨q, p⟩
  · simpa only [act, hp] using h
  · have hl : (p.cut S.lost).locks = [] := by cases p <;> rfl
    have hlt : pid < σ.procs.length := (List.getElem?_eq_some_iff.1 hp).1
    simp only [act, hp]
    refine ⟨h.history, h.inv, fun e he => by simpa using h.started e he, fun j q' p' hj => ?_,
      h.apart_set hp (.inl hl)⟩
    by_cases hjp : j = pid
    · subst hjp
      rw [List.getElem?_set_self hlt] at hj
      cases hj
      exact Proc.ok_cut (h.ok j q p hp)
    · rw [List.getElem?_set_ne (Ne.symm hjp)] at hj
      exact h.ok j q' p' hj

theorem Sys.Sound.step (hI : ∀ q τ L d d', Good q τ (.commit L d d') → I d → I d')
    (h : σ.Sound Good S I d₀) (pid : Nat) : (act S (.step pid) σ).Sound Good S I d₀ := by
  rcases hp : σ.procs[pid]? with _ | ⟨q, p⟩
  · simpa only [act, hp] using h
  rcases hs : p.step (σ.free pid) σ.db with _ | ⟨p', d, obs⟩
  · simpa only [act, hp, hs] using h
  have hf : σ.free pid [] = true := by simp [Sys.free]
  have hm := Proc.moved hf (h.ok pid q p hp) hs
  have hlt : pid < σ.procs.length := (List.getElem?_eq_some_iff.1 hp).1
  simp only [act, hp, hs]
  refine ⟨hm.history rfl h.history, ?_, fun e he => ?_, fun j q' p'' hj => ?_,
    h.apart_set hp hm.locks⟩
  · rcases hm.rely with rfl | ⟨τ, hg⟩
    · exact h.inv
    · exact hI q τ _ _ _ hg h.inv
  · simp only [List.mem_append, List.mem_map] at he
    rw [List.length_set]
    rcases he with he | ⟨o, -, rfl⟩
    · exact h.started e he
    · exact hlt
  · by_cases hjp : j = pid
    · subst hjp
      rw [List.getElem?_set_self hlt] at hj
      cases hj
      simpa only [trace_append, trace_self] using hm.ok
    · rw [List.getElem?_set_ne (Ne.symm hjp)] at hj
      simp only [trace_append, trace_other hjp, List.append_nil]
      refine Proc.ok_rely ?_ (h.ok j q' p'' hj)
      rcases hm.rely with rfl | ⟨τ, hg⟩
      · exact .refl
      · refine .single ⟨⟨q, τ, _, hg, fun l hl l' hl' =>
          h.apart j pid (q', p'') (q, p) hjp hj hp l hl l' hl'⟩, fun l hl => hm.frame l.1 fun hx => ?_⟩
        exact h.apart pid j (q, p) (q', p'') (Ne.symm hjp) hp hj _ hx l hl ⟨rfl, by simp⟩

/-- Every run is a history of good commits, and ends in a database `I` allows. -/
theorem History.of_run (hI : ∀ q τ L d d', Good q τ (.commit L d d') → I d → I d')
    (hS : ∀ q d, I d → (S.prog q).wp Good S.lost q (fun a τ _ => Good q τ (.done a)) [] d)
    (h₀ : I d₀) (sched : List (Action Req)) :
    History Good d₀ (Sys.run S d₀ sched).log (Sys.run S d₀ sched).db := by
  suffices h : (Sys.run S d₀ sched).Sound Good S I d₀ from h.history
  have step : ∀ (sched : List (Action Req)) (σ : Sys Req Db Row W ε O α), σ.Sound Good S I d₀ →
      (sched.foldl (fun σ a => Sys.act S a σ) σ).Sound Good S I d₀ := by
    intro sched
    induction sched with
    | nil => exact fun σ h => h
    | cons a sched ih =>
      intro σ h
      cases a with
      | start q => exact ih _ (h.start hS q)
      | step pid => exact ih _ (h.step hI pid)
      | cut pid => exact ih _ (h.cut pid)
  exact step sched _ ⟨.nil, h₀, by simp [Sys.init], by simp [Sys.init],
    fun i j x y _ h => by simp [Sys.init] at h⟩

end Run

end Txn
