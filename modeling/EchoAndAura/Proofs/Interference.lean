import Mathlib.Logic.Relation
import EchoAndAura.Transaction

/-!
# Interference

What may be said about a run of many requests when each request is looked at alone.  `Good q τ o`
is what a request `q` that has so far done `τ` may do next.  `Prog.wp` walks one request's program
and lets the others commit, between any two of its statements, anything that is good for them,
except on the rows it holds locks on.

`History.of_run`: when every request's program passes its `wp`, every run is a `History`: its
commits follow one another from the first database to the last, and each thing a process did was
good after what it had done before.
-/

namespace Txn

variable {Db Row W ε O α β γ Req : Type} [Rows Db Row W]

section Rows

theorem Same.refl (r : Row) (d : Db) : Rows.Same r d d := (Rows.same_equiv r).refl d

theorem Same.trans {r : Row} {a b c : Db} (h : Rows.Same r a b) (h' : Rows.Same r b c) :
    Rows.Same r a c :=
  (Rows.same_equiv r).trans h h'

theorem writeAll_append (ws ws' : List W) (d : Db) :
    writeAll (ws ++ ws') d = writeAll ws' (writeAll ws d) := by
  simp [writeAll]

theorem same_writeAll {r : Row} :
    ∀ {ws : List W} (d : Db), (∀ w ∈ ws, Rows.row Db w ≠ some r) → Rows.Same r d (writeAll ws d)
  | [], d, _ => Same.refl r d
  | w :: ws, d, h => by
    have hw := Rows.same_write d (h w (by simp))
    exact Same.trans hw (same_writeAll _ fun w' hw' => h w' (by simp [hw']))

theorem writeAll_congr {r : Row} :
    ∀ (ws : List W) {d d' : Db}, Rows.Same r d d' → Rows.Same r (writeAll ws d) (writeAll ws d')
  | [], _, _, h => h
  | w :: ws, _, _, h => writeAll_congr ws (Rows.write_congr w h)

end Rows

section Rely

variable (Good : Req → List (Obs Db Row O α) → Obs Db Row O α → Prop)

/-- The commit of another transaction, while this one holds `K`. -/
def Other (K : List (Lock Row)) (d d' : Db) : Prop :=
  (∃ q τ L, Good q τ (.commit L d d') ∧ ∀ l ∈ K, ∀ l' ∈ L, ¬l.conflict l') ∧
    ∀ l ∈ K, Rows.Same l.1 d d'

/-- Any number of other transactions' commits. -/
def Rely (K : List (Lock Row)) : Db → Db → Prop := Relation.ReflTransGen (Other Good K)

variable {Good} {K K' : List (Lock Row)} {d d' : Db}

theorem Rely.same (h : Rely Good K d d') {l : Lock Row} (hl : l ∈ K) : Rows.Same l.1 d d' := by
  induction h with
  | refl => exact Same.refl _ _
  | tail _ h ih => exact Same.trans ih (h.2 l hl)

theorem Rely.mono (hK : ∀ l ∈ K', l ∈ K) (h : Rely Good K d d') : Rely Good K' d d' :=
  Relation.ReflTransGen.mono (fun _ _ ⟨⟨q, τ, L, hg, hc⟩, hs⟩ =>
    ⟨⟨q, τ, L, hg, fun l hl => hc l (hK l hl)⟩, fun l hl => hs l (hK l hl)⟩) _ _ h

theorem Rely.nil (h : Rely Good K d d') : Rely Good [] d d' := h.mono (by simp)

/-- What every good commit preserves, the others preserve. -/
theorem Rely.preserves {I : Db → Prop}
    (hI : ∀ q τ L d d', Good q τ (.commit L d d') → I d → I d')
    (h : Rely Good K d d') (hd : I d) : I d' := by
  induction h with
  | refl => exact hd
  | tail _ h ih =>
    obtain ⟨⟨q, τ, L, hg, -⟩, -⟩ := h
    exact hI q τ L _ _ hg ih

/-- What every good commit that can happen beside `K` preserves, the others preserve. -/
theorem Rely.preserves_beside {I : Db → Prop}
    (hI : ∀ q τ L d d', Good q τ (.commit L d d') → (∀ l ∈ K, ∀ l' ∈ L, ¬l.conflict l') →
      (∀ l ∈ K, Rows.Same l.1 d d') → I d → I d')
    (h : Rely Good K d d') (hd : I d) : I d' := by
  induction h with
  | refl => exact hd
  | tail _ h ih =>
    obtain ⟨⟨q, τ, L, hg, hc⟩, hs⟩ := h
    exact hI q τ L _ _ hg hc hs ih

end Rely

section Wp

variable (Good : Req → List (Obs Db Row O α) → Obs Db Row O α → Prop)

/-- Every way the rest of a transaction body can end meets `Q`, which is told the result, the
locks held and the writes to commit, the trace and the committed database at the end.  `K` and
`ws` are the locks it holds and the writes it has made. -/
def Tx.wp (Q : Except ε β → List (Lock Row) → List W → List (Obs Db Row O α) → Db → Prop) :
    Tx Db Row W ε β → List (Lock Row) → List W → List (Obs Db Row O α) → Db → Prop
  | .pure b, K, ws, τ, d => ∀ d', Rely Good K d d' → Q (.ok b) K ws τ d'
  | .throw e, K, _, τ, d => ∀ d', Rely Good K d d' → Q (.error e) [] [] τ d'
  | .call s c, K, ws, τ, d => ∀ d', Rely Good K d d' →
    match s.exec (writeAll ws d') with
    | .read r => (c r).wp Q K ws (τ ++ [.read s.name (writeAll ws d')]) d'
    | .hit K' ws' r => (c r).wp Q (K' ++ K) (ws ++ ws') τ d'
    | .fail e => Q (.error e) [] [] τ d'

/-- What the end of a transaction must meet for the request to go on with `k`. -/
def afterTx (q : Req) (k : Except ε β → List (Obs Db Row O α) → Db → Prop) (r : Except ε β)
    (K : List (Lock Row)) (ws : List W) (τ : List (Obs Db Row O α)) (d : Db) : Prop :=
  match r with
  | .ok b => Good q τ (.commit K d (writeAll ws d)) ∧
      k (.ok b) (τ ++ [.commit K d (writeAll ws d)]) (writeAll ws d)
  | .error e => k (.error e) τ d

/-- Everything the rest of a request does is good, and it ends as `Q` says. -/
def Prog.wp (lost : ε) (q : Req) (Q : γ → List (Obs Db Row O α) → Db → Prop) :
    Prog Db Row W ε O γ → List (Obs Db Row O α) → Db → Prop
  | .done a, τ, d => ∀ d', Rely Good [] d d' → Q a τ d'
  | .say o k, τ, d => Good q τ (.say o) ∧ k.wp lost q Q (τ ++ [.say o]) d
  | .look name f k, τ, d => ∀ d', Rely Good [] d d' →
    (k (f d')).wp lost q Q (τ ++ [.read name d']) d'
  | .tx t k, τ, d =>
    t.wp Good (afterTx Good q fun r => (k r).wp lost q Q) [] [] τ d ∧
      ∀ rs : List (Obs Db Row O α), (∀ o ∈ rs, o.isRead) → ∀ d', Rely Good [] d d' →
        (k (.error lost)).wp lost q Q (τ ++ rs) d'

variable {Good} {lost : ε} {q : Req}

theorem Tx.wp_rely {Q : Except ε β → List (Lock Row) → List W → List (Obs Db Row O α) → Db → Prop}
    {K : List (Lock Row)} {ws : List W} {τ : List (Obs Db Row O α)} {d d' : Db} (h : Rely Good K d d') :
    ∀ {t : Tx Db Row W ε β}, t.wp Good Q K ws τ d → t.wp Good Q K ws τ d'
  | .pure _, hw => fun d'' h' => hw d'' (h.trans h')
  | .throw _, hw => fun d'' h' => hw d'' (h.trans h')
  | .call _ _, hw => fun d'' h' => hw d'' (h.trans h')

theorem Prog.wp_rely {Q : γ → List (Obs Db Row O α) → Db → Prop} :
    ∀ {p : Prog Db Row W ε O γ} {τ : List (Obs Db Row O α)} {d d' : Db}, Rely Good [] d d' →
      p.wp Good lost q Q τ d → p.wp Good lost q Q τ d'
  | .done _, _, _, _, h, hw => fun d'' h' => hw d'' (h.trans h')
  | .say _ _, _, _, _, h, hw => ⟨hw.1, wp_rely h hw.2⟩
  | .look _ _ _, _, _, _, h, hw => fun d'' h' => hw d'' (h.trans h')
  | .tx _ _, _, _, _, h, hw =>
    ⟨Tx.wp_rely h hw.1, fun rs hrs d'' h' => hw.2 rs hrs d'' (h.trans h')⟩

theorem Tx.wp_mono
    {Q Q' : Except ε β → List (Lock Row) → List W → List (Obs Db Row O α) → Db → Prop}
    (hQ : ∀ r K ws τ d, Q r K ws τ d → Q' r K ws τ d) :
    ∀ {t : Tx Db Row W ε β} {K : List (Lock Row)} {ws : List W} {τ : List (Obs Db Row O α)} {d : Db},
      t.wp Good Q K ws τ d → t.wp Good Q' K ws τ d
  | .pure _, _, _, _, _, hw => fun d' h => hQ _ _ _ _ _ (hw d' h)
  | .throw _, _, _, _, _, hw => fun d' h => hQ _ _ _ _ _ (hw d' h)
  | .call s c, K, ws, τ, d, hw => fun d' h => by
    have := hw d' h
    split at this
    · exact wp_mono hQ this
    · exact wp_mono hQ this
    · exact hQ _ _ _ _ _ this

theorem Prog.wp_bind {Q : γ → List (Obs Db Row O α) → Db → Prop} {f : β → Prog Db Row W ε O γ} :
    ∀ {p : Prog Db Row W ε O β} {τ : List (Obs Db Row O α)} {d : Db},
      p.wp Good lost q (fun b τ d => (f b).wp Good lost q Q τ d) τ d →
        (p.bind f).wp Good lost q Q τ d
  | .done _, _, d, hw => hw d .refl
  | .say _ _, _, _, hw => ⟨hw.1, wp_bind hw.2⟩
  | .look _ _ _, _, _, hw => fun d' h => wp_bind (hw d' h)
  | .tx _ _, _, _, hw => by
    refine ⟨Tx.wp_mono (fun r K ws τ d h => ?_) hw.1, fun rs hrs d' h => wp_bind (hw.2 rs hrs d' h)⟩
    cases r with
    | ok b => exact ⟨h.1, wp_bind h.2⟩
    | error e => exact wp_bind (f := f) h

theorem Prog.wp_mono {Q Q' : γ → List (Obs Db Row O α) → Db → Prop}
    (hQ : ∀ a τ d, Q a τ d → Q' a τ d) :
    ∀ {p : Prog Db Row W ε O γ} {τ : List (Obs Db Row O α)} {d : Db},
      p.wp Good lost q Q τ d → p.wp Good lost q Q' τ d
  | .done _, _, _, hw => fun d' h => hQ _ _ _ (hw d' h)
  | .say _ _, _, _, hw => ⟨hw.1, wp_mono hQ hw.2⟩
  | .look _ _ _, _, _, hw => fun d' h => wp_mono hQ (hw d' h)
  | .tx _ _, _, _, hw => by
    refine ⟨Tx.wp_mono (fun r K ws τ d h => ?_) hw.1,
      fun rs hrs d' h => wp_mono hQ (hw.2 rs hrs d' h)⟩
    cases r with
    | ok b => exact ⟨h.1, wp_mono hQ h.2⟩
    | error e => exact wp_mono hQ h

end Wp

section Commits

variable {Good : Req → List (Obs Db Row O α) → Obs Db Row O α → Prop}
  {R : List (Lock Row) → Db → Db → Prop}

/-- Every way a transaction body can come to its commit meets `Q`, when its locked statements all
run on the database `d` it commits to, and the others are answered one after another by databases
that `R` leads to from `d₀` on, and from which `R` leads to `d` beside the locks held. -/
def Tx.commits (R : List (Lock Row) → Db → Db → Prop) (d : Db)
    (Q : β → Db → List (Lock Row) → List W → Prop) :
    Tx Db Row W ε β → Db → List (Lock Row) → List W → Prop
  | .pure b, d₀, K, ws => Q b d₀ K ws
  | .throw _, _, _, _ => True
  | .call s c, d₀, K, ws =>
    (∀ d₁ r, R [] d₀ d₁ → R K d₁ d → s.exec (writeAll ws d₁) = .read r →
      (c r).commits R d Q d₁ K ws) ∧
      ∀ K' ws' r, s.exec (writeAll ws d) = .hit K' ws' r →
        (c r).commits R d Q d₀ (K' ++ K) (ws ++ ws')

theorem Tx.commits_mono {d : Db} {Q Q' : β → Db → List (Lock Row) → List W → Prop}
    (hQ : ∀ b d₀ K ws, Q b d₀ K ws → Q' b d₀ K ws) :
    ∀ {t : Tx Db Row W ε β} {d₀ : Db} {K : List (Lock Row)} {ws : List W},
      t.commits R d Q d₀ K ws → t.commits R d Q' d₀ K ws
  | .pure _, _, _, _, h => hQ _ _ _ _ h
  | .throw _, _, _, _, _ => trivial
  | .call _ _, _, _, _, h =>
    ⟨fun d₁ r h₀ h₁ he => commits_mono hQ (h.1 d₁ r h₀ h₁ he),
      fun K' ws' r he => commits_mono hQ (h.2 K' ws' r he)⟩

theorem Tx.commits_bind {d : Db} {Q : γ → Db → List (Lock Row) → List W → Prop}
    {f : β → Tx Db Row W ε γ} :
    ∀ {t : Tx Db Row W ε β} {d₀ : Db} {K : List (Lock Row)} {ws : List W},
      t.commits R d (fun b d₀ K ws => (f b).commits R d Q d₀ K ws) d₀ K ws →
        (t.bind f).commits R d Q d₀ K ws
  | .pure _, _, _, _, h => h
  | .throw _, _, _, _, _ => trivial
  | .call _ _, _, _, _, h =>
    ⟨fun d₁ r h₀ h₁ he => commits_bind (h.1 d₁ r h₀ h₁ he),
      fun K' ws' r he => commits_bind (h.2 K' ws' r he)⟩

theorem Tx.wp_of_commits_aux
    {Q : Except ε β → List (Lock Row) → List W → List (Obs Db Row O α) → Db → Prop}
    {τ : List (Obs Db Row O α)} :
    ∀ {t : Tx Db Row W ε β} {K : List (Lock Row)} {ws : List W} {rs : List (Obs Db Row O α)}
      {d₀ d : Db}, Rely Good [] d₀ d → (∀ o ∈ rs, o.isRead) →
      (∀ d', Rely Good K d d' → t.commits (Rely Good) d' (fun b _ K ws =>
        ∀ rs : List (Obs Db Row O α), (∀ o ∈ rs, o.isRead) → Q (.ok b) K ws (τ ++ rs) d') d₀ K ws) →
      (∀ e (rs : List (Obs Db Row O α)) d', (∀ o ∈ rs, o.isRead) → Rely Good K d d' →
        Q (.error e) [] [] (τ ++ rs) d') →
      t.wp Good Q K ws (τ ++ rs) d
  | .pure b, K, ws, rs, d₀, d, _, hrs, ht, _ => fun d' h => ht d' h rs hrs
  | .throw e, K, _, rs, d₀, d, _, hrs, _, he => fun d' h => he e rs d' hrs h
  | .call s c, K, ws, rs, d₀, d, hd, hrs, ht, he => fun d' h => by
    have hd' : Rely Good [] d₀ d' := hd.trans h.nil
    rcases hs : s.exec (writeAll ws d') with r | ⟨K', ws', r⟩ | e
    · have hrs' : ∀ o ∈ rs ++ [Obs.read s.name (writeAll ws d')], o.isRead := by
        simpa [or_imp, forall_and, Obs.isRead] using hrs
      rw [List.append_assoc]
      refine wp_of_commits_aux .refl hrs' (fun d₁ h₁ => ?_) fun e rs d₁ hrs h₁ =>
        he e rs d₁ hrs (h.trans h₁)
      exact (ht d₁ (h.trans h₁)).1 d' r hd' h₁ hs
    · -- A row stays as the statement that locked it found it, up to the commit.
      refine wp_of_commits_aux hd' hrs (fun d₁ h₁ => ?_) fun e rs d₁ hrs h₁ =>
        he e rs d₁ hrs (h.trans (h₁.mono fun l hl => List.mem_append_right _ hl))
      refine (ht d₁ (h.trans (h₁.mono fun l hl => List.mem_append_right _ hl))).2 K' ws' r ?_
      exact s.stable hs fun l hl => writeAll_congr ws (h₁.same (List.mem_append_left _ hl))
    · exact he e rs d' hrs h

/-- A transaction commits as if its locked statements had all run at the commit. -/
theorem Tx.wp_of_commits
    {Q : Except ε β → List (Lock Row) → List W → List (Obs Db Row O α) → Db → Prop}
    {τ : List (Obs Db Row O α)} {t : Tx Db Row W ε β} {d : Db}
    (ht : ∀ d', Rely Good [] d d' → t.commits (Rely Good) d' (fun b _ K ws =>
      ∀ rs : List (Obs Db Row O α), (∀ o ∈ rs, o.isRead) → Q (.ok b) K ws (τ ++ rs) d') d [] [])
    (he : ∀ e (rs : List (Obs Db Row O α)) d', (∀ o ∈ rs, o.isRead) → Rely Good [] d d' →
      Q (.error e) [] [] (τ ++ rs) d') :
    t.wp Good Q [] [] τ d := by
  rw [← List.append_nil τ]
  exact wp_of_commits_aux .refl (by simp) ht he

end Commits

end Txn
