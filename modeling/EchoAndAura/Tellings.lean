import EchoAndAura.Proofs.History

/-!
# Tellings

Whether requests tell what they commit.  A `Telling` names the moves that are told: which commits
make one, which of those must be told, and which announcements are of one.  `Prog.tells` walks one
request's program with the moves it has made and not yet told.

`History.of_tells`: where every request's program passes, in every run a request has told a move at
most as often as it has made it, and when it answers, at least as often as it had to.
-/

namespace Txn

open Classical

variable {Db Row W ε O α β γ Req M : Type} [Rows Db Row W]

/-- The moves a commit may make and those of them it is due to tell, and the move an announcement
is of, if it is of any. -/
structure Telling (Db O M : Type) where
  makes : M → Db → Db → Prop
  due : M → Db → Db → Prop
  about : O → Option M
  idle : ∀ m d, ¬makes m d d
  due_makes : ∀ {m d d'}, due m d d' → makes m d d'

/-- The moves made and not told: how often each may be told yet, and how often it must. -/
structure Debt (M : Type) where
  may : M → Nat
  must : M → Nat

namespace Telling

variable (T : Telling Db O M)

/-- How often a record makes a move. -/
noncomputable def madeIn (m : M) (τ : List (Obs Db Row O α)) : Nat :=
  τ.countP fun o => match o with
    | .commit _ d d' => T.makes m d d'
    | _ => False

/-- How often a record makes a move it is due to tell. -/
noncomputable def dueIn (m : M) (τ : List (Obs Db Row O α)) : Nat :=
  τ.countP fun o => match o with
    | .commit _ d d' => T.due m d d'
    | _ => False

/-- How often a record tells of a move. -/
noncomputable def toldIn (m : M) (τ : List (Obs Db Row O α)) : Nat :=
  τ.countP fun o => match o with
    | .say o => T.about o = some m
    | _ => False

/-- What is owed after a commit. -/
noncomputable def after (owed : Debt M) (d d' : Db) : Debt M where
  may m := owed.may m + if T.makes m d d' then 1 else 0
  must m := owed.must m + if T.due m d d' then 1 else 0

/-- What is owed once a move is told. -/
noncomputable def less (owed : Debt M) (m : M) : Debt M where
  may m' := if m' = m then owed.may m' - 1 else owed.may m'
  must m' := if m' = m then owed.must m' - 1 else owed.must m'

/-- Nothing is owed. -/
def clear : Debt M := ⟨fun _ => 0, fun _ => 0⟩

/-- Nothing is told that was not made, and an answer leaves nothing due untold. -/
def Keeps (Good : Req → List (Obs Db Row O α) → Obs Db Row O α → Prop) (q : Req)
    (τ : List (Obs Db Row O α)) (o : Obs Db Row O α) : Prop :=
  Good q τ o ∧ match o with
    | .say a => ∀ m, T.about a = some m → T.toldIn m τ < T.madeIn m τ
    | .done _ => ∀ m, T.dueIn m τ ≤ T.toldIn m τ
    | _ => True

/-- What a request that has done `τ` owes. -/
def Owes (τ : List (Obs Db Row O α)) (owed : Debt M) : Prop :=
  ∀ m, T.toldIn m τ + owed.may m = T.madeIn m τ ∧ T.dueIn m τ ≤ T.toldIn m τ + owed.must m

variable {T} {owed : Debt M} {τ : List (Obs Db Row O α)} {d d' : Db}

theorem madeIn_concat (m : M) (o : Obs Db Row O α) : T.madeIn m (τ ++ [o]) = T.madeIn m τ +
    match o with
    | .commit _ d d' => if T.makes m d d' then 1 else 0
    | _ => 0 := by
  rw [madeIn, List.countP_append, List.countP_singleton]
  cases o <;> simp [madeIn]

theorem dueIn_concat (m : M) (o : Obs Db Row O α) : T.dueIn m (τ ++ [o]) = T.dueIn m τ +
    match o with
    | .commit _ d d' => if T.due m d d' then 1 else 0
    | _ => 0 := by
  rw [dueIn, List.countP_append, List.countP_singleton]
  cases o <;> simp [dueIn]

theorem toldIn_concat (m : M) (o : Obs Db Row O α) : T.toldIn m (τ ++ [o]) = T.toldIn m τ +
    match o with
    | .say o => if T.about o = some m then 1 else 0
    | _ => 0 := by
  rw [toldIn, List.countP_append, List.countP_singleton]
  cases o <;> simp [toldIn]

theorem Owes.nil : T.Owes ([] : List (Obs Db Row O α)) clear := fun _ => ⟨rfl, Nat.le_refl _⟩

theorem Owes.read (h : T.Owes τ owed) {o : Obs Db Row O α} (ho : o.isRead) :
    T.Owes (τ ++ [o]) owed := by
  intro m
  rw [madeIn_concat, dueIn_concat, toldIn_concat]
  cases o with
  | read => exact h m
  | _ => cases ho

theorem Owes.reads : ∀ {rs : List (Obs Db Row O α)} {τ : List (Obs Db Row O α)}, T.Owes τ owed →
    (∀ o ∈ rs, o.isRead) → T.Owes (τ ++ rs) owed
  | [], τ, h, _ => by rwa [List.append_nil]
  | o :: rs, τ, h, hrs => by
    rw [← List.singleton_append, ← List.append_assoc]
    exact reads (h.read (hrs o List.mem_cons_self)) fun o' ho' =>
      hrs o' (List.mem_cons_of_mem o ho')

theorem Owes.commit (h : T.Owes τ owed) (K : List (Lock Row)) :
    T.Owes (τ ++ [.commit K d d']) (T.after owed d d') := by
  intro m
  have := h m
  rw [madeIn_concat, dueIn_concat, toldIn_concat, after]
  dsimp only
  omega

/-- An announcement of nothing pays for nothing. -/
theorem Owes.say_none {o : O} (h : T.Owes τ owed) (ho : T.about o = none) :
    T.Owes (τ ++ [.say o]) owed := by
  intro m
  have := h m
  rw [madeIn_concat, dueIn_concat, toldIn_concat]
  simp only [ho, reduceCtorEq, if_false]
  omega

theorem Owes.say_some {o : O} {m : M} (h : T.Owes τ owed) (ho : T.about o = some m)
    (hm : 0 < owed.may m) : T.Owes (τ ++ [.say o]) (less owed m) := by
  intro m'
  have := h m'
  rw [madeIn_concat, dueIn_concat, toldIn_concat, less]
  simp only [ho, Option.some.injEq]
  by_cases hmm : m' = m
  · subst hmm
    simp only [if_true]
    omega
  · have hmm' : ¬m = m' := fun he => hmm he.symm
    simp only [if_neg hmm, if_neg hmm']
    omega

theorem after_none (h : ∀ m, ¬T.makes m d d') : T.after owed d d' = owed := by
  have hd : ∀ m, ¬T.due m d d' := fun m hm => h m (T.due_makes hm)
  simp only [after, h, hd, if_false, Nat.add_zero]

theorem after_idle : T.after owed d d = owed := after_none fun m => T.idle m d

end Telling

section Weaken

variable {G G' : Req → List (Obs Db Row O α) → Obs Db Row O α → Prop} {K : List (Lock Row)}
  {d d' : Db} {R R' : List (Lock Row) → Db → Db → Prop}

theorem Rely.weaken (hG : ∀ q τ o, G' q τ o → G q τ o) (h : Rely G' K d d') : Rely G K d d' :=
  Relation.ReflTransGen.mono (fun _ _ ⟨⟨q, τ, L, hg, hc⟩, hs⟩ => ⟨⟨q, τ, L, hG _ _ _ hg, hc⟩, hs⟩)
    _ _ h

theorem Tx.wp_weaken (hG : ∀ q τ o, G' q τ o → G q τ o)
    {Q : Except ε β → List (Lock Row) → List W → List (Obs Db Row O α) → Db → Prop} :
    ∀ {t : Tx Db Row W ε β} {K : List (Lock Row)} {ws : List W} {τ : List (Obs Db Row O α)}
      {d : Db},
      t.wp G Q K ws τ d → t.wp G' Q K ws τ d
  | .pure _, _, _, _, _, h => fun d' hr => h d' (hr.weaken hG)
  | .throw _, _, _, _, _, h => fun d' hr => h d' (hr.weaken hG)
  | .call s c, K, ws, τ, d, h => fun d' hr => by
    have := h d' (hr.weaken hG)
    split at this
    · exact wp_weaken hG this
    · exact wp_weaken hG this
    · exact this

theorem Tx.wp_and
    {Q Q' : Except ε β → List (Lock Row) → List W → List (Obs Db Row O α) → Db → Prop} :
    ∀ {t : Tx Db Row W ε β} {K : List (Lock Row)} {ws : List W} {τ : List (Obs Db Row O α)}
      {d : Db},
      t.wp G Q K ws τ d → t.wp G Q' K ws τ d →
        t.wp G (fun r K ws τ d => Q r K ws τ d ∧ Q' r K ws τ d) K ws τ d
  | .pure _, _, _, _, _, h, h' => fun d' hr => ⟨h d' hr, h' d' hr⟩
  | .throw _, _, _, _, _, h, h' => fun d' hr => ⟨h d' hr, h' d' hr⟩
  | .call s c, K, ws, τ, d, h, h' => fun d' hr => by
    have h₁ := h d' hr
    have h₂ := h' d' hr
    rcases hs : s.exec (writeAll ws d') with r | ⟨K', ws', r⟩ | e <;>
      simp only [hs] at h₁ h₂ ⊢
    · exact wp_and h₁ h₂
    · exact wp_and h₁ h₂
    · exact ⟨h₁, h₂⟩

theorem Tx.commits_anti (hR : ∀ K a b, R' K a b → R K a b)
    {Q : β → Db → List (Lock Row) → List W → Prop} :
    ∀ {t : Tx Db Row W ε β} {d₀ : Db} {K : List (Lock Row)} {ws : List W},
      t.commits R d Q d₀ K ws → t.commits R' d Q d₀ K ws
  | .pure _, _, _, _, h => h
  | .throw _, _, _, _, _ => trivial
  | .call _ _, _, _, _, h =>
    ⟨fun d₁ r h₀ h₁ he => commits_anti hR (h.1 d₁ r (hR _ _ _ h₀) (hR _ _ _ h₁) he),
      fun K' ws' r he => commits_anti hR (h.2 K' ws' r he)⟩

end Weaken

section Tells

variable (T : Telling Db O M) (Good : Req → List (Obs Db Row O α) → Obs Db Row O α → Prop)
  (q : Req)

/-- However the others interfere, the rest of a request that owes `owed` tells only what it owes,
and ends as `Q` says. -/
def Prog.tells (Q : γ → Debt M → Db → Prop) : Prog Db Row W ε O γ → Debt M → Db → Prop
  | .done a, owed, d => Q a owed d
  | .say o k, owed, d =>
    (T.about o = none → k.tells Q owed d) ∧
      ∀ m, T.about o = some m → 0 < owed.may m ∧ k.tells Q (Telling.less owed m) d
  | .look _ f k, owed, d => ∀ d', Rely Good [] d d' → (k (f d')).tells Q owed d'
  | .tx t k, owed, d =>
    (∀ e d', Rely Good [] d d' → (k (.error e)).tells Q owed d') ∧
      ∀ d', Rely Good [] d d' → t.commits (Rely Good) d' (fun b _ K ws =>
        (∃ τ, Good q τ (.commit K d' (writeAll ws d'))) →
          (k (.ok b)).tells Q (T.after owed d' (writeAll ws d')) (writeAll ws d')) d [] []

variable {T Good q} {lost : ε} {owed : Debt M} {d : Db}

theorem Prog.tells_bind {Q : γ → Debt M → Db → Prop} {f : β → Prog Db Row W ε O γ} :
    ∀ {p : Prog Db Row W ε O β} {owed : Debt M} {d : Db},
      p.tells T Good q (fun b owed d => (f b).tells T Good q Q owed d) owed d →
        (p.bind f).tells T Good q Q owed d
  | .done _, _, _, h => h
  | .say _ _, _, _, h => ⟨fun ho => tells_bind (h.1 ho), fun m ho =>
      ⟨(h.2 m ho).1, tells_bind (h.2 m ho).2⟩⟩
  | .look _ _ _, _, _, h => fun d' hr => tells_bind (h d' hr)
  | .tx _ _, _, _, h => ⟨fun e d' hr => tells_bind (h.1 e d' hr), fun d' hr =>
      Tx.commits_mono (fun _ _ _ _ hq hg => tells_bind (hq hg)) (h.2 d' hr)⟩

theorem Prog.tells_mono {Q Q' : γ → Debt M → Db → Prop}
    (hQ : ∀ a owed d, Q a owed d → Q' a owed d) :
    ∀ {p : Prog Db Row W ε O γ} {owed : Debt M} {d : Db},
      p.tells T Good q Q owed d → p.tells T Good q Q' owed d
  | .done _, _, _, h => hQ _ _ _ h
  | .say _ _, _, _, h => ⟨fun ho => tells_mono hQ (h.1 ho), fun m ho =>
      ⟨(h.2 m ho).1, tells_mono hQ (h.2 m ho).2⟩⟩
  | .look _ _ _, _, _, h => fun d' hr => tells_mono hQ (h d' hr)
  | .tx _ _, _, _, h => ⟨fun e d' hr => tells_mono hQ (h.1 e d' hr), fun d' hr =>
      Tx.commits_mono (fun _ _ _ _ hq hg => tells_mono hQ (hq hg)) (h.2 d' hr)⟩

/-- What every good commit preserves, holds where a request ends. -/
theorem Prog.tells_inv {I : Db → Prop}
    (hI : ∀ q τ L d d', Good q τ (.commit L d d') → I d → I d') {Q : γ → Debt M → Db → Prop} :
    ∀ {p : Prog Db Row W ε O γ} {owed : Debt M} {d : Db}, I d → p.tells T Good q Q owed d →
      p.tells T Good q (fun a owed d => Q a owed d ∧ I d) owed d
  | .done _, _, _, hd, h => ⟨h, hd⟩
  | .say _ _, _, _, hd, h => ⟨fun ho => tells_inv hI hd (h.1 ho), fun m ho =>
      ⟨(h.2 m ho).1, tells_inv hI hd (h.2 m ho).2⟩⟩
  | .look _ _ _, _, _, hd, h => fun d' hr => tells_inv hI (hr.preserves hI hd) (h d' hr)
  | .tx _ _, _, _, hd, h => by
    refine ⟨fun e d' hr => tells_inv hI (hr.preserves hI hd) (h.1 e d' hr), fun d' hr =>
      Tx.commits_mono (fun b _ K ws hq hg => tells_inv hI ?_ (hq hg)) (h.2 d' hr)⟩
    obtain ⟨τ, hg⟩ := hg
    exact hI q τ K d' _ hg (hr.preserves hI hd)

theorem keeps_good (q : Req) (τ : List (Obs Db Row O α)) (o : Obs Db Row O α)
    (h : T.Keeps Good q τ o) : Good q τ o := h.1

/-- A transaction owes what the request owed up to it, whatever it ends in. -/
theorem Tx.wp_owes {t : Tx Db Row W ε β} {τ : List (Obs Db Row O α)}
    {P : β → List (Lock Row) → List W → Db → Prop} {E : ε → Db → Prop} (ho : T.Owes τ owed)
    (ok : ∀ d', Rely Good [] d d' →
      t.commits (Rely Good) d' (fun b _ K ws => P b K ws d') d [] [])
    (error : ∀ e d', Rely Good [] d d' → E e d') :
    t.wp (T.Keeps Good) (fun r K ws τ' d' => T.Owes τ' owed ∧
      (∀ b, r = .ok b → P b K ws d') ∧ ∀ e, r = .error e → E e d') [] [] τ d := by
  refine Tx.wp_of_commits (fun d' hr => Tx.commits_anti (fun K a b h => h.weaken keeps_good)
    (Tx.commits_mono (fun b _ K ws h rs hrs => ⟨ho.reads hrs, fun b' hb => ?_, fun e he => ?_⟩)
      (ok d' (hr.weaken keeps_good))))
    (fun e rs d' hrs hr => ⟨ho.reads hrs, fun b hb => ?_, fun e' he => ?_⟩)
  · cases hb
  · cases he
    exact error e d' (hr.weaken keeps_good)
  · cases hb
    exact h
  · cases he

/-- What a request does is good, and it tells what it owes. -/
theorem Prog.wp_tells {Q : γ → List (Obs Db Row O α) → Db → Prop} {Q' : γ → Debt M → Prop} :
    ∀ {p : Prog Db Row W ε O γ} {τ : List (Obs Db Row O α)} {owed : Debt M} {d : Db},
      p.wp Good lost q Q τ d → p.tells T Good q (fun a owed _ => Q' a owed) owed d →
      T.Owes τ owed → p.wp (T.Keeps Good) lost q
        (fun a τ d => Q a τ d ∧ ∃ owed, T.Owes τ owed ∧ Q' a owed) τ d
  | .done a, τ, owed, d, hw, ht, ho => fun d' hr =>
    ⟨hw d' (hr.weaken keeps_good), owed, ho, ht⟩
  | .say o k, τ, owed, d, hw, ht, ho => by
    rcases hm : T.about o with _ | m
    · refine ⟨⟨hw.1, fun m hm' => ?_⟩, wp_tells hw.2 (ht.1 hm) (ho.say_none hm)⟩
      rw [hm] at hm'
      cases hm'
    · obtain ⟨hpos, ht⟩ := ht.2 m hm
      refine ⟨⟨hw.1, fun m' hm' => ?_⟩, wp_tells hw.2 ht (ho.say_some hm hpos)⟩
      obtain rfl := Option.some.inj (hm'.symm.trans hm)
      have := ho m'
      omega
  | .look name f k, τ, owed, d, hw, ht, ho => fun d' hr =>
    wp_tells (hw d' (hr.weaken keeps_good)) (ht d' (hr.weaken keeps_good))
      (ho.reads (by simp [Obs.isRead]))
  | .tx t k, τ, owed, d, hw, ht, ho => by
    refine ⟨?_, fun rs hrs d' hr => wp_tells (hw.2 rs hrs d' (hr.weaken keeps_good))
      (ht.1 lost d' (hr.weaken keeps_good)) (ho.reads hrs)⟩
    refine Tx.wp_mono (fun r K ws τ' d' h => ?_)
      (Tx.wp_and (Tx.wp_weaken keeps_good hw.1) (Tx.wp_owes ho ht.2 ht.1))
    obtain ⟨hwp, ho', hok, herror⟩ := h
    cases r with
    | ok b => exact ⟨⟨hwp.1, trivial⟩, wp_tells hwp.2 (hok b rfl ⟨_, hwp.1⟩) (ho'.commit K)⟩
    | error e => exact wp_tells (p := k (.error e)) hwp (herror e rfl) ho'

end Tells

section Run

variable {Good : Req → List (Obs Db Row O α) → Obs Db Row O α → Prop} {T : Telling Db O M}
  {d₀ d : Db} {l : List (Entry Req Db Row O α)}

theorem History.of_tells [DecidableEq Row] {S : Service Db Row W ε O α Req} {I : Db → Prop}
    (hI : ∀ q τ L d d', Good q τ (.commit L d d') → I d → I d')
    (hS : ∀ q d, I d → (S.prog q).wp Good S.lost q (fun a τ _ => Good q τ (.done a)) [] d)
    (hT : ∀ q d, I d → (S.prog q).tells T Good q (fun _ owed _ => ∀ m, owed.must m = 0)
      Telling.clear d)
    (h₀ : I d₀) (sched : List (Action Req)) :
    History (T.Keeps Good) d₀ (Sys.run S d₀ sched).log (Sys.run S d₀ sched).db := by
  refine History.of_run (fun q τ L d d' hg => hI q τ L d d' hg.1) (fun q d hd => ?_) h₀ sched
  refine Prog.wp_mono (fun a τ d h => ?_) (Prog.wp_tells (hS q d hd) (hT q d hd) .nil)
  obtain ⟨hg, owed, ho, hclear⟩ := h
  refine ⟨hg, fun m => ?_⟩
  have := (ho m).2
  rwa [hclear, Nat.add_zero] at this

/-- No request has told a move more often than it has made it. -/
theorem History.told_le (h : History (T.Keeps Good) d₀ l d) (i : Nat) (m : M) :
    T.toldIn m (trace i l) ≤ T.madeIn m (trace i l) := by
  have other : ∀ {l : List (Entry Req Db Row O α)} {pid : Nat} (q : Req) (o : Obs Db Row O α),
      pid ≠ i → trace i (l ++ [⟨pid, q, o⟩]) = trace i l := fun q o hne => by
    simp [trace, hne]
  have own : ∀ {l : List (Entry Req Db Row O α)} (q : Req) (o : Obs Db Row O α),
      trace i (l ++ [⟨i, q, o⟩]) = trace i l ++ [o] := fun q o => by
    simp [trace]
  have step : ∀ {l : List (Entry Req Db Row O α)} {pid : Nat} {q : Req} {o : Obs Db Row O α},
      (pid = i → T.toldIn m (trace i l ++ [o]) ≤ T.madeIn m (trace i l ++ [o])) →
      T.toldIn m (trace i l) ≤ T.madeIn m (trace i l) →
      T.toldIn m (trace i (l ++ [⟨pid, q, o⟩])) ≤ T.madeIn m (trace i (l ++ [⟨pid, q, o⟩])) := by
    intro l pid q o hown hother
    by_cases hp : pid = i
    · subst hp
      rw [own]
      exact hown rfl
    · rw [other q o hp]
      exact hother
  induction h with
  | nil => exact Nat.le_refl _
  | read _ _ _ _ _ ih =>
    refine step (fun _ => ?_) ih
    rw [Telling.toldIn_concat, Telling.madeIn_concat]
    exact ih
  | commit _ hg ih =>
    refine step (fun _ => ?_) ih
    rw [Telling.toldIn_concat, Telling.madeIn_concat]
    dsimp only
    omega
  | say _ hg ih =>
    refine step (fun hp => ?_) ih
    subst hp
    rw [Telling.toldIn_concat, Telling.madeIn_concat]
    dsimp only
    split_ifs with ho
    · exact hg.2 m ho
    · exact ih
  | done _ hg ih =>
    refine step (fun _ => ?_) ih
    rw [Telling.toldIn_concat, Telling.madeIn_concat]
    exact ih

/-- A count over a record is at most another where it is so for each process. -/
theorem countP_le_of_trace {p p' : Obs Db Row O α → Bool} :
    ∀ (n : Nat) (l : List (Entry Req Db Row O α)), l.length ≤ n →
      (∀ i, (trace i l).countP p ≤ (trace i l).countP p') →
      (l.map (·.obs)).countP p ≤ (l.map (·.obs)).countP p'
  | _, [], _, _ => Nat.le_refl _
  | n + 1, e :: l, hn, h => by
    have split : ∀ (r : Obs Db Row O α → Bool) (L : List (Entry Req Db Row O α)),
        (L.map (·.obs)).countP r = (trace e.pid L).countP r +
          ((L.filter fun x => !decide (x.pid = e.pid)).map (·.obs)).countP r := by
      intro r L
      rw [trace, List.countP_map, List.countP_map, List.countP_map]
      exact List.countP_eq_countP_filter_add L _ _
    have rest : ∀ i, trace i ((e :: l).filter fun x => !decide (x.pid = e.pid)) =
        if i = e.pid then [] else trace i (e :: l) := by
      intro i
      rw [trace, List.filter_filter]
      split_ifs with hi
      · subst hi
        simp
      · rw [trace]
        congr 1
        refine List.filter_congr fun x _ => ?_
        by_cases hx : x.pid = i
        · simp [hx, hi]
        · simp [hx]
    rw [split p (e :: l), split p' (e :: l)]
    refine Nat.add_le_add (h e.pid) (countP_le_of_trace n _ ?_ fun i => ?_)
    · have := List.length_filter_le (fun x : Entry Req Db Row O α => !decide (x.pid = e.pid)) l
      simp only [List.length_cons] at hn
      simp only [List.filter_cons, decide_true, Bool.not_true, Bool.false_eq_true, if_false]
      omega
    · rw [rest i]
      split_ifs
      · exact Nat.le_refl _
      · exact h i

/-- No move is told more often than it is made. -/
theorem History.told_le_made (h : History (T.Keeps Good) d₀ l d) (m : M) :
    T.toldIn m (l.map (·.obs)) ≤ T.madeIn m (l.map (·.obs)) :=
  countP_le_of_trace l.length l (Nat.le_refl _) fun i => h.told_le i m

/-- A move no commit makes again once it is reached is made at most once. -/
theorem History.made_le_one (h : History (T.Keeps Good) d₀ l d) {m : M} {P : Db → Prop}
    (reach : ∀ q τ K d d', Good q τ (.commit K d d') → T.makes m d d' → ¬P d ∧ P d')
    (stay : ∀ q τ K d d', Good q τ (.commit K d d') → P d → P d') :
    T.madeIn m (l.map (·.obs)) ≤ 1 ∧ (T.madeIn m (l.map (·.obs)) = 0 ∨ P d) := by
  have more : ∀ (l : List (Entry Req Db Row O α)) (e : Entry Req Db Row O α),
      T.madeIn m ((l ++ [e]).map (·.obs)) = T.madeIn m (l.map (·.obs)) +
        match e.obs with
        | .commit _ d d' => if T.makes m d d' then 1 else 0
        | _ => 0 := fun l e => by
    rw [List.map_append, List.map_singleton, Telling.madeIn_concat]
  induction h with
  | nil => exact ⟨Nat.zero_le _, .inl rfl⟩
  | read _ _ _ _ _ ih =>
    rw [more]
    exact ih
  | commit _ hg ih =>
    rw [more]
    dsimp only
    split_ifs with hm
    · obtain ⟨hn, hp⟩ := reach _ _ _ _ _ hg.1 hm
      rcases ih.2 with h0 | h1
      · exact ⟨by omega, .inr hp⟩
      · exact absurd h1 hn
    · exact ⟨ih.1, ih.2.imp id (stay _ _ _ _ _ hg.1)⟩
  | say _ _ ih =>
    rw [more]
    exact ih
  | done _ _ ih =>
    rw [more]
    exact ih

end Run

end Txn
