import EchoAndAura.Proofs.Inventory

/-!
# Undos and revocations over whole runs

An undo clears the check-in it names and no other, whoever undoes or lets in beside it
(`undo_exact`); a revocation leaves no check-in of its pass, then or ever (`revokeAndUndo_final`).
-/

namespace EchoAndAura

open Txn (Lock writeAll Rely)

variable {K : List (Lock Row)} {d d' : Db} {undone undone' : List (Id × CheckIn)}

section Exact

def Request.isUndo : Request → Bool
  | .undoScan .. | .undoCheckIn .. | .revokeAndUndo .. => true
  | _ => false

/-- One thing an undo did, having done `τ`: a commit takes back check-ins it names, an announcement
is of a check-in it took back, an answer says what its commits came to. -/
def Request.Exact (q : Request) (τ : List Obs) : Obs → Prop
  | .read _ _ => True
  | .commit _ d d' => ∃ undone, TakesBack undone d d' ∧ ∀ u ∈ undone, q.names τ d u
  | .say o => Told τ o
  | .done a => q.mayAnswer τ a

theorem Good.exact {q : Request} {τ : List Obs} {o : Obs} (h : Good q τ o) (hq : q.isUndo = true) :
    q.Exact τ o := by
  cases o with
  | read => trivial
  | say => exact h
  | done => exact h
  | commit K d d' =>
    obtain ⟨ws, undone, -, -, hm, -⟩ := h
    cases q with
    | undoScan | undoCheckIn => exact ⟨undone, hm.1, hm.2⟩
    | revokeAndUndo => exact ⟨undone, hm.1, hm.2.1⟩
    | _ => cases hq

theorem good_of_history {l₁ l₂ : List Entry} {e : Entry} {d₀ : Db}
    (h : Txn.History Good d₀ (l₁ ++ e :: l₂) d) : Good e.req (Txn.trace e.pid l₁) e.obs := by
  obtain ⟨d₁, h₁, -⟩ := h.entry
  unfold Txn.Entry.After at h₁
  rcases ho : e.obs with _ | _ | _ | _ <;> rw [ho] at h₁
  · trivial
  · exact h₁.2.1
  · exact h₁.2
  · exact h₁.2

/-- Whatever interleaves, statement by statement, every undo is exact. -/
theorem undo_exact (hd : Logged d) (sched : List Action) :
    ∀ l₁ e l₂, (run d sched).log = l₁ ++ e :: l₂ → e.req.isUndo = true →
      e.req.Exact (Txn.trace e.pid l₁) e.obs :=
  fun _ _ _ hl hq => (good_of_history (hl ▸ shop_history hd sched)).exact hq

/-- The ticket let in by scan 7, shown on an admin's page, undone at the door, let in again by
scan 8; then the admin undoes what the page showed. -/
def staleUndo : List Action :=
  alone 0 (scanOf 7 1) 30 ++ [.start (.undoCheckIn ⟨1, 1, "wrong guest", "admin"⟩), .step 1, .step 1,
    .step 1] ++ alone 2 (.undoScan "K7QM4XPDR2TW" 7 .misTap) 30 ++ alone 3 (scanOf 8 1) 30 ++
    List.replicate 30 (.step 1)

theorem undo_exact_staleUndo :
    ((run openingNight staleUndo).db.checkIn 1).map (·.checkedInScanId) = some 8 ∧
    ∀ l₁ e l₂, (run openingNight staleUndo).log = l₁ ++ e :: l₂ → e.req.isUndo = true →
      e.req.Exact (Txn.trace e.pid l₁) e.obs :=
  ⟨by decide +kernel, undo_exact openingNight_consistent.logged staleUndo⟩

end Exact

section Final

theorem TakesBack.length_eq (h : TakesBack undone d d') (h' : TakesBack undone' d d') :
    undone.length = undone'.length := by
  obtain ⟨es, he, ha⟩ := h.audit
  obtain ⟨es', he', ha'⟩ := h'.audit
  obtain rfl := List.append_cancel_left (he.symm.trans he')
  rw [ha.length_eq, ha'.length_eq]

theorem committed_commit (τ : List Obs) (K : List (Lock Row)) (d d' : Db) (τ' : List Obs) :
    committed (τ ++ .commit K d d' :: τ') = committed τ + committed τ' + 1 := by
  rw [committed_append]
  simp [committed]
  omega

/-- Two commits of one trace with as many commits before them are the same. -/
theorem commit_unique {τ₁ τ₂ τ₁' τ₂' : List Obs} {K' : List (Lock Row)} {d₁ d₂ : Db}
    (h : τ₁ ++ .commit K d d' :: τ₂ = τ₁' ++ .commit K' d₁ d₂ :: τ₂')
    (hn : committed τ₁ = committed τ₁') : d = d₁ ∧ d' = d₂ := by
  rcases List.append_eq_append_iff.1 h with ⟨as, h₁, h₂⟩ | ⟨as, h₁, h₂⟩
  · cases as with
    | nil =>
      simp only [List.nil_append, List.cons.injEq, Txn.Obs.commit.injEq] at h₂
      exact ⟨h₂.1.2.1, h₂.1.2.2⟩
    | cons o as =>
      simp only [List.cons_append, List.cons.injEq] at h₂
      rw [h₁, ← h₂.1, committed_commit] at hn
      omega
  · cases as with
    | nil =>
      simp only [List.nil_append, List.cons.injEq, Txn.Obs.commit.injEq] at h₂
      exact ⟨h₂.1.2.1.symm, h₂.1.2.2.symm⟩
    | cons o as =>
      simp only [List.cons_append, List.cons.injEq] at h₂
      rw [h₁, ← h₂.1, committed_commit] at hn
      omega

/-- What the transaction of a revocation does, and what its answer counts. -/
structure RevokedBy (passId : Id) (d d' : Db) (answers : Nat → Prop) : Prop where
  undone : ∃ undone, TakesBack undone d d' ∧
    (∀ u ∈ undone, d.scanPass u.2.checkedInScanId = some passId) ∧ ∀ n, answers n → n = undone.length
  others : ∀ id c, d.checkIn id = some c → d.scanPass c.checkedInScanId ≠ some passId →
    d'.tickets.lookup id = d.tickets.lookup id

/-- Once the transaction of a revocation has committed (its second: the first reads the pass),
nobody is ever in by a scan of that pass again. -/
theorem revokeAndUndo_final (hd : Logged d) (sched : List Action) :
    ∀ l₁ l₂ pid eventId passId reason actor K d₁ d₂,
      (run d sched).log =
        l₁ ++ ⟨pid, .revokeAndUndo eventId passId reason actor, .commit K d₁ d₂⟩ :: l₂ →
      committed (Txn.trace pid l₁) = 1 →
      (∀ id c, (run d sched).db.checkIn id = some c →
        (run d sched).db.scanPass c.checkedInScanId ≠ some passId) ∧
      RevokedBy passId d₁ d₂ fun n => ∃ l l', l₂ =
        l ++ ⟨pid, .revokeAndUndo eventId passId reason actor, .done (.ok (.revoked n))⟩ :: l' := by
  intro l₁ l₂ pid eventId passId reason actor K d₁ d₂ hl hone
  have hist := hl ▸ shop_history hd sched
  obtain ⟨e, ⟨h₁, hg, he⟩, hr⟩ := hist.entry
  rw [he] at hr
  have hlogged : Logged d₁ := h₁.preserves (I := Logged) (fun _ _ _ _ _ hg => hg.logged) hd
  obtain ⟨undone, back, byPass, seals⟩ : ∃ undone, TakesBack undone d₁ d₂ ∧
      (∀ u ∈ undone, d₁.scanPass u.2.checkedInScanId = some passId) ∧ Sealed passId d₂ := by
    obtain ⟨ws, undone, -, -, ⟨hb, hn, hs⟩, -⟩ := id hg
    exact ⟨undone, hb, hn, hs hone⟩
  have hlast : Logged (run d sched).db ∧ Sealed passId (run d sched).db :=
    hr.preserves (I := fun d => Logged d ∧ Sealed passId d)
      (fun _ _ _ _ _ hg h => ⟨hg.logged h.1, hg.sealed h.1 h.2⟩) ⟨hg.logged hlogged, seals⟩
  refine ⟨hlast.2.out, ⟨undone, back, byPass, ?_⟩, fun id c hc hp => back.kept id fun hm => ?_⟩
  · rintro n ⟨l, l', rfl⟩
    have hist' := hist
    rw [← List.cons_append, ← List.append_assoc] at hist'
    obtain ⟨τ₁, K', e₁, e₂, τ₂, heq, -, -, hone', undone', back', hlen, -⟩ := good_of_history hist'
    have htrace : Txn.trace pid (l₁ ++
        ⟨pid, .revokeAndUndo eventId passId reason actor, .commit K d₁ d₂⟩ :: l) =
        Txn.trace pid l₁ ++ .commit K d₁ d₂ :: Txn.trace pid l := by
      simp [Txn.trace]
    obtain ⟨rfl, rfl⟩ := commit_unique (htrace.symm.trans heq) (hone.trans hone'.symm)
    rw [← hlen, back'.length_eq back]
  · obtain ⟨u, hu, rfl⟩ := List.mem_map.1 hm
    obtain ⟨t, ht, htc, -⟩ := back.cleared u hu
    have : d₁.checkIn u.1 = some u.2 := Db.checkIn_eq_some.2 ⟨t, ht, htc⟩
    rw [hc] at this
    obtain rfl := Option.some.inj this
    exact hp (byPass u hu)

/-- The ticket let in by scan 7, and the pass that did it revoked. -/
def leakedPass : List Action :=
  alone 0 (scanOf 7 1) 30 ++ alone 1 (.revokeAndUndo 1 1 "leaked" "admin") 30

theorem revokeAndUndo_final_leakedPass :
    ((run openingNight leakedPass).log.any fun e => match e.obs with
        | .done (.ok (.revoked 1)) => true
        | _ => false) = true ∧
    ∀ l₁ l₂ pid eventId passId reason actor K d₁ d₂,
      (run openingNight leakedPass).log =
        l₁ ++ ⟨pid, .revokeAndUndo eventId passId reason actor, .commit K d₁ d₂⟩ :: l₂ →
      committed (Txn.trace pid l₁) = 1 →
      (∀ id c, (run openingNight leakedPass).db.checkIn id = some c →
        (run openingNight leakedPass).db.scanPass c.checkedInScanId ≠ some passId) ∧
      RevokedBy passId d₁ d₂ fun n => ∃ l l', l₂ =
        l ++ ⟨pid, .revokeAndUndo eventId passId reason actor, .done (.ok (.revoked n))⟩ :: l' :=
  ⟨by decide +kernel, revokeAndUndo_final openingNight_consistent.logged leakedPass⟩

end Final

end EchoAndAura
