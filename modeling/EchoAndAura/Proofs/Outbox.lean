import EchoAndAura.Phone

/-!
# The outbox and the undo on the phone

Whatever order the awaits end in, a stretch of the phone does one of a few things to the outbox
(`Phone.move`).  A scan is sent as it stands in the outbox and stands there as it was sent until an
answer takes it out (`Books`), so what was sent is never undone and what was undone is never sent as
an admission (`outbox_agrees`).
-/

namespace EchoAndAura

variable {κ : Type}

section Items

/-- A scan as it stands in the outbox from its first send on. -/
def OutboxItem.attempt (i : OutboxItem κ) : OutboxItem κ := { i with attempted := true }

@[simp] theorem attempt_scanId (i : OutboxItem κ) : i.attempt.scanId = i.scanId := rfl

@[simp] theorem attempt_attempted (i : OutboxItem κ) : i.attempt.attempted = true := rfl

@[simp] theorem attempt_verdict (i : OutboxItem κ) : i.attempt.verdict = i.verdict := rfl

theorem attempt_of_attempted {i : OutboxItem κ} (h : i.attempted = true) : i.attempt = i := by
  unfold OutboxItem.attempt
  rw [← h]

theorem find_of_nodup {l : List (OutboxItem κ)} (hl : (l.map (·.scanId)).Nodup) {i : OutboxItem κ}
    (hi : i ∈ l) : l.find? (·.scanId == i.scanId) = some i := by
  induction l with
  | nil => cases hi
  | cons j l ih =>
    simp only [List.map_cons, List.nodup_cons] at hl
    rcases List.mem_cons.1 hi with rfl | hi
    · simp
    · have hne : j.scanId ≠ i.scanId := fun heq => hl.1 (List.mem_map.2 ⟨i, hi, heq.symm⟩)
      rw [List.find?_cons_of_neg (by simpa using hne)]
      exact ih hl.2 hi

theorem eq_of_scanId {l : List (OutboxItem κ)} (hl : (l.map (·.scanId)).Nodup) {i j : OutboxItem κ}
    (hi : i ∈ l) (hj : j ∈ l) (h : i.scanId = j.scanId) : i = j :=
  List.inj_on_of_nodup_map hl hi hj h

theorem find_none {l : List (OutboxItem κ)} {scanId : Id} (h : ∀ i ∈ l, i.scanId ≠ scanId) :
    l.find? (·.scanId == scanId) = none :=
  List.find?_eq_none.2 fun i hi => by simpa using h i hi

/-- Taking a batch marks its scans, and no other, as sent. -/
theorem map_taken {l : List (OutboxItem κ)} (hl : (l.map (·.scanId)).Nodup) (n : Nat) :
    (l.map fun i => (((l.take n).map OutboxItem.attempt).find? (·.scanId == i.scanId)).getD i) =
      (l.take n).map OutboxItem.attempt ++ l.drop n := by
  have hsplit := List.take_append_drop n l
  have hnodup : ((l.take n).map (·.scanId) ++ (l.drop n).map (·.scanId)).Nodup := by
    rwa [← List.map_append, hsplit]
  have hdisjoint := (List.nodup_append.1 hnodup).2.2
  have hbatch : (((l.take n).map OutboxItem.attempt).map (·.scanId)).Nodup := by
    rw [List.map_map]
    exact (List.nodup_append.1 hnodup).1
  conv_lhs =>
    arg 2
    rw [← hsplit]
  rw [List.map_append]
  congr 1
  · refine List.map_congr_left fun i hi => ?_
    have hmem : i.attempt ∈ (l.take n).map OutboxItem.attempt := List.mem_map_of_mem hi
    have hfind := find_of_nodup hbatch hmem
    rw [attempt_scanId] at hfind
    rw [hfind, Option.getD_some]
  · conv_rhs => rw [← List.map_id (l.drop n)]
    refine List.map_congr_left fun i hi => ?_
    have hnone : ((l.take n).map OutboxItem.attempt).find? (·.scanId == i.scanId) = none := by
      refine find_none fun j hj heq => ?_
      obtain ⟨j, hj', rfl⟩ := List.mem_map.1 hj
      exact hdisjoint _ (List.mem_map_of_mem hj') _ (List.mem_map_of_mem hi) heq
    rw [hnone]
    rfl

end Items

section Moves

variable {p p' : Phone κ}

/-- What a stretch does to the outbox and to the send in progress. -/
inductive OutboxMove (p p' : Phone κ) : List (PhoneNote κ) → Prop
  | idle {told : List (RelayOwnMark κ)} (outbox : p'.outbox = p.outbox)
      (running : p'.running = p.running) : OutboxMove p p' (told.map .told)
  | refused {told : List (RelayOwnMark κ)} {scanId outcome} (not : outcome ≠ .done)
      (outbox : p'.outbox = p.outbox) (running : p'.running = p.running) :
      OutboxMove p p' (.undid scanId outcome :: told.map .told)
  | queued {i} {told : List (RelayOwnMark κ)} (new : i.attempted = false)
      (outbox : p'.outbox = p.outbox ++ [i]) (running : p'.running = p.running) :
      OutboxMove p p' (.queued i :: told.map .told)
  | undone {i} {told : List (RelayOwnMark κ)} (mem : i ∈ p.outbox) (unsent : i.attempted = false)
      (outbox : p'.outbox = p.outbox.map fun j =>
        if j.scanId = i.scanId then { i with verdict := .undone } else j)
      (running : p'.running = p.running) :
      OutboxMove p p' (.undid i.scanId .done :: told.map .told)
  | ended (outbox : p'.outbox = p.outbox) (running : p'.running = none) : OutboxMove p p' []
  | taken (outbox : p'.outbox = (p.outbox.take syncBatch).map OutboxItem.attempt ++
        p.outbox.drop syncBatch)
      (running : p'.running = some (.saving ((p.outbox.take syncBatch).map OutboxItem.attempt))) :
      OutboxMove p p' []
  | sent {batch} (saving : p.running = some (.saving batch)) (outbox : p'.outbox = p.outbox)
      (running : p'.running = some (.inFlight batch)) : OutboxMove p p' [.sent batch]
  | answered {batch again} (inFlight : p.running = some (.inFlight batch))
      (outbox : p'.outbox = p.outbox.filter fun i => !(batch.map (·.scanId)).contains i.scanId)
      (running : p'.running = some (.removing again)) : OutboxMove p p' [.answered batch]

/-- The marks may have changed, and nothing of the outbox. -/
structure Beside (p p' : Phone κ) : Prop where
  outbox : p'.outbox = p.outbox
  running : p'.running = p.running

theorem Beside.refl (p : Phone κ) : Beside p p := ⟨rfl, rfl⟩

theorem Beside.trans {p'' : Phone κ} (h : Beside p p') (h' : Beside p' p'') : Beside p p'' :=
  ⟨h'.outbox.trans h.outbox, h'.running.trans h.running⟩

theorem Beside.foldl {β : Type} {f : Phone κ → β → Phone κ} (hf : ∀ p b, Beside p (f p b)) :
    ∀ (bs : List β) (p : Phone κ), Beside p (bs.foldl f p)
  | [], p => .refl p
  | b :: bs, p => (hf p b).trans (Beside.foldl hf bs (f p b))

/-- The stretches that keep out of the outbox. -/
theorem Beside.idle (h : Beside p p') (told : List (RelayOwnMark κ)) :
    OutboxMove p p' (told.map .told) :=
  .idle h.outbox h.running

theorem Beside.move (h : Beside p p') : OutboxMove p p' [] := h.idle []

theorem takeBatch_move (hl : (p.outbox.map (·.scanId)).Nodup) : OutboxMove p p.takeBatch [] := by
  unfold Phone.takeBatch
  split_ifs
  · exact .ended rfl rfl
  · exact .taken (map_taken hl syncBatch) rfl

theorem sync_move (hl : (p.outbox.map (·.scanId)).Nodup) : OutboxMove p p.sync [] := by
  unfold Phone.sync
  split
  · exact Beside.move ⟨rfl, rfl⟩
  · exact takeBatch_move hl

theorem resume_move (hl : (p.outbox.map (·.scanId)).Nodup) : OutboxMove p p.resume [] := by
  unfold Phone.resume
  split
  · unfold Phone.takeBatch
    split_ifs
    · exact .ended rfl rfl
    · exact .taken (map_taken hl syncBatch) rfl
  · exact (Beside.refl p).move

variable [DecidableEq κ]

theorem beside_keepUnsent (p : Phone κ) (i : OutboxItem κ) : Beside p (p.keepUnsent i) := by
  unfold Phone.keepUnsent
  split
  · split_ifs
    · exact ⟨rfl, rfl⟩
    · exact .refl p
  · exact .refl p

theorem beside_adopt (p : Phone κ) (l : OfflineList κ) : Beside p (p.adopt l) := by
  unfold Phone.adopt
  have hlist : Beside p { p with list := some l } := ⟨rfl, rfl⟩
  have hdrop : ∀ (p : Phone κ) (e : Sigma fun _ : κ => Mark), Beside p (p.dropMark e.1) :=
    fun _ _ => ⟨rfl, rfl⟩
  exact (hlist.trans (Beside.foldl hdrop _ _)).trans (Beside.foldl beside_keepUnsent _ _)

theorem beside_learn (p : Phone κ) (now : Time) (id : κ) (result : ScanResult) :
    Beside p (p.learn now id result).1 := by
  unfold Phone.learn
  split_ifs <;> exact ⟨rfl, rfl⟩

theorem beside_settleEarly (p : Phone κ) (now : Time) (id : κ) (result : ScanResult) :
    Beside p (p.settleEarly now id result).1 := by
  unfold Phone.settleEarly
  split_ifs
  · split <;> exact ⟨rfl, rfl⟩
  · exact ⟨rfl, rfl⟩
  · exact ⟨rfl, rfl⟩

theorem beside_learnCheckIns (p : Phone κ) (now : Time) (rows : List (WireCheckIn κ)) :
    Beside p (p.learnCheckIns now rows) := by
  refine Beside.foldl (fun p row => ?_) rows p
  unfold Phone.learnCheckIn
  split_ifs <;> exact ⟨rfl, rfl⟩

theorem beside_learnRelayRows (p : Phone κ) (now : Time) (rows : List (RelayRow κ)) :
    Beside p (p.learnRelayRows now rows) := by
  refine Beside.foldl (fun p row => ?_) rows p
  unfold Phone.learnRelayRow
  split_ifs
  · exact .refl p
  · split <;> exact ⟨rfl, rfl⟩

theorem beside_learnRelayUndo (p : Phone κ) (id : κ) (undo : RelayUndo) :
    Beside p (p.learnRelayUndo id undo).1 := by
  unfold Phone.learnRelayUndo
  split_ifs
  · exact ⟨rfl, rfl⟩
  · split <;> exact .refl p

theorem beside_nowKnown (now : Time) (p : Phone κ) (i : OutboxItem κ) :
    Beside p (p.nowKnown now i) := by
  unfold Phone.nowKnown
  split
  · split
    · split_ifs <;> exact ⟨rfl, rfl⟩
    · exact .refl p
  · exact .refl p

theorem answer_move (p : Phone κ) (r : Read κ) (method : ScanMethod) (supersedes : Option Id)
    (scanId : Id) : (p.answer r method supersedes scanId).1.outbox = p.outbox ++
        [p.outboxItem r method supersedes scanId r.at_ (p.judge r).verdict] ∧
      (p.answer r method supersedes scanId).1.running = p.running := by
  unfold Phone.answer
  split
  · dsimp only
    split_ifs <;> exact ⟨rfl, rfl⟩
  · exact ⟨rfl, rfl⟩

theorem undo_move (p : Phone κ) (now : Time) (scanId : Id) :
    OutboxMove p (p.undo now scanId).1
      (.undid scanId (p.undo now scanId).2.1 :: (p.undo now scanId).2.2.map .told) := by
  unfold Phone.undo
  dsimp only
  generalize hfind : p.outbox.find? (·.scanId == scanId) = found
  rcases found with _ | i
  · exact .refused (by simp [localUndo]) rfl rfl
  have hid : i.scanId = scanId := by simpa using List.find?_some hfind
  subst hid
  have hmem := List.mem_of_find?_eq_some hfind
  dsimp only
  by_cases hdone : localUndo (some i) now (p.inFlight.contains i.scanId) = .done
  swap
  · rw [if_pos hdone]
    exact .refused hdone rfl rfl
  rw [if_neg (not_not.2 hdone)]
  have hunsent : i.attempted = false := by
    unfold localUndo at hdone
    dsimp only at hdone
    split_ifs at hdone with hverdict hsent
    simp only [Bool.or_eq_true, not_or, Bool.not_eq_true] at hsent
    exact hsent.1
  split <;> exact .undone hmem hunsent rfl rfl

theorem batchReply_move (p : Phone κ) (now : Time) (reply : Phone.SyncReply) :
    OutboxMove p (p.step (.batchReply now reply)).1 (p.step (.batchReply now reply)).2 := by
  unfold Phone.step Phone.batchReply
  rcases hrunning : p.running with _ | batch | batch | again
  · exact (Beside.refl p).move
  · exact (Beside.refl p).move
  · dsimp only
    cases reply with
    | unheard => exact .ended rfl rfl
    | ok =>
      have hknown := fun q : Phone κ => Beside.foldl (beside_nowKnown now) batch q
      exact .answered hrunning (by simp only [if_true, (hknown _).outbox]) rfl
    | refused => exact .answered hrunning rfl rfl
  · exact (Beside.refl p).move

theorem phone_move (hl : (p.outbox.map (·.scanId)).Nodup) (e : PhoneEvent κ) :
    OutboxMove p (p.step e).1 (p.step e).2 := by
  cases e with
  | list l => exact (beside_adopt p l).move
  | answer r method supersedes scanId =>
    obtain ⟨houtbox, hrunning⟩ := answer_move p r method supersedes scanId
    exact .queued rfl houtbox hrunning
  | learn now id result => exact (beside_learn p now id result).idle _
  | admitEarly now id => exact .idle rfl rfl
  | settleEarly now id result => exact (beside_settleEarly p now id result).idle _
  | queueEarlyAdmit now r method supersedes scanId => exact @OutboxMove.queued _ _ _ _ [] rfl rfl rfl
  | checkIns now rows => exact (beside_learnCheckIns p now rows).move
  | relayRows now rows => exact (beside_learnRelayRows p now rows).move
  | relayUndo id undo => exact (beside_learnRelayUndo p id undo).idle _
  | undo now scanId => exact undo_move p now scanId
  | sync => exact sync_move hl
  | resume => exact resume_move hl
  | sendBatch =>
    unfold Phone.step Phone.sendBatch
    rcases hrunning : p.running with _ | batch | batch | again
    · exact (Beside.refl p).move
    · exact .sent hrunning rfl rfl
    · exact (Beside.refl p).move
    · exact (Beside.refl p).move
  | batchReply now reply => exact batchReply_move p now reply
  | batchRemoved =>
    unfold Phone.step Phone.batchRemoved
    rcases hrunning : p.running with _ | batch | batch | again
    · exact (Beside.refl p).move
    · exact (Beside.refl p).move
    · exact (Beside.refl p).move
    · dsimp only
      split_ifs
      · exact takeBatch_move hl
      · exact .ended rfl rfl

end Moves

section Books

/-- A request that carried the scan left. -/
def SentScan (log : List (PhoneNote κ)) (i : OutboxItem κ) : Prop :=
  ∃ batch, .sent batch ∈ log ∧ i ∈ batch

def PhoneNote.answers (scanId : Id) : PhoneNote κ → Nat
  | .answered batch => (batch.map (·.scanId)).count scanId
  | _ => 0

/-- How many answers took the scan out of the outbox. -/
def answersTo (log : List (PhoneNote κ)) (scanId : Id) : Nat := (log.map (·.answers scanId)).sum

/-- `j` in the outbox is the scan `i` as it was queued, or as its undo left it. -/
structure Kept (log : List (PhoneNote κ)) (i j : OutboxItem κ) : Prop where
  same : j = { i with attempted := j.attempted, verdict := j.verdict }
  undone : .undid i.scanId .done ∈ log → j.verdict = .undone
  standing : .undid i.scanId .done ∉ log → j.verdict = i.verdict

/-- A queued scan waits for its answer, or it got one and is out. -/
def Waits (log : List (PhoneNote κ)) (p : Phone κ) (i : OutboxItem κ) : Prop :=
  answersTo log i.scanId = 0 ∧ ∃ j ∈ p.outbox, Kept log i j

def Left (log : List (PhoneNote κ)) (p : Phone κ) (i : OutboxItem κ) : Prop :=
  answersTo log i.scanId = 1 ∧ ∀ j ∈ p.outbox, j.scanId ≠ i.scanId

/-- What the record of a run and the phone it left have in common. -/
structure Books (log : List (PhoneNote κ)) (p : Phone κ) : Prop where
  nodup : (p.outbox.map (·.scanId)).Nodup
  known : ∀ j ∈ p.outbox, ∃ i, .queued i ∈ log ∧ i.scanId = j.scanId
  kept : ∀ i, .queued i ∈ log → Waits log p i ∨ Left log p i
  undid : ∀ scanId, .undid scanId .done ∈ log → ∃ i, .queued i ∈ log ∧ i.scanId = scanId
  attempted : ∀ b, SentScan log b → b.attempted = true
  inOutbox : ∀ b, SentScan log b → b ∈ p.outbox ∨ 1 ≤ answersTo log b.scanId
  sentQueued : ∀ b, SentScan log b → ∃ i, .queued i ∈ log ∧ i.scanId = b.scanId
  once : ∀ b b', SentScan log b → SentScan log b' → b.scanId = b'.scanId → b = b'
  never : ∀ b, SentScan log b → .undid b.scanId .done ∈ log → b.verdict ≠ .admitted
  answered : ∀ batch, .answered batch ∈ log → .sent batch ∈ log
  batch : ∀ batch, p.running = some (.saving batch) ∨ p.running = some (.inFlight batch) →
    (batch.map (·.scanId)).Nodup ∧ ∀ b ∈ batch, b ∈ p.outbox ∧ b.attempted = true
  flying : ∀ batch, p.running = some (.inFlight batch) → .sent batch ∈ log

variable {log : List (PhoneNote κ)} {p p' : Phone κ}

@[simp] theorem answersTo_nil (scanId : Id) : answersTo ([] : List (PhoneNote κ)) scanId = 0 := rfl

theorem answersTo_append (log notes : List (PhoneNote κ)) (scanId : Id) :
    answersTo (log ++ notes) scanId = answersTo log scanId + answersTo notes scanId := by
  unfold answersTo
  rw [List.map_append, List.sum_append]

@[simp] theorem answersTo_told (told : List (RelayOwnMark κ)) (scanId : Id) :
    answersTo (told.map .told) scanId = 0 := by
  induction told with
  | nil => rfl
  | cons m told ih =>
    show 0 + answersTo (told.map .told) scanId = 0
    rw [ih]

theorem answersTo_pos {scanId : Id} (h : 1 ≤ answersTo log scanId) :
    ∃ batch, .answered batch ∈ log ∧ scanId ∈ batch.map (·.scanId) := by
  induction log with
  | nil => cases h
  | cons note log ih =>
    have hsum : answersTo (note :: log) scanId = note.answers scanId + answersTo log scanId := rfl
    by_cases hnote : note.answers scanId = 0
    · obtain ⟨batch, hbatch, hmem⟩ := ih (by omega)
      exact ⟨batch, List.mem_cons_of_mem _ hbatch, hmem⟩
    · cases note with
      | answered batch =>
        have hcount : (batch.map (·.scanId)).count scanId ≠ 0 := hnote
        exact ⟨batch, List.mem_cons_self, List.count_pos_iff.1 (by omega)⟩
      | _ => exact absurd rfl hnote

/-- A scan that is in the outbox has had no answer. -/
theorem Books.unanswered (h : Books log p) {j : OutboxItem κ} (hj : j ∈ p.outbox) :
    answersTo log j.scanId = 0 := by
  obtain ⟨i, hi, hid⟩ := h.known j hj
  rcases h.kept i hi with hstanding | hgone
  · rw [← hid]
    exact hstanding.1
  · exact absurd hid.symm (hgone.2 j hj)

/-- What was sent of a scan in the outbox is what stands there. -/
theorem Books.sent_eq (h : Books log p) {b j : OutboxItem κ} (hb : SentScan log b)
    (hj : j ∈ p.outbox) (hid : b.scanId = j.scanId) : b = j := by
  rcases h.inOutbox b hb with hmem | hanswer
  · exact eq_of_scanId h.nodup hmem hj hid
  · have hzero := h.unanswered hj
    rw [← hid] at hzero
    omega

theorem Books.start (passId : Id) (gate : String) : Books [] (Phone.start passId gate : Phone κ) where
  nodup := List.nodup_nil
  known := by simp [Phone.start]
  kept := by simp
  undid := by simp
  attempted := by simp [SentScan]
  inOutbox := by simp [SentScan]
  sentQueued := by simp [SentScan]
  once := by simp [SentScan]
  never := by simp [SentScan]
  answered := by simp
  batch := by simp [Phone.start]
  flying := by simp [Phone.start]

/-- Two records that tell the same of the outbox. -/
structure SameBooks (log log' : List (PhoneNote κ)) : Prop where
  queued : ∀ i, .queued i ∈ log' ↔ .queued i ∈ log
  undid : ∀ scanId, .undid scanId .done ∈ log' ↔ .undid scanId .done ∈ log
  sent : ∀ batch, .sent batch ∈ log' ↔ .sent batch ∈ log
  answered : ∀ batch, .answered batch ∈ log' ↔ .answered batch ∈ log
  answers : ∀ scanId, answersTo log' scanId = answersTo log scanId

theorem SameBooks.told (log : List (PhoneNote κ)) (told : List (RelayOwnMark κ)) :
    SameBooks log (log ++ told.map .told) where
  queued := by simp
  undid := by simp
  sent := by simp
  answered := by simp
  answers scanId := by rw [answersTo_append, answersTo_told, Nat.add_zero]

theorem SameBooks.refused (log : List (PhoneNote κ)) (scanId : Id) {outcome : OfflineUndo}
    (h : outcome ≠ .done) : SameBooks log (log ++ [.undid scanId outcome]) where
  queued := by simp
  undid scanId' := by
    simp only [List.mem_append, List.mem_singleton, PhoneNote.undid.injEq, or_iff_left_iff_imp]
    exact fun heq => absurd heq.2.symm h
  sent := by simp
  answered := by simp
  answers scanId' := by rw [answersTo_append]; rfl

theorem Books.same {log' : List (PhoneNote κ)} (h : Books log p) (hlog : SameBooks log log')
    (outbox : p'.outbox = p.outbox) (running : p'.running = p.running ∨ p'.running = none) :
    Books log' p' := by
  have hsent : ∀ b, SentScan log' b → SentScan log b := by
    rintro b ⟨batch, hbatch, hb⟩
    exact ⟨batch, (hlog.sent batch).1 hbatch, hb⟩
  have hrunning : ∀ r, p'.running = some r → p.running = some r := by
    intro r hr
    rcases running with heq | hnone
    · rwa [← heq]
    · rw [hnone] at hr
      cases hr
  constructor
  case nodup =>
    rw [outbox]
    exact h.nodup
  case known =>
    intro j hj
    rw [outbox] at hj
    obtain ⟨i, hi, hid⟩ := h.known j hj
    exact ⟨i, (hlog.queued i).2 hi, hid⟩
  case kept =>
    intro i hi
    rw [Waits, Left, hlog.answers, outbox]
    rcases h.kept i ((hlog.queued i).1 hi) with ⟨hzero, j, hj, hkept⟩ | hgone
    · refine .inl ⟨hzero, j, hj, hkept.same, ?_, ?_⟩
      · rw [hlog.undid]
        exact hkept.undone
      · rw [hlog.undid]
        exact hkept.standing
    · exact .inr hgone
  case undid =>
    intro scanId hundid
    obtain ⟨i, hi, hid⟩ := h.undid scanId ((hlog.undid scanId).1 hundid)
    exact ⟨i, (hlog.queued i).2 hi, hid⟩
  case attempted => exact fun b hb => h.attempted b (hsent b hb)
  case inOutbox =>
    intro b hb
    rw [outbox, hlog.answers]
    exact h.inOutbox b (hsent b hb)
  case sentQueued =>
    intro b hb
    obtain ⟨i, hi, hid⟩ := h.sentQueued b (hsent b hb)
    exact ⟨i, (hlog.queued i).2 hi, hid⟩
  case once => exact fun b b' hb hb' => h.once b b' (hsent b hb) (hsent b' hb')
  case never => exact fun b hb hundid => h.never b (hsent b hb) ((hlog.undid _).1 hundid)
  case answered =>
    exact fun batch hbatch => (hlog.sent batch).2 (h.answered batch ((hlog.answered batch).1 hbatch))
  case batch =>
    intro batch hbatch
    rw [outbox]
    exact h.batch batch (hbatch.imp (hrunning _) (hrunning _))
  case flying => exact fun batch hbatch => (hlog.sent batch).2 (h.flying batch (hrunning _ hbatch))

/-- An id that no queued scan has is not in the outbox, was never sent and got no answer. -/
structure Unused (log : List (PhoneNote κ)) (p : Phone κ) (scanId : Id) : Prop where
  outbox : ∀ j ∈ p.outbox, j.scanId ≠ scanId
  sent : ∀ b, SentScan log b → b.scanId ≠ scanId
  undid : .undid scanId .done ∉ log
  answers : answersTo log scanId = 0

theorem Books.unused (h : Books log p) {scanId : Id}
    (hnew : ∀ i, .queued i ∈ log → i.scanId ≠ scanId) : Unused log p scanId := by
  have hsent : ∀ b, SentScan log b → b.scanId ≠ scanId := by
    intro b hb
    obtain ⟨i, hi, hid⟩ := h.sentQueued b hb
    rw [← hid]
    exact hnew i hi
  refine ⟨?_, hsent, ?_, ?_⟩
  · intro j hj
    obtain ⟨i, hi, hid⟩ := h.known j hj
    rw [← hid]
    exact hnew i hi
  · intro hundid
    obtain ⟨i, hi, hid⟩ := h.undid scanId hundid
    exact hnew i hi hid
  · by_contra hne
    obtain ⟨batch, hbatch, hmem⟩ := answersTo_pos (Nat.one_le_iff_ne_zero.2 hne)
    obtain ⟨b, hb, hid⟩ := List.mem_map.1 hmem
    exact hsent b ⟨batch, h.answered batch hbatch, hb⟩ hid

/-- Queueing a scan with a new id. -/
theorem Books.queue (h : Books log p) {i : OutboxItem κ}
    (hnew : ∀ j, .queued j ∈ log → j.scanId ≠ i.scanId) (outbox : p'.outbox = p.outbox ++ [i])
    (running : p'.running = p.running) : Books (log ++ [.queued i]) p' := by
  have hunused := h.unused hnew
  have hsent : ∀ b, SentScan (log ++ [.queued i]) b → SentScan log b := by
    rintro b ⟨batch, hbatch, hb⟩
    exact ⟨batch, by simpa using hbatch, hb⟩
  have hanswers : ∀ scanId, answersTo (log ++ [.queued i]) scanId = answersTo log scanId := by
    intro scanId
    rw [answersTo_append]
    rfl
  have hmem : ∀ j ∈ p.outbox, j ∈ p'.outbox := by
    intro j hj
    rw [outbox]
    exact List.mem_append_left _ hj
  constructor
  case nodup =>
    rw [outbox, List.map_append, List.nodup_append]
    refine ⟨h.nodup, List.nodup_singleton _, ?_⟩
    intro scanId hscanId scanId' hscanId'
    obtain ⟨j, hj, rfl⟩ := List.mem_map.1 hscanId
    rw [List.map_singleton, List.mem_singleton] at hscanId'
    rw [hscanId']
    exact hunused.outbox j hj
  case known =>
    intro j hj
    rw [outbox] at hj
    rcases List.mem_append.1 hj with hj | hj
    · obtain ⟨k, hk, hid⟩ := h.known j hj
      exact ⟨k, List.mem_append_left _ hk, hid⟩
    · rw [List.mem_singleton] at hj
      exact ⟨i, by simp, by rw [hj]⟩
  case kept =>
    intro k hk
    rw [Waits, Left, hanswers]
    rcases List.mem_append.1 hk with hk | hk
    · rcases h.kept k hk with ⟨hzero, j, hj, hkept⟩ | ⟨hone, hout⟩
      · exact .inl ⟨hzero, j, hmem j hj, hkept.same, by simpa using hkept.undone,
          by simpa using hkept.standing⟩
      · refine .inr ⟨hone, fun j hj => ?_⟩
        rw [outbox] at hj
        rcases List.mem_append.1 hj with hj | hj
        · exact hout j hj
        · rw [List.mem_singleton] at hj
          rw [hj]
          exact (hnew k hk).symm
    · simp only [List.mem_singleton, PhoneNote.queued.injEq] at hk
      rw [hk]
      refine .inl ⟨hunused.answers, i, by rw [outbox]; simp, rfl, fun hundid => ?_, fun _ => rfl⟩
      exact absurd (by simpa using hundid) hunused.undid
  case undid =>
    intro scanId hundid
    obtain ⟨k, hk, hid⟩ := h.undid scanId (by simpa using hundid)
    exact ⟨k, List.mem_append_left _ hk, hid⟩
  case attempted => exact fun b hb => h.attempted b (hsent b hb)
  case inOutbox =>
    intro b hb
    rw [hanswers]
    exact (h.inOutbox b (hsent b hb)).imp_left (hmem b)
  case sentQueued =>
    intro b hb
    obtain ⟨k, hk, hid⟩ := h.sentQueued b (hsent b hb)
    exact ⟨k, List.mem_append_left _ hk, hid⟩
  case once => exact fun b b' hb hb' => h.once b b' (hsent b hb) (hsent b' hb')
  case never => exact fun b hb hundid => h.never b (hsent b hb) (by simpa using hundid)
  case answered =>
    exact fun batch hbatch => List.mem_append_left _ (h.answered batch (by simpa using hbatch))
  case batch =>
    intro batch hbatch
    rw [running] at hbatch
    obtain ⟨hnodup, hall⟩ := h.batch batch hbatch
    exact ⟨hnodup, fun b hb => ⟨hmem b (hall b hb).1, (hall b hb).2⟩⟩
  case flying =>
    intro batch hbatch
    rw [running] at hbatch
    exact List.mem_append_left _ (h.flying batch hbatch)

/-- Taking back a scan that was never sent. -/
theorem Books.undo (h : Books log p) {i : OutboxItem κ} (hi : i ∈ p.outbox)
    (hunsent : i.attempted = false)
    (outbox : p'.outbox = p.outbox.map fun j =>
      if j.scanId = i.scanId then { i with verdict := .undone } else j)
    (running : p'.running = p.running) : Books (log ++ [.undid i.scanId .done]) p' := by
  have hsent : ∀ b, SentScan (log ++ [.undid i.scanId .done]) b → SentScan log b := by
    rintro b ⟨batch, hbatch, hb⟩
    exact ⟨batch, by simpa using hbatch, hb⟩
  have hanswers : ∀ scanId,
      answersTo (log ++ [.undid i.scanId .done]) scanId = answersTo log scanId := by
    intro scanId
    rw [answersTo_append]
    rfl
  have hother : ∀ b, b ∈ p.outbox → b.attempted = true → b.scanId ≠ i.scanId := by
    intro b hb hattempted hid
    rw [eq_of_scanId h.nodup hb hi hid, hunsent] at hattempted
    cases hattempted
  have hstays : ∀ b ∈ p.outbox, b.scanId ≠ i.scanId → b ∈ p'.outbox := by
    intro b hb hid
    rw [outbox]
    exact List.mem_map.2 ⟨b, hb, if_neg hid⟩
  have hids : p'.outbox.map (·.scanId) = p.outbox.map (·.scanId) := by
    rw [outbox, List.map_map]
    refine List.map_congr_left fun j _ => ?_
    simp only [Function.comp_apply]
    split_ifs with hid
    · exact hid.symm
    · rfl
  have hback : ∀ j ∈ p'.outbox, ∃ k ∈ p.outbox, k.scanId = j.scanId := by
    intro j hj
    have hid : j.scanId ∈ p.outbox.map (·.scanId) := by
      rw [← hids]
      exact List.mem_map_of_mem hj
    simpa using hid
  constructor
  case nodup =>
    rw [hids]
    exact h.nodup
  case known =>
    intro j hj
    obtain ⟨k, hk, hid⟩ := hback j hj
    obtain ⟨i', hi', hid'⟩ := h.known k hk
    exact ⟨i', List.mem_append_left _ hi', hid'.trans hid⟩
  case kept =>
    intro k hk
    rw [Waits, Left, hanswers]
    rcases h.kept k (by simpa using hk) with ⟨hzero, j, hj, hkept⟩ | ⟨hone, hout⟩
    · have hjk : j.scanId = k.scanId := by rw [hkept.same]
      refine .inl ⟨hzero, ?_⟩
      by_cases hid : j.scanId = i.scanId
      · have hji := eq_of_scanId h.nodup hj hi hid
        refine ⟨{ i with verdict := .undone }, ?_, ?_, fun _ => rfl, fun hnot => ?_⟩
        · rw [outbox]
          exact List.mem_map.2 ⟨i, hi, if_pos rfl⟩
        · rw [← hji, hkept.same]
        · refine absurd ?_ hnot
          rw [← hjk, hid]
          simp
      · refine ⟨j, hstays j hj hid, hkept.same, fun hundid => hkept.undone ?_,
          fun hnot => hkept.standing fun hundid => hnot (List.mem_append_left _ hundid)⟩
        have hne : k.scanId ≠ i.scanId := hjk ▸ hid
        simpa [hne] using hundid
    · refine .inr ⟨hone, fun j hj => ?_⟩
      obtain ⟨k', hk', hid⟩ := hback j hj
      rw [← hid]
      exact hout k' hk'
  case undid =>
    intro scanId hundid
    rcases List.mem_append.1 hundid with hundid | hundid
    · obtain ⟨k, hk, hid⟩ := h.undid scanId hundid
      exact ⟨k, List.mem_append_left _ hk, hid⟩
    · simp only [List.mem_singleton, PhoneNote.undid.injEq, and_true] at hundid
      obtain ⟨k, hk, hid⟩ := h.known i hi
      exact ⟨k, List.mem_append_left _ hk, hid.trans hundid.symm⟩
  case attempted => exact fun b hb => h.attempted b (hsent b hb)
  case inOutbox =>
    intro b hb
    rw [hanswers]
    refine (h.inOutbox b (hsent b hb)).imp_left fun hmem => ?_
    exact hstays b hmem (hother b hmem (h.attempted b (hsent b hb)))
  case sentQueued =>
    intro b hb
    obtain ⟨k, hk, hid⟩ := h.sentQueued b (hsent b hb)
    exact ⟨k, List.mem_append_left _ hk, hid⟩
  case once => exact fun b b' hb hb' => h.once b b' (hsent b hb) (hsent b' hb')
  case never =>
    intro b hb hundid
    rcases List.mem_append.1 hundid with hundid | hundid
    · exact h.never b (hsent b hb) hundid
    · simp only [List.mem_singleton, PhoneNote.undid.injEq, and_true] at hundid
      have hbi := h.sent_eq (hsent b hb) hi hundid
      have hattempted := h.attempted b (hsent b hb)
      rw [hbi, hunsent] at hattempted
      cases hattempted
  case answered =>
    exact fun batch hbatch => List.mem_append_left _ (h.answered batch (by simpa using hbatch))
  case batch =>
    intro batch hbatch
    rw [running] at hbatch
    obtain ⟨hnodup, hall⟩ := h.batch batch hbatch
    refine ⟨hnodup, fun b hb => ⟨?_, (hall b hb).2⟩⟩
    exact hstays b (hall b hb).1 (hother b (hall b hb).1 (hall b hb).2)
  case flying =>
    intro batch hbatch
    rw [running] at hbatch
    exact List.mem_append_left _ (h.flying batch hbatch)

/-- Taking the next batch out of the outbox's front. -/
theorem Books.take (h : Books log p)
    (outbox : p'.outbox = (p.outbox.take syncBatch).map OutboxItem.attempt ++
      p.outbox.drop syncBatch)
    (running : p'.running = some (.saving ((p.outbox.take syncBatch).map OutboxItem.attempt))) :
    Books log p' := by
  have hids : p'.outbox.map (·.scanId) = p.outbox.map (·.scanId) := by
    rw [outbox, List.map_append, List.map_map]
    conv_rhs => rw [← List.take_append_drop syncBatch p.outbox, List.map_append]
    rfl
  have hforth : ∀ j ∈ p.outbox, j ∈ p'.outbox ∨ j.attempt ∈ p'.outbox := by
    intro j hj
    rw [outbox, List.mem_append, List.mem_append]
    rw [← List.take_append_drop syncBatch p.outbox] at hj
    rcases List.mem_append.1 hj with hj | hj
    · exact .inr (.inl (List.mem_map_of_mem hj))
    · exact .inl (.inr hj)
  have hback : ∀ j ∈ p'.outbox, ∃ k ∈ p.outbox, k.scanId = j.scanId := by
    intro j hj
    have hid : j.scanId ∈ p.outbox.map (·.scanId) := by
      rw [← hids]
      exact List.mem_map_of_mem hj
    simpa using hid
  constructor
  case nodup =>
    rw [hids]
    exact h.nodup
  case known =>
    intro j hj
    obtain ⟨k, hk, hid⟩ := hback j hj
    obtain ⟨i, hi, hid'⟩ := h.known k hk
    exact ⟨i, hi, hid'.trans hid⟩
  case kept =>
    intro i hi
    rcases h.kept i hi with ⟨hzero, j, hj, hkept⟩ | ⟨hone, hout⟩
    · refine .inl ⟨hzero, ?_⟩
      rcases hforth j hj with hmem | hmem
      · exact ⟨j, hmem, hkept⟩
      · refine ⟨j.attempt, hmem, ?_, hkept.undone, hkept.standing⟩
        rw [OutboxItem.attempt, hkept.same]
    · refine .inr ⟨hone, fun j hj => ?_⟩
      obtain ⟨k, hk, hid⟩ := hback j hj
      rw [← hid]
      exact hout k hk
  case undid => exact h.undid
  case attempted => exact h.attempted
  case inOutbox =>
    intro b hb
    refine (h.inOutbox b hb).imp_left fun hmem => ?_
    have hsame := attempt_of_attempted (h.attempted b hb)
    rcases hforth b hmem with hmem | hmem
    · exact hmem
    · rwa [hsame] at hmem
  case sentQueued => exact h.sentQueued
  case once => exact h.once
  case never => exact h.never
  case answered => exact h.answered
  case batch =>
    intro batch hbatch
    rw [running] at hbatch
    simp only [Option.some.injEq, Sending.saving.injEq, reduceCtorEq, or_false] at hbatch
    rw [← hbatch, List.map_map]
    refine ⟨?_, fun b hb => ⟨?_, ?_⟩⟩
    · have hsub : ((p.outbox.take syncBatch).map (·.scanId)).Sublist (p.outbox.map (·.scanId)) :=
        (List.take_sublist _ _).map _
      exact hsub.nodup h.nodup
    · rw [outbox]
      exact List.mem_append_left _ hb
    · obtain ⟨j, -, rfl⟩ := List.mem_map.1 hb
      rfl
  case flying =>
    intro batch hbatch
    rw [running] at hbatch
    cases hbatch

/-- The request of a batch leaves. -/
theorem Books.send (h : Books log p) {batch : List (OutboxItem κ)}
    (saving : p.running = some (.saving batch)) (outbox : p'.outbox = p.outbox)
    (running : p'.running = some (.inFlight batch)) : Books (log ++ [.sent batch]) p' := by
  obtain ⟨hnodup, hall⟩ := h.batch batch (.inl saving)
  have hsent : ∀ b, SentScan (log ++ [.sent batch]) b → SentScan log b ∨ b ∈ batch := by
    rintro b ⟨batch', hbatch, hb⟩
    rcases List.mem_append.1 hbatch with hbatch | hbatch
    · exact .inl ⟨batch', hbatch, hb⟩
    · simp only [List.mem_singleton, PhoneNote.sent.injEq] at hbatch
      rw [hbatch] at hb
      exact .inr hb
  have hanswers : ∀ scanId, answersTo (log ++ [.sent batch]) scanId = answersTo log scanId := by
    intro scanId
    rw [answersTo_append]
    rfl
  have hqueued : ∀ j ∈ p.outbox, ∃ i, .queued i ∈ log ++ [.sent batch] ∧ i.scanId = j.scanId := by
    intro j hj
    obtain ⟨i, hi, hid⟩ := h.known j hj
    exact ⟨i, List.mem_append_left _ hi, hid⟩
  constructor
  case nodup =>
    rw [outbox]
    exact h.nodup
  case known =>
    rw [outbox]
    exact hqueued
  case kept =>
    intro i hi
    rw [Waits, Left, hanswers, outbox]
    refine (h.kept i (by simpa using hi)).imp_left ?_
    rintro ⟨hzero, j, hj, hkept⟩
    exact ⟨hzero, j, hj, hkept.same, by simpa using hkept.undone, by simpa using hkept.standing⟩
  case undid =>
    intro scanId hundid
    obtain ⟨i, hi, hid⟩ := h.undid scanId (by simpa using hundid)
    exact ⟨i, List.mem_append_left _ hi, hid⟩
  case attempted =>
    intro b hb
    rcases hsent b hb with hb | hb
    · exact h.attempted b hb
    · exact (hall b hb).2
  case inOutbox =>
    intro b hb
    rw [hanswers, outbox]
    rcases hsent b hb with hb | hb
    · exact h.inOutbox b hb
    · exact .inl (hall b hb).1
  case sentQueued =>
    intro b hb
    rcases hsent b hb with hb | hb
    · obtain ⟨i, hi, hid⟩ := h.sentQueued b hb
      exact ⟨i, List.mem_append_left _ hi, hid⟩
    · exact hqueued b (hall b hb).1
  case once =>
    intro b b' hb hb' hid
    rcases hsent b hb with hb | hb <;> rcases hsent b' hb' with hb' | hb'
    · exact h.once b b' hb hb' hid
    · exact h.sent_eq hb (hall b' hb').1 hid
    · exact (h.sent_eq hb' (hall b hb).1 hid.symm).symm
    · exact eq_of_scanId h.nodup (hall b hb).1 (hall b' hb').1 hid
  case never =>
    intro b hb hundid
    have hundid : .undid b.scanId .done ∈ log := by simpa using hundid
    rcases hsent b hb with hb | hb
    · exact h.never b hb hundid
    · obtain ⟨i, hi, hid⟩ := h.known b (hall b hb).1
      rcases h.kept i hi with ⟨-, j, hj, hkept⟩ | ⟨-, hout⟩
      · have hji : j.scanId = i.scanId := by rw [hkept.same]
        have hjb := eq_of_scanId h.nodup hj (hall b hb).1 (hji.trans hid)
        have hundone := hkept.undone (hid ▸ hundid)
        rw [← hjb, hundone]
        decide
      · exact absurd hid.symm (hout b (hall b hb).1)
  case answered =>
    exact fun batch' hbatch => List.mem_append_left _ (h.answered batch' (by simpa using hbatch))
  case batch =>
    intro batch' hbatch
    rw [running] at hbatch
    simp only [Option.some.injEq, Sending.inFlight.injEq, reduceCtorEq, false_or] at hbatch
    rw [← hbatch, outbox]
    exact ⟨hnodup, hall⟩
  case flying =>
    intro batch' hbatch
    rw [running] at hbatch
    cases hbatch
    simp

/-- The answer to a batch. -/
theorem Books.answer (h : Books log p) {batch : List (OutboxItem κ)} {again : Bool}
    (inFlight : p.running = some (.inFlight batch))
    (outbox : p'.outbox = p.outbox.filter fun i => !(batch.map (·.scanId)).contains i.scanId)
    (running : p'.running = some (.removing again)) : Books (log ++ [.answered batch]) p' := by
  obtain ⟨hnodup, hall⟩ := h.batch batch (.inr inFlight)
  have hsent : ∀ b, SentScan (log ++ [.answered batch]) b → SentScan log b := by
    rintro b ⟨batch', hbatch, hb⟩
    exact ⟨batch', by simpa using hbatch, hb⟩
  have hanswers : ∀ scanId, answersTo (log ++ [.answered batch]) scanId =
      answersTo log scanId + (batch.map (·.scanId)).count scanId := by
    intro scanId
    rw [answersTo_append]
    rfl
  have hmem : ∀ j, j ∈ p'.outbox ↔ j ∈ p.outbox ∧ j.scanId ∉ batch.map (·.scanId) := by
    intro j
    rw [outbox, List.mem_filter, Bool.not_eq_true', List.contains_eq_mem, decide_eq_false_iff_not]
  constructor
  case nodup =>
    rw [outbox]
    exact (List.filter_sublist.map _).nodup h.nodup
  case known =>
    intro j hj
    obtain ⟨i, hi, hid⟩ := h.known j ((hmem j).1 hj).1
    exact ⟨i, List.mem_append_left _ hi, hid⟩
  case kept =>
    intro i hi
    rw [Waits, Left, hanswers]
    rcases h.kept i (by simpa using hi) with ⟨hzero, j, hj, hkept⟩ | ⟨hone, hout⟩
    · have hji : j.scanId = i.scanId := by rw [hkept.same]
      by_cases hin : i.scanId ∈ batch.map (·.scanId)
      · refine .inr ⟨?_, fun k hk hki => ((hmem k).1 hk).2 (hki ▸ hin)⟩
        rw [hzero, List.count_eq_one_of_mem hnodup hin]
      · refine .inl ⟨?_, j, (hmem j).2 ⟨hj, hji ▸ hin⟩, hkept.same, by simpa using hkept.undone,
          by simpa using hkept.standing⟩
        rw [hzero, List.count_eq_zero_of_not_mem hin]
    · refine .inr ⟨?_, fun j hj => hout j ((hmem j).1 hj).1⟩
      have hnot : i.scanId ∉ batch.map (·.scanId) := by
        intro hin
        obtain ⟨b, hb, hid⟩ := List.mem_map.1 hin
        exact hout b (hall b hb).1 hid
      rw [hone, List.count_eq_zero_of_not_mem hnot]
  case undid =>
    intro scanId hundid
    obtain ⟨i, hi, hid⟩ := h.undid scanId (by simpa using hundid)
    exact ⟨i, List.mem_append_left _ hi, hid⟩
  case attempted => exact fun b hb => h.attempted b (hsent b hb)
  case inOutbox =>
    intro b hb
    rw [hanswers, hmem]
    by_cases hin : b.scanId ∈ batch.map (·.scanId)
    · have hcount := List.count_pos_iff.2 hin
      exact .inr (by omega)
    · rcases h.inOutbox b (hsent b hb) with hb | hb
      · exact .inl ⟨hb, hin⟩
      · exact .inr (by omega)
  case sentQueued =>
    intro b hb
    obtain ⟨i, hi, hid⟩ := h.sentQueued b (hsent b hb)
    exact ⟨i, List.mem_append_left _ hi, hid⟩
  case once => exact fun b b' hb hb' => h.once b b' (hsent b hb) (hsent b' hb')
  case never => exact fun b hb hundid => h.never b (hsent b hb) (by simpa using hundid)
  case answered =>
    intro batch' hbatch
    rcases List.mem_append.1 hbatch with hbatch | hbatch
    · exact List.mem_append_left _ (h.answered batch' hbatch)
    · simp only [List.mem_singleton, PhoneNote.answered.injEq] at hbatch
      rw [hbatch]
      exact List.mem_append_left _ (h.flying batch inFlight)
  case batch =>
    intro batch' hbatch
    rw [running] at hbatch
    simp at hbatch
  case flying =>
    intro batch' hbatch
    rw [running] at hbatch
    cases hbatch

theorem Books.move (h : Books log p) {notes : List (PhoneNote κ)} (hmove : OutboxMove p p' notes)
    (hnew : ∀ i, .queued i ∈ notes → ∀ j, .queued j ∈ log → j.scanId ≠ i.scanId) :
    Books (log ++ notes) p' := by
  cases hmove with
  | idle outbox running => exact h.same (.told log _) outbox (.inl running)
  | @refused told scanId _ hnot outbox running =>
    have hrefused := h.same (.refused log scanId hnot) outbox (.inl running)
    have htold : Books _ p' := hrefused.same (.told _ told) rfl (.inl rfl)
    rwa [List.append_assoc] at htold
  | @queued i told _ outbox running =>
    have hqueue := h.queue (hnew i List.mem_cons_self) outbox running
    have htold : Books _ p' := hqueue.same (.told _ told) rfl (.inl rfl)
    rwa [List.append_assoc] at htold
  | @undone i told mem unsent outbox running =>
    have hundo := h.undo mem unsent outbox running
    have htold : Books _ p' := hundo.same (.told _ told) rfl (.inl rfl)
    rwa [List.append_assoc] at htold
  | ended outbox running =>
    rw [List.append_nil]
    exact h.same ⟨by simp, by simp, by simp, by simp, by simp⟩ outbox (.inr running)
  | taken outbox running =>
    rw [List.append_nil]
    exact h.take outbox running
  | sent saving outbox running => exact h.send saving outbox running
  | answered inFlight outbox running => exact h.answer inFlight outbox running

variable [DecidableEq κ]

theorem queued_scanId {e : PhoneEvent κ} {i : OutboxItem κ} (h : .queued i ∈ (p.step e).2) :
    e.newScanId = some i.scanId := by
  cases e with
  | answer r method supersedes scanId =>
    simp only [Phone.step, List.mem_cons, PhoneNote.queued.injEq, List.mem_map, reduceCtorEq,
      and_false, exists_false, or_false] at h
    rw [h]
    rfl
  | queueEarlyAdmit now r method supersedes scanId =>
    simp only [Phone.step, List.mem_singleton, PhoneNote.queued.injEq] at h
    rw [h]
    rfl
  | sendBatch =>
    unfold Phone.step at h
    rcases hrunning : p.running with _ | batch | batch | again <;> simp [hrunning] at h
  | batchReply now reply =>
    unfold Phone.step at h
    rcases hrunning : p.running with _ | batch | batch | again <;> simp [hrunning] at h
  | _ => simp [Phone.step] at h

/-- The books stay right over a run whose scan ids are new and differ. -/
theorem Books.run : ∀ (events : List (PhoneEvent κ)) {log : List (PhoneNote κ)} {p : Phone κ},
    Books log p → (events.filterMap PhoneEvent.newScanId).Nodup →
    (∀ i, .queued i ∈ log → i.scanId ∉ events.filterMap PhoneEvent.newScanId) →
      Books (log ++ (p.run events).2) (p.run events).1
  | [], log, p, h, _, _ => by
    show Books (log ++ []) p
    rwa [List.append_nil]
  | e :: events, log, p, h, hnodup, hnew => by
    have hstep : Books (log ++ (p.step e).2) (p.step e).1 := by
      refine h.move (phone_move h.nodup e) fun i hi j hj hid => ?_
      have hfresh := hnew j hj
      rw [List.filterMap_cons_some (queued_scanId hi), hid] at hfresh
      exact hfresh List.mem_cons_self
    have hrest : (events.filterMap PhoneEvent.newScanId).Nodup := by
      have hsub : (events.filterMap PhoneEvent.newScanId).Sublist
          ((e :: events).filterMap PhoneEvent.newScanId) :=
        (List.sublist_cons_self e events).filterMap _
      exact hsub.nodup hnodup
    have hrun := Books.run events hstep hrest fun i hi hmem => by
      rcases List.mem_append.1 hi with hi | hi
      · refine hnew i hi ?_
        rcases hid : e.newScanId with _ | scanId
        · rwa [List.filterMap_cons_none hid]
        · rw [List.filterMap_cons_some hid]
          exact List.mem_cons_of_mem _ hmem
      · rw [List.filterMap_cons_some (queued_scanId hi)] at hnodup
        exact (List.nodup_cons.1 hnodup).1 hmem
    show Books (log ++ ((p.step e).2 ++ ((p.step e).1.run events).2)) ((p.step e).1.run events).1
    rwa [← List.append_assoc]

end Books

section Agreement

variable [DecidableEq κ]

/-- The outbox and the undo agree: on the phone a run left, and on the record of the run. -/
structure OutboxAgrees (p : Phone κ) (log : List (PhoneNote κ)) : Prop where
  /-- No request carries an undone scan as an admission. -/
  undone : ∀ scanId, .undid scanId .done ∈ log →
    ∀ i, SentScan log i → i.scanId = scanId → i.verdict ≠ .admitted
  oneVerdict : ∀ i j, SentScan log i → SentScan log j → i.scanId = j.scanId → i.verdict = j.verdict
  /-- A scan is in the outbox, and nothing else in its place, until its one answer. -/
  kept : ∀ i, .queued i ∈ log → Waits log p i ∨ Left log p i
  alone : (p.outbox.map (·.scanId)).Nodup
  notStale : ∀ i, SentScan log i → ∀ j ∈ p.outbox, i.scanId = j.scanId → i = j
  /-- Only an answer to a request that left takes scans out. -/
  answered : ∀ batch, .answered batch ∈ log → .sent batch ∈ log

/-- Over every order of scans, undos, sends, time-outs and answers, with the scan ids the phone
makes up all different. -/
theorem outbox_agrees (passId : Id) (gate : String) (events : List (PhoneEvent κ))
    (hids : (events.filterMap PhoneEvent.newScanId).Nodup) :
    OutboxAgrees ((Phone.start passId gate).run events).1
      ((Phone.start passId gate).run events).2 := by
  have h : Books ([] ++ _) _ := Books.run events (.start passId gate) hids fun i hi => by cases hi
  rw [List.nil_append] at h
  refine ⟨?_, ?_, h.kept, h.nodup, fun i hi j hj hid => h.sent_eq hi hj hid, h.answered⟩
  · intro scanId hundid i hi hid
    rw [← hid] at hundid
    exact h.never i hi hundid
  · intro i j hi hj hid
    rw [h.once i j hi hj hid]

def eveningEntry (id : Nat) : OfflineEntry Nat where
  d := toString id
  id := id
  name := "Guest"
  type := "Standard"
  pos := 1
  of := 1
  status := .issued
  inAt := none
  inBy := none

def eveningRead (id : Nat) : Read Nat where
  raw := "code"
  entry := some (eveningEntry id)
  at_ := 1000
  validFrom := 0

/-- Two offline admits, one taken back in time and one too late, and a batch that times out. -/
def undoEvening : List (PhoneEvent Nat) :=
  [.answer (eveningRead 1) .qr none 11, .answer (eveningRead 2) .typed none 12, .undo 1500 12,
    .sync, .undo 1600 11, .sendBatch, .sync, .batchReply 9000 .unheard, .resume, .sendBatch,
    .batchReply 9500 .ok, .batchRemoved]

theorem outbox_agrees_undoEvening :
    OutboxAgrees ((Phone.start 1 "A").run undoEvening).1
      ((Phone.start 1 "A").run undoEvening).2 :=
  outbox_agrees 1 "A" undoEvening (by decide)

example : ((Phone.start 1 "A").run undoEvening).1.outbox = [] := by decide +kernel

end Agreement

end EchoAndAura
