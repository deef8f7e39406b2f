import EchoAndAura.Phone

/-!
# What a phone knows of one ticket

Each stretch of the phone, seen from one ticket: what becomes of its mark.
-/

namespace EchoAndAura

variable {κ : Type}

theorem judgeOffline_admitted {entry : Option (OfflineEntry κ)} {known : Option LocalAdmit}
    {now validFrom : Time} : (judgeOffline entry known now validFrom).result = .admitted ↔
      known = none ∧ ¬ now < validFrom ∧
        ∃ e, entry = some e ∧ e.status ≠ .cancelled ∧ e.inAt = none := by
  unfold judgeOffline
  rcases entry with _ | e
  · simp
  by_cases hstatus : e.status = .cancelled
  · simp [hstatus]
  rcases known with _ | l
  swap
  · simp [hstatus]
  rcases hin : e.inAt with _ | t
  swap
  · simp [hstatus, hin]
  by_cases hpractice : now < validFrom
  · simp [hstatus, hin, hpractice]
  · simp [hstatus, hin, hpractice]

variable [DecidableEq κ] {p : Phone κ} {id T : κ}

namespace Phone

section Marks

theorem mark_setMark (p : Phone κ) (id T : κ) (m : Mark) :
    (p.setMark id m).mark T = if T = id then some m else p.mark T :=
  Table.lookup_insert_eq p.marks id T m

theorem mark_dropMark (p : Phone κ) (id T : κ) :
    (p.dropMark id).mark T = if T = id then none else p.mark T :=
  Table.lookup_erase_eq p.marks id T

@[simp] theorem list_setMark (p : Phone κ) (id : κ) (m : Mark) :
    (p.setMark id m).list = p.list := rfl

@[simp] theorem list_dropMark (p : Phone κ) (id : κ) : (p.dropMark id).list = p.list := rfl

@[simp] theorem gate_setMark (p : Phone κ) (id : κ) (m : Mark) :
    (p.setMark id m).gate = p.gate := rfl

@[simp] theorem mark_queue (p : Phone κ) (i : OutboxItem κ) : (p.queue i).mark T = p.mark T := rfl

@[simp] theorem mark_takeBatch (p : Phone κ) : p.takeBatch.mark T = p.mark T := by
  unfold takeBatch
  split_ifs <;> rfl

omit [DecidableEq κ] in
@[simp] theorem list_takeBatch (p : Phone κ) : p.takeBatch.list = p.list := by
  unfold takeBatch
  split_ifs <;> rfl

@[simp] theorem mark_sync (p : Phone κ) : p.sync.mark T = p.mark T := by
  unfold sync
  split
  · rfl
  · exact mark_takeBatch p

omit [DecidableEq κ] in
@[simp] theorem list_sync (p : Phone κ) : p.sync.list = p.list := by
  unfold sync
  split
  · rfl
  · exact list_takeBatch p

@[simp] theorem mark_resume (p : Phone κ) : p.resume.mark T = p.mark T := by
  unfold resume
  split
  · exact mark_takeBatch _
  · rfl

omit [DecidableEq κ] in
@[simp] theorem list_resume (p : Phone κ) : p.resume.list = p.list := by
  unfold resume
  split
  · exact list_takeBatch _
  · rfl

@[simp] theorem mark_sendBatch (p : Phone κ) : p.sendBatch.mark T = p.mark T := by
  unfold sendBatch
  split <;> rfl

omit [DecidableEq κ] in
@[simp] theorem list_sendBatch (p : Phone κ) : p.sendBatch.list = p.list := by
  unfold sendBatch
  split <;> rfl

@[simp] theorem mark_batchRemoved (p : Phone κ) : p.batchRemoved.mark T = p.mark T := by
  unfold batchRemoved
  split
  · split_ifs
    · exact mark_takeBatch p
    · rfl
  · rfl

omit [DecidableEq κ] in
@[simp] theorem list_batchRemoved (p : Phone κ) : p.batchRemoved.list = p.list := by
  unfold batchRemoved
  split
  · split_ifs
    · exact list_takeBatch p
    · rfl
  · rfl

end Marks

section Adopt

/-- A scan that let `T` in waits in the outbox. -/
def UnsentAdmit (p : Phone κ) (T : κ) : Prop :=
  ∃ i ∈ p.outbox, i.ticketId = some T ∧ i.verdict = .admitted

theorem foldl_keepUnsent_list : ∀ (l : List (OutboxItem κ)) (p : Phone κ),
    (l.foldl keepUnsent p).list = p.list
  | [], _ => rfl
  | i :: l, p => by
    rw [List.foldl_cons, foldl_keepUnsent_list l]
    unfold keepUnsent
    split
    · split_ifs <;> rfl
    · rfl

theorem foldl_dropMark (es : List (Sigma fun _ : κ => Mark)) (p : Phone κ) :
    (es.foldl (fun p e => p.dropMark e.1) p).mark T =
      if T ∈ es.map (·.1) then none else p.mark T := by
  induction es generalizing p with
  | nil => rfl
  | cons e es ih =>
    rw [List.foldl_cons, ih, mark_dropMark, List.map_cons]
    by_cases hmem : T ∈ es.map (·.1)
    · rw [if_pos hmem, if_pos (List.mem_cons_of_mem _ hmem)]
    · rw [if_neg hmem]
      by_cases heq : T = e.1
      · rw [if_pos heq, if_pos (heq ▸ List.mem_cons_self)]
      · rw [if_neg heq, if_neg (by simp [heq, hmem])]

theorem foldl_dropMark_rest (es : List (Sigma fun _ : κ => Mark)) (p : Phone κ) :
    (es.foldl (fun p e => p.dropMark e.1) p).outbox = p.outbox ∧
      (es.foldl (fun p e => p.dropMark e.1) p).list = p.list := by
  induction es generalizing p with
  | nil => exact ⟨rfl, rfl⟩
  | cons e es ih => exact ih (p.dropMark e.1)

/-- An unsent admit of `T` marks it, whatever the list. -/
theorem foldl_keepUnsent_mark : ∀ (l : List (OutboxItem κ)) (p : Phone κ),
    ((∃ i ∈ l, i.ticketId = some T ∧ i.verdict = .admitted) ∧
        ∃ m, (l.foldl keepUnsent p).mark T = some m ∧ m.isUnsent = true) ∨
      ((∀ i ∈ l, i.ticketId = some T → i.verdict ≠ .admitted) ∧
        (l.foldl keepUnsent p).mark T = p.mark T)
  | [], p => .inr ⟨by simp, rfl⟩
  | i :: l, p => by
    rw [List.foldl_cons]
    rcases foldl_keepUnsent_mark l (p.keepUnsent i) with ⟨⟨j, hj, hadmit⟩, hmark⟩ | ⟨hnone, hmark⟩
    · exact .inl ⟨⟨j, List.mem_cons_of_mem _ hj, hadmit⟩, hmark⟩
    · rw [hmark]
      by_cases hi : i.ticketId = some T ∧ i.verdict = .admitted
      · refine .inl ⟨⟨i, List.mem_cons_self, hi⟩, p.ownMark i.scannedAt, ?_, rfl⟩
        unfold keepUnsent
        rw [hi.1, hi.2]
        exact (mark_setMark p T T _).trans (if_pos rfl)
      · refine .inr ⟨fun j hj hticket hverdict => ?_, ?_⟩
        · rcases List.mem_cons.1 hj with rfl | hj
          · exact hi ⟨hticket, hverdict⟩
          · exact hnone j hj hticket hverdict
        · unfold keepUnsent
          split
          next id hid =>
            split_ifs with hadmit
            · rw [mark_setMark, if_neg]
              rintro rfl
              exact hi ⟨hid, by simpa using hadmit⟩
            · rfl
          next => rfl

@[simp] theorem list_adopt (p : Phone κ) (l : OfflineList κ) : (p.adopt l).list = some l := by
  unfold adopt
  dsimp only
  rw [foldl_keepUnsent_list]
  exact (foldl_dropMark_rest _ { p with list := some l }).2

/-- The new list drops the mark it covers, and an unsent admit stays. -/
theorem mark_adopt (p : Phone κ) (l : OfflineList κ) (T : κ) :
    (p.UnsentAdmit T ∧ ∃ m, (p.adopt l).mark T = some m ∧ m.isUnsent = true) ∨
      (¬ p.UnsentAdmit T ∧ (p.adopt l).mark T =
        if (p.mark T).any (fun m => listCovers m.knownSince l.serverTime) then none
        else p.mark T) := by
  have hdrop := foldl_dropMark (T := T)
    (p.marks.entries.filter fun e => listCovers e.2.knownSince l.serverTime)
    { p with list := some l }
  have hrest := foldl_dropMark_rest
    (p.marks.entries.filter fun e => listCovers e.2.knownSince l.serverTime)
    { p with list := some l }
  have hmem : (T ∈ (p.marks.entries.filter fun e =>
      listCovers e.2.knownSince l.serverTime).map (·.1)) ↔
        (p.mark T).any (fun m => listCovers m.knownSince l.serverTime) = true := by
    simp only [List.mem_map, List.mem_filter, Option.any_eq_true]
    constructor
    · rintro ⟨⟨id, m⟩, ⟨hm, hcovers⟩, rfl⟩
      exact ⟨m, AList.mem_lookup_iff.2 hm, hcovers⟩
    · rintro ⟨m, hm, hcovers⟩
      exact ⟨⟨T, m⟩, ⟨AList.mem_lookup_iff.1 hm, hcovers⟩, rfl⟩
  unfold adopt
  dsimp only
  rw [hrest.1]
  rcases foldl_keepUnsent_mark (T := T) p.outbox _ with ⟨hunsent, hmark⟩ | ⟨hnone, hmark⟩
  · exact .inl ⟨hunsent, hmark⟩
  · have hnot : ¬ p.UnsentAdmit T := by
      rintro ⟨i, hi, hticket, hverdict⟩
      exact hnone i hi hticket hverdict
    refine .inr ⟨hnot, ?_⟩
    rw [hmark, hdrop]
    simp only [hmem]
    rfl

end Adopt

section List

omit [DecidableEq κ] in
theorem list_foldl {β : Type} {f : Phone κ → β → Phone κ} (hf : ∀ p b, (f p b).list = p.list) :
    ∀ (bs : List β) (p : Phone κ), (bs.foldl f p).list = p.list
  | [], _ => rfl
  | b :: bs, p => (list_foldl hf bs (f p b)).trans (hf p b)

@[simp] theorem list_answer (p : Phone κ) (r : Read κ) (method : ScanMethod)
    (supersedes : Option Id) (scanId : Id) :
    (p.answer r method supersedes scanId).1.list = p.list := by
  unfold answer
  split
  · dsimp only
    split_ifs <;> rfl
  · rfl

@[simp] theorem list_learn (p : Phone κ) (now : Time) (id : κ) (result : ScanResult) :
    (p.learn now id result).1.list = p.list := by
  unfold learn
  split_ifs <;> rfl

@[simp] theorem list_settleEarly (p : Phone κ) (now : Time) (id : κ) (result : ScanResult) :
    (p.settleEarly now id result).1.list = p.list := by
  unfold settleEarly
  split_ifs
  · split <;> rfl
  · rfl
  · rfl

theorem list_learnCheckIn (now : Time) (p : Phone κ) (row : WireCheckIn κ) :
    (p.learnCheckIn now row).list = p.list := by
  unfold learnCheckIn
  split_ifs <;> rfl

theorem list_learnRelayRow (now : Time) (p : Phone κ) (row : RelayRow κ) :
    (p.learnRelayRow now row).list = p.list := by
  unfold learnRelayRow
  split_ifs
  · rfl
  · split <;> rfl

@[simp] theorem list_learnRelayUndo (p : Phone κ) (id : κ) (undo : RelayUndo) :
    (p.learnRelayUndo id undo).1.list = p.list := by
  unfold learnRelayUndo
  split_ifs
  · rfl
  · split <;> rfl

@[simp] theorem list_undo (p : Phone κ) (now : Time) (scanId : Id) :
    (p.undo now scanId).1.list = p.list := by
  unfold undo
  dsimp only
  split
  · rfl
  · split_ifs
    · rfl
    · split <;> rfl

theorem list_nowKnown (now : Time) (p : Phone κ) (i : OutboxItem κ) :
    (p.nowKnown now i).list = p.list := by
  unfold nowKnown
  split
  · split
    · split_ifs <;> rfl
    · rfl
  · rfl

@[simp] theorem list_batchReply (p : Phone κ) (now : Time) (reply : SyncReply) :
    (p.batchReply now reply).list = p.list := by
  unfold batchReply
  split
  · cases reply with
    | ok => exact list_foldl (list_nowKnown now) _ _
    | refused => rfl
    | unheard => rfl
  · rfl

/-- Only a download changes the list. -/
theorem list_step (p : Phone κ) (e : PhoneEvent κ) :
    (p.step e).1.list = p.list ∨ ∃ l, e = .list l ∧ (p.step e).1.list = some l := by
  cases e with
  | list l => exact .inr ⟨l, rfl, list_adopt p l⟩
  | answer r method supersedes scanId => exact .inl (list_answer p r method supersedes scanId)
  | learn now id result => exact .inl (list_learn p now id result)
  | settleEarly now id result => exact .inl (list_settleEarly p now id result)
  | checkIns now rows => exact .inl (list_foldl (list_learnCheckIn now) rows p)
  | relayRows now rows => exact .inl (list_foldl (list_learnRelayRow now) rows p)
  | relayUndo id undo => exact .inl (list_learnRelayUndo p id undo)
  | undo now scanId => exact .inl (list_undo p now scanId)
  | sync => exact .inl (list_sync p)
  | resume => exact .inl (list_resume p)
  | sendBatch => exact .inl (list_sendBatch p)
  | batchReply now reply => exact .inl (list_batchReply p now reply)
  | batchRemoved => exact .inl (list_batchRemoved p)
  | admitEarly now id => exact .inl rfl
  | queueEarlyAdmit now r method supersedes scanId => exact .inl rfl

end List

end Phone

end EchoAndAura
