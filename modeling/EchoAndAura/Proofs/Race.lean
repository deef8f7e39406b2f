import EchoAndAura.Scanner
import EchoAndAura.Stepwise
import EchoAndAura.Proofs.Marks

/-!
# The early admission

A scan that races the server is judged before the wait.  What it was judged by still holds when the
ADMIT is shown if nothing the phone hears between that scan's read and the showing says that the
ticket is in (`early_admission_clear`), and one relay row is enough to break it.
-/

namespace EchoAndAura

variable {κ : Type} [DecidableEq κ] {p : Phone κ} {T : κ}

/-- The list says that the ticket is in or cancelled. -/
def OfflineList.Says (l : OfflineList κ) (T : κ) : Prop :=
  ∃ e ∈ l.entries, e.id = T ∧ (e.status = .cancelled ∨ e.inAt.isSome)

/-- Nothing the phone holds says that the ticket is in or cancelled. -/
structure Phone.Clear (p : Phone κ) (T : κ) : Prop where
  mark : p.mark T = none
  list : ∀ l, p.list = some l → ¬ l.Says T

/-- What the stretch brings says that the ticket is in or cancelled. -/
def PhoneEvent.TellsIn (p : Phone κ) (T : κ) : PhoneEvent κ → Prop
  | .list l => l.Says T ∨ p.UnsentAdmit T
  | .answer r _ _ _ => r.entry.map (·.id) = some T ∧ (p.judge r).verdict = .admitted
  | .learn _ id result => id = T ∧ p.list.isSome ∧
      (result.result = .logged .admitted ∨ result.result = .logged .alreadyIn)
  | .admitEarly _ id => id = T
  | .settleEarly _ id result => id = T ∧ result.result = .logged .alreadyIn
  | .checkIns _ rows => p.onList T ∧ ∃ row ∈ rows, row.ticketId = T
  | .relayRows _ rows => p.onList T ∧ ∃ row ∈ rows, row.ticketId = T
  | _ => False

section Step

theorem learnCheckIn_mark (now : Time) (p : Phone κ) (row : WireCheckIn κ) :
    (p.learnCheckIn now row).mark T = none ↔
      p.mark T = none ∧ ¬ (p.onList T ∧ row.ticketId = T) := by
  unfold Phone.learnCheckIn
  by_cases hid : row.ticketId = T
  · subst hid
    split_ifs with hlist hsource
    · simp at hlist
      simp [hlist]
    · obtain ⟨m, hm, -⟩ := (Option.any_eq_true _ _).1 hsource
      simp [hm]
    · simp at hlist
      simp [hlist, Phone.mark_setMark]
  · split_ifs with hlist hsource
    · simp [hid]
    · simp [hid]
    · simp [hid, Phone.mark_setMark, Ne.symm hid]

theorem learnRelayRow_mark (now : Time) (p : Phone κ) (row : RelayRow κ) :
    (p.learnRelayRow now row).mark T = none ↔
      p.mark T = none ∧ ¬ (p.onList T ∧ row.ticketId = T) := by
  unfold Phone.learnRelayRow
  by_cases hid : row.ticketId = T
  · subst hid
    split_ifs with hlist
    · simp at hlist
      simp [hlist]
    · simp at hlist
      rcases hmark : p.mark row.ticketId with _ | m
      · simp [markFromRelay, hlist, Phone.mark_setMark]
      · split
        · simp [Phone.mark_setMark]
        · simp [hmark]
  · split_ifs with hlist
    · simp [hid]
    · split
      · simp [hid, Phone.mark_setMark, Ne.symm hid]
      · simp [hid]

/-- Rows learnt one after another bring a mark if one of them is the ticket's. -/
theorem foldl_learn {β : Type} {f : Phone κ → β → Phone κ} (ticketId : β → κ)
    (hlist : ∀ p row, (f p row).list = p.list)
    (hmark : ∀ p row, (f p row).mark T = none ↔
      p.mark T = none ∧ ¬ (p.onList T ∧ ticketId row = T)) :
    ∀ (rows : List β) (p : Phone κ), (rows.foldl f p).mark T = none ↔
      p.mark T = none ∧ ¬ (p.onList T ∧ ∃ row ∈ rows, ticketId row = T)
  | [], p => by simp
  | row :: rows, p => by
    have honList : (f p row).onList T = p.onList T := by
      unfold Phone.onList
      rw [hlist]
    rw [List.foldl_cons, foldl_learn ticketId hlist hmark rows, hmark, honList]
    simp only [List.mem_cons, exists_eq_or_imp]
    rw [and_assoc, ← not_or, ← and_or_left]

theorem nowKnown_mark (now : Time) (p : Phone κ) (i : OutboxItem κ) :
    (p.nowKnown now i).mark T = none ↔ p.mark T = none := by
  unfold Phone.nowKnown
  split
  · split
    next id _ m hm =>
      split_ifs
      · rw [Phone.mark_setMark]
        split_ifs with heq
        · subst heq
          simp [hm]
        · rfl
      · rfl
    · rfl
  · rfl

theorem foldl_nowKnown (now : Time) : ∀ (batch : List (OutboxItem κ)) (p : Phone κ),
    (batch.foldl (Phone.nowKnown now) p).mark T = none ↔ p.mark T = none
  | [], _ => Iff.rfl
  | i :: batch, p => (foldl_nowKnown now batch (p.nowKnown now i)).trans (nowKnown_mark now p i)

theorem Phone.Clear.iff (h : p.Clear T) (p' : Phone κ) (hlist : p'.list = p.list) :
    p'.Clear T ↔ p'.mark T = none :=
  ⟨fun h' => h'.mark, fun hmark => ⟨hmark, fun l hl => h.list l (hlist ▸ hl)⟩⟩

theorem answer_mark (r : Read κ) (method : ScanMethod) (supersedes : Option Id) (scanId : Id)
    (h : p.mark T = none) : (p.answer r method supersedes scanId).1.mark T = none ↔
      ¬ (r.entry.map (·.id) = some T ∧ (p.judge r).verdict = .admitted) := by
  unfold Phone.answer
  rcases r.entry with _ | e
  · simp [h]
  · dsimp only
    by_cases hverdict : (p.judge r).verdict = .admitted
    · rw [if_pos (by simpa using hverdict), Phone.mark_queue, Phone.mark_setMark]
      by_cases hid : T = e.id
      · simp [hid, hverdict]
      · simp [hid, hverdict, h, Ne.symm hid]
    · rw [if_neg (by simpa using hverdict)]
      simp [h, hverdict]

theorem learn_mark (now : Time) (id : κ) (result : ScanResult) (h : p.mark T = none) :
    (p.learn now id result).1.mark T = none ↔ ¬ (id = T ∧ p.list.isSome ∧
      (result.result = .logged .admitted ∨ result.result = .logged .alreadyIn)) := by
  unfold Phone.learn
  by_cases hid : id = T
  · subst hid
    split_ifs with hlist hresult hsource
    · simp at hlist
      simp [hlist, h]
    · simp [h, hresult]
    · rw [h] at hsource
      cases hsource
    all_goals
      simp only [Option.isNone_iff_eq_none] at hlist
      rw [← ne_eq, Option.ne_none_iff_isSome] at hlist
      simp only [not_and_or, not_not] at hresult
      simp [Phone.mark_setMark, hlist, hresult]
  · have hid' : T ≠ id := Ne.symm hid
    split_ifs <;> simp [Phone.mark_setMark, hid, hid', h]

theorem settleEarly_mark (now : Time) (id : κ) (result : ScanResult) (h : p.mark T = none) :
    (p.settleEarly now id result).1.mark T = none ↔
      ¬ (id = T ∧ result.result = .logged .alreadyIn) := by
  unfold Phone.settleEarly
  by_cases hid : id = T
  · subst hid
    split_ifs with hadmitted halready
    · simp [h, hadmitted]
    · simp [Phone.mark_setMark, halready]
    · simp [Phone.mark_dropMark, halready]
  · have hid' : T ≠ id := Ne.symm hid
    split_ifs with hadmitted halready
    · split <;> simp [Phone.mark_setMark, hid, hid', h]
    · simp [Phone.mark_setMark, hid, hid', h]
    · simp [Phone.mark_dropMark, hid, hid', h]

theorem learnRelayUndo_mark (id : κ) (undo : RelayUndo) (h : p.mark T = none) :
    (p.learnRelayUndo id undo).1.mark T = none := by
  unfold Phone.learnRelayUndo
  split_ifs
  · rw [Phone.mark_dropMark]
    simp [h]
  · split <;> exact h

theorem undo_mark (now : Time) (scanId : Id) (h : p.mark T = none) :
    (p.undo now scanId).1.mark T = none := by
  unfold Phone.undo
  dsimp only
  split
  · exact h
  · split_ifs
    · exact h
    · split
      · rw [Phone.mark_dropMark]
        split_ifs
        · rfl
        · exact h
      · exact h

theorem batchReply_mark (now : Time) (reply : Phone.SyncReply) (h : p.mark T = none) :
    (p.batchReply now reply).mark T = none := by
  unfold Phone.batchReply
  split
  next batch _ =>
    cases reply with
    | ok => exact (foldl_nowKnown now batch _).2 h
    | refused => exact h
    | unheard => exact h
  · exact h

/-- But for a list, a stretch marks the ticket exactly when it tells the phone. -/
theorem step_mark (h : p.mark T = none) : ∀ e : PhoneEvent κ, (∀ l, e ≠ .list l) →
    ((p.step e).1.mark T = none ↔ ¬ e.TellsIn p T)
  | .list l, hlist => absurd rfl (hlist l)
  | .answer r method supersedes scanId, _ => answer_mark r method supersedes scanId h
  | .learn now id result, _ => learn_mark now id result h
  | .admitEarly now id, _ => by
    simp only [Phone.step, Phone.admitEarly, Phone.mark_setMark, PhoneEvent.TellsIn]
    split_ifs with hid
    · simp [hid]
    · simp [h, Ne.symm hid]
  | .settleEarly now id result, _ => settleEarly_mark now id result h
  | .queueEarlyAdmit now r method supersedes scanId, _ => by
    simp [Phone.step, PhoneEvent.TellsIn, Phone.queueEarlyAdmit, h]
  | .checkIns now rows, _ => by
    have hmark := foldl_learn (T := T) (·.ticketId) (Phone.list_learnCheckIn now)
      (learnCheckIn_mark now) rows p
    exact hmark.trans (by simp [h, PhoneEvent.TellsIn])
  | .relayRows now rows, _ => by
    have hmark := foldl_learn (T := T) (·.ticketId) (Phone.list_learnRelayRow now)
      (learnRelayRow_mark now) rows p
    exact hmark.trans (by simp [h, PhoneEvent.TellsIn])
  | .relayUndo id undo, _ => by
    simp [Phone.step, learnRelayUndo_mark id undo h, PhoneEvent.TellsIn]
  | .undo now scanId, _ => by simp [Phone.step, undo_mark now scanId h, PhoneEvent.TellsIn]
  | .batchReply now reply, _ => by
    simp [Phone.step, batchReply_mark now reply h, PhoneEvent.TellsIn]
  | .sync, _ => by simp [Phone.step, PhoneEvent.TellsIn, h]
  | .resume, _ => by simp [Phone.step, PhoneEvent.TellsIn, h]
  | .sendBatch, _ => by simp [Phone.step, PhoneEvent.TellsIn, h]
  | .batchRemoved, _ => by simp [Phone.step, PhoneEvent.TellsIn, h]

/-- A stretch breaks it exactly when it tells the phone. -/
theorem clear_step (h : p.Clear T) (e : PhoneEvent κ) :
    (p.step e).1.Clear T ↔ ¬ e.TellsIn p T := by
  have hmark := step_mark h.mark e
  cases e with
  | list l =>
    have hmark := Phone.mark_adopt p l T
    rw [h.mark] at hmark
    simp only [PhoneEvent.TellsIn, not_or]
    constructor
    · intro hclear
      refine ⟨hclear.list l (Phone.list_adopt p l), fun hunsent => ?_⟩
      rcases hmark with ⟨-, m, hm, -⟩ | ⟨hnot, -⟩
      · have hnone : (p.adopt l).mark T = none := hclear.mark
        rw [hm] at hnone
        cases hnone
      · exact hnot hunsent
    · rintro ⟨hstate, hunsent⟩
      rcases hmark with ⟨hnot, -⟩ | ⟨-, hm⟩
      · exact absurd hnot hunsent
      · refine ⟨hm.trans (by simp), fun l' hl' => ?_⟩
        have heq := (Phone.list_adopt p l).symm.trans hl'
        rw [← Option.some.inj heq]
        exact hstate
  | answer r method supersedes scanId =>
    exact (h.iff _ (Phone.list_answer p r method supersedes scanId)).trans (hmark (by simp))
  | learn now id result =>
    exact (h.iff _ (Phone.list_learn p now id result)).trans (hmark (by simp))
  | admitEarly now id => exact (h.iff (p.admitEarly now id).1 rfl).trans (hmark (by simp))
  | settleEarly now id result =>
    exact (h.iff _ (Phone.list_settleEarly p now id result)).trans (hmark (by simp))
  | queueEarlyAdmit now r method supersedes scanId =>
    exact (h.iff (p.queueEarlyAdmit now r method supersedes scanId) rfl).trans (hmark (by simp))
  | checkIns now rows =>
    exact (h.iff _ (Phone.list_foldl (Phone.list_learnCheckIn now) rows p)).trans (hmark (by simp))
  | relayRows now rows =>
    exact (h.iff _ (Phone.list_foldl (Phone.list_learnRelayRow now) rows p)).trans (hmark (by simp))
  | relayUndo id undo =>
    exact (h.iff _ (Phone.list_learnRelayUndo p id undo)).trans (hmark (by simp))
  | undo now scanId => exact (h.iff _ (Phone.list_undo p now scanId)).trans (hmark (by simp))
  | batchReply now reply =>
    exact (h.iff _ (Phone.list_batchReply p now reply)).trans (hmark (by simp))
  | sync => exact (h.iff p.sync (Phone.list_sync p)).trans (hmark (by simp))
  | resume => exact (h.iff p.resume (Phone.list_resume p)).trans (hmark (by simp))
  | sendBatch => exact (h.iff p.sendBatch (Phone.list_sendBatch p)).trans (hmark (by simp))
  | batchRemoved =>
    exact (h.iff p.batchRemoved (Phone.list_batchRemoved p)).trans (hmark (by simp))

end Step

section Wait

variable {digest : String → String → String}

/-- While a scan is peeked at or waits, nothing says that its ticket is in or cancelled; before the
list's answer is judged only a new list counts. -/
def ScannerEvent.Quiet (s : Scanner κ) : ScannerEvent κ → Prop
  | .phone e =>
    match s.stage with
    | .racing T => ¬ e.TellsIn s.phone T
    | .peeking r => ∀ l entry, e = .list l → r.entry = some entry → ¬ l.Says entry.id
    | _ => True
  | _ => True

def QuietRun (digest : String → String → String) :
    Scanner κ → List (ScannerEvent κ) → Prop :=
  EveryStep (fun s e => (s.step digest e).1) fun s e => e.Quiet s

/-- An entry that the list judges out of hand. -/
def OfflineEntry.Out (e : OfflineEntry κ) : Prop := e.status = .cancelled ∨ e.inAt.isSome

/-- What the scan in progress was judged by still holds. -/
structure StageHolds (s : Scanner κ) : Prop where
  fit : ∀ l, s.phone.list = some l → (l.entries.map (·.id)).Nodup
  peeking : ∀ r, s.stage = .peeking r → ∀ entry, r.entry = some entry → ¬ entry.Out →
    ∀ l, s.phone.list = some l → ¬ l.Says entry.id
  racing : ∀ T, s.stage = .racing T → s.phone.Clear T

omit [DecidableEq κ] in
theorem index_mem {l : OfflineList κ} {d : String} {e : OfflineEntry κ} (h : l.index d = some e) :
    e ∈ l.entries :=
  List.mem_reverse.1 (List.mem_of_find?_eq_some h)

omit [DecidableEq κ] in
theorem not_says {l : OfflineList κ} (hl : (l.entries.map (·.id)).Nodup) {e : OfflineEntry κ}
    (he : e ∈ l.entries) (hout : ¬ e.Out) : ¬ l.Says e.id := by
  rintro ⟨e', he', hid, hstate⟩
  rw [List.inj_on_of_nodup_map hl he' he hid] at hstate
  exact hout hstate

theorem judge_admitted {r : Read κ} (h : (p.judge r).result = .admitted) :
    ∃ e, r.entry = some e ∧ ¬ e.Out ∧ p.mark e.id = none := by
  obtain ⟨hknown, -, e, hentry, hstatus, hin⟩ := judgeOffline_admitted.1 h
  refine ⟨e, hentry, ?_, ?_⟩
  · rintro (hcancelled | hsome)
    · exact hstatus hcancelled
    · rw [hin] at hsome
      cases hsome
  · rw [hentry] at hknown
    simpa using hknown

omit [DecidableEq κ] in
theorem read_entry {now : Time} {raw : String} {r : Read κ}
    (h : p.read digest now raw = some r) {e : OfflineEntry κ} (he : r.entry = some e) :
    ∃ l, p.list = some l ∧ e ∈ l.entries := by
  unfold Phone.read at h
  rcases hlist : p.list with _ | l
  · simp [hlist] at h
  · simp only [hlist] at h
    split_ifs at h
    rw [← Option.some.inj h] at he
    obtain ⟨code, -, hindex⟩ := Option.bind_eq_some_iff.1 he
    exact ⟨l, rfl, index_mem hindex⟩

/-- The stages that keep nothing of a scan. -/
theorem stage_free {s s' : Scanner κ} (h : StageHolds s) (hlist : s'.phone.list = s.phone.list)
    (hpeeking : ∀ r, s'.stage ≠ .peeking r) (hracing : ∀ T, s'.stage ≠ .racing T) :
    StageHolds s' where
  fit l hl := h.fit l (hlist ▸ hl)
  peeking r hr := absurd hr (hpeeking r)
  racing T hT := absurd hT (hracing T)

theorem stage_phone {s : Scanner κ} (h : StageHolds s) {e : PhoneEvent κ}
    (hquiet : (ScannerEvent.phone e).Quiet s)
    (hfit : ∀ l, e = .list l → (l.entries.map (·.id)).Nodup) :
    StageHolds { s with phone := (s.phone.step e).1 } := by
  constructor
  case fit =>
    intro l hl
    rcases Phone.list_step s.phone e with hlist | ⟨l', he, hlist⟩
    · exact h.fit l (hlist ▸ hl)
    · have heq := hlist.symm.trans hl
      rw [← Option.some.inj heq]
      exact hfit l' he
  case peeking =>
    intro r hr entry hentry hout l hl
    have hr : s.stage = .peeking r := hr
    rcases Phone.list_step s.phone e with hlist | ⟨l', he, hlist⟩
    · exact h.peeking r hr entry hentry hout l (hlist ▸ hl)
    · have heq := hlist.symm.trans hl
      rw [← Option.some.inj heq]
      simp only [ScannerEvent.Quiet, hr] at hquiet
      exact hquiet l' entry he hentry
  case racing =>
    intro T hT
    have hT : s.stage = .racing T := hT
    simp only [ScannerEvent.Quiet, hT] at hquiet
    exact (clear_step (h.racing T hT) e).2 hquiet

theorem stage_step (s : Scanner κ) (e : ScannerEvent κ) (h : StageHolds s)
    (he : e.Quiet s ∧ ∀ l, e = .phone (.list l) → (l.entries.map (·.id)).Nodup) :
    StageHolds (s.step digest e).1 := by
  obtain ⟨hquiet, hfit⟩ := he
  cases e with
  | scan now raw =>
    unfold Scanner.step
    dsimp only
    split
    next r _ hread =>
      refine ⟨h.fit, fun r' hr' entry hentry hout l hl => ?_, fun T hT => by cases hT⟩
      cases hr'
      obtain ⟨l', hl', hmem⟩ := read_entry hread hentry
      have heq := hl'.symm.trans hl
      rw [← Option.some.inj heq]
      exact not_says (h.fit l' hl') hmem hout
    next => exact stage_free h rfl (fun _ => nofun) fun _ => nofun
    next => exact h
  | ask =>
    unfold Scanner.step
    dsimp only
    split
    · exact stage_free h rfl (fun _ => nofun) fun _ => nofun
    · exact h
  | peeked =>
    unfold Scanner.step
    dsimp only
    split
    next r hstage =>
      split
      next id hid =>
        refine ⟨h.fit, fun r' hr' => (nomatch hr'), fun T hT => ?_⟩
        cases hT
        unfold Scanner.peeked at hid
        split_ifs at hid with hadmitted
        obtain ⟨entry, hentry, hout, hmark⟩ := judge_admitted hadmitted
        rw [hentry, Option.map_some, Option.some.injEq] at hid
        subst hid
        exact ⟨hmark, h.peeking r hstage entry hentry hout⟩
      next => exact stage_free h rfl (fun _ => nofun) fun _ => nofun
    next => exact h
  | slow now =>
    unfold Scanner.step
    dsimp only
    split
    · exact stage_free h rfl (fun _ => nofun) fun _ => nofun
    · exact h
  | replied =>
    unfold Scanner.step
    dsimp only
    split
    · exact stage_free h rfl (fun _ => nofun) fun _ => nofun
    · exact stage_free h rfl (fun _ => nofun) fun _ => nofun
    · exact h
  | phone e =>
    refine stage_phone h hquiet fun l hl => hfit l ?_
    rw [hl]

/-- Whoever is shown an early ADMIT was waiting for the server. -/
theorem shown_racing {s : Scanner κ} {e : ScannerEvent κ} {T : κ}
    (h : (s.step digest e).2 = some T) : s.stage = .racing T := by
  cases e with
  | slow now =>
    unfold Scanner.step at h
    dsimp only at h
    split at h
    next id hstage =>
      rw [hstage, Option.some.inj h]
    next => cases h
  | phone _ => cases h
  | scan now raw =>
    unfold Scanner.step at h
    dsimp only at h
    split at h <;> cases h
  | peeked =>
    unfold Scanner.step at h
    dsimp only at h
    split at h
    · split at h <;> cases h
    · cases h
  | _ =>
    unfold Scanner.step at h
    dsimp only at h
    split at h <;> cases h

/-- No list the phone holds names a ticket twice. -/
theorem fit_step (s : Scanner κ) (e : ScannerEvent κ)
    (h : ∀ l, s.phone.list = some l → (l.entries.map (·.id)).Nodup)
    (he : ∀ l, e = .phone (.list l) → (l.entries.map (·.id)).Nodup) :
    ∀ l, (s.step digest e).1.phone.list = some l → (l.entries.map (·.id)).Nodup := by
  have same : ∀ s' : Scanner κ, s'.phone.list = s.phone.list →
      ∀ l, s'.phone.list = some l → (l.entries.map (·.id)).Nodup :=
    fun s' hlist l hl => h l (hlist ▸ hl)
  cases e with
  | phone e =>
    intro l hl
    rcases Phone.list_step s.phone e with hlist | ⟨l', hl', hlist⟩
    · exact h l (hlist ▸ hl)
    · have heq := hlist.symm.trans hl
      rw [← Option.some.inj heq]
      exact he l' (by rw [hl'])
  | scan now raw =>
    unfold Scanner.step
    dsimp only
    split <;> exact same _ rfl
  | peeked =>
    unfold Scanner.step
    dsimp only
    split
    · split <;> exact same _ rfl
    · exact same _ rfl
  | _ =>
    unfold Scanner.step
    dsimp only
    split <;> exact same _ rfl

theorem fit_run {s : Scanner κ} {es : List (ScannerEvent κ)}
    (h : ∀ l, s.phone.list = some l → (l.entries.map (·.id)).Nodup)
    (hes : ∀ e ∈ es, ∀ l, e = .phone (.list l) → (l.entries.map (·.id)).Nodup) :
    ∀ l, (s.run digest es).phone.list = some l → (l.entries.map (·.id)).Nodup :=
  EveryStep.keeps fit_step h (.of_forall_mem hes)

/-- A scan that is not raced is not raced later. -/
theorem waiting_step (s : Scanner κ) (e : ScannerEvent κ)
    (h : s.stage = .waiting ∨ s.stage = .idle) (hbusy : s.stage ≠ .idle) :
    (s.step digest e).1.stage = .waiting ∨ (s.step digest e).1.stage = .idle := by
  have hstage : s.stage = .waiting := h.resolve_right hbusy
  cases e <;> simp [Scanner.step, hstage]

/-- A scan begins where none is in progress. -/
theorem idle_step {s : Scanner κ} (h : s.stage = .idle) (e : ScannerEvent κ) :
    (∃ now raw, e = .scan now raw) ∨ (s.step digest e).1.stage = .waiting ∨
      (s.step digest e).1.stage = .idle := by
  cases e with
  | scan now raw => exact .inl ⟨now, raw, rfl⟩
  | _ => simp [Scanner.step, h]

/-- The scan read after `before` is in progress all through `during`. -/
structure InProgress (digest : String → String → String) (s : Scanner κ)
    (before : List (ScannerEvent κ)) (now : Time) (raw : String)
    (during : List (ScannerEvent κ)) : Prop where
  idle : (s.run digest before).stage = .idle
  busy : EveryStep (fun s e => (s.step digest e).1) (fun s _ => s.stage ≠ .idle)
    ((s.run digest before).step digest (.scan now raw)).1 during

/-- The scan that races at the end of a run has its read in the run. -/
theorem exists_inProgress {s : Scanner κ} (hs : s.stage = .idle) {events : List (ScannerEvent κ)}
    {T : κ} (h : (s.run digest events).stage = .racing T) :
    ∃ before now raw during, events = before ++ .scan now raw :: during ∧
      InProgress digest s before now raw during := by
  have hsince := @EveryStep.exists_since (Scanner κ) (ScannerEvent κ)
    (fun s e => (s.step digest e).1) (fun s => s.stage = .idle) s hs events
  have hrun : (events.foldl (fun s e => (s.step digest e).1) s).stage = .racing T := h
  rw [hrun] at hsince
  obtain ⟨before, e, during, rfl, hidle, hbusy⟩ := hsince.resolve_left nofun
  rcases idle_step hidle e with ⟨now, raw, rfl⟩ | hstage
  · exact ⟨before, now, raw, during, rfl, hidle, hbusy⟩
  · have hend := EveryStep.keeps waiting_step hstage hbusy
    rw [List.foldl_append, List.foldl_cons] at hrun
    rw [hrun] at hend
    rcases hend with hend | hend <;> cases hend

/-- When an early ADMIT is shown, the phone holds no mark of its ticket and its list does not say
that the ticket is in or cancelled, if nothing told the phone so since that scan was read. -/
theorem early_admission_clear (passId : Id) (gate : String) (events : List (ScannerEvent κ))
    (hlists : ∀ l, .phone (.list l) ∈ events → (l.entries.map (·.id)).Nodup)
    (hquiet : ∀ before now raw during, events = before ++ .scan now raw :: during →
      InProgress digest (Scanner.start passId gate) before now raw during →
      QuietRun digest (((Scanner.start passId gate).run digest before).step digest
        (.scan now raw)).1 during)
    (e : ScannerEvent κ) (T : κ)
    (hshown : (((Scanner.start passId gate).run digest events).step digest e).2 = some T) :
    ((Scanner.start passId gate).run digest events).phone.Clear T := by
  have hracing := shown_racing hshown
  obtain ⟨before, now, raw, during, rfl, hscan⟩ := exists_inProgress rfl hracing
  have hfit : ∀ es : List (ScannerEvent κ), (∀ e ∈ es, e ∈ before ++ .scan now raw :: during) →
      ∀ e ∈ es, ∀ l, e = .phone (.list l) → (l.entries.map (·.id)).Nodup :=
    fun es hes e he l hl => hlists l (hl ▸ hes e he)
  have hbefore : StageHolds ((Scanner.start passId gate).run digest before) := by
    refine ⟨fit_run (fun l hl => (nomatch hl)) (hfit before fun e he => List.mem_append_left _ he),
      fun r hr => ?_, fun T hT => ?_⟩
    · rw [hscan.idle] at hr
      cases hr
    · rw [hscan.idle] at hT
      cases hT
  have hread : StageHolds (((Scanner.start passId gate).run digest before).step digest
      (.scan now raw)).1 :=
    stage_step _ (.scan now raw) hbefore ⟨trivial, fun l hl => (nomatch hl)⟩
  have hwait := hfit during fun e he => List.mem_append_right _ (List.mem_cons_of_mem _ he)
  have hrun := EveryStep.keeps stage_step hread ((hquiet before now raw during rfl hscan).and
    (.of_forall_mem hwait))
  have heq : (Scanner.start passId gate).run digest (before ++ .scan now raw :: during) =
      during.foldl (fun s e => (s.step digest e).1)
        (((Scanner.start passId gate).run digest before).step digest (.scan now raw)).1 := by
    unfold Scanner.run
    rw [List.foldl_append, List.foldl_cons]
  rw [heq] at hracing ⊢
  exact hrun.racing T hracing

end Wait

section Evening

def plainDigest (salt code : String) : String := salt ++ code

def racedEntry : OfflineEntry Nat where
  d := "TKT-4H8ZP2XQ"
  id := 1
  name := "Guest"
  type := "Standard"
  pos := 1
  of := 1
  status := .issued
  inAt := none
  inBy := none

def racedList : OfflineList Nat where
  eventId := 1
  passId := 1
  salt := ""
  serverTime := 0
  validFrom := 0
  validUntil := 100000
  entries := [racedEntry]

def twoGuests : OfflineList Nat :=
  { racedList with entries := [racedEntry, { racedEntry with d := "TKT-7M2KD9RW", id := 2 }] }

/-- Gate B's admission, as the relay brings it. -/
def rowOfB : RelayRow Nat := ⟨1, 1050, some "B", true⟩

/-- The list is there, the guest's code is read, and the request is out. -/
def raceBegun : List (ScannerEvent Nat) :=
  [.phone (.list racedList), .scan 1000 "TKT-4H8ZP2XQ", .peeked]

theorem quiet_sync (s : Scanner Nat) : (ScannerEvent.phone .sync).Quiet s := by
  unfold ScannerEvent.Quiet
  dsimp only
  split
  · exact id
  · exact fun l entry he => (nomatch he)
  · trivial

theorem raceBegun_lists (e : ScannerEvent Nat) : ∀ l : OfflineList Nat,
    .phone (.list l) ∈ raceBegun ++ [e] → e = .phone (.list l) ∨ (l.entries.map (·.id)).Nodup := by
  intro l hl
  simp only [raceBegun, List.cons_append, List.nil_append, List.mem_cons, List.not_mem_nil,
    ScannerEvent.phone.injEq, PhoneEvent.list.injEq, reduceCtorEq, false_or, or_false] at hl
  rcases hl with rfl | rfl
  · exact .inr (by decide)
  · exact .inl rfl

/-- A guest's race that hears gate B's row of the guest and is decided by the server, and then
another guest's race. -/
def secondRace : List (ScannerEvent Nat) :=
  [.phone (.list twoGuests), .scan 1000 "TKT-4H8ZP2XQ", .peeked, .phone (.relayRows 1100 [rowOfB]),
    .replied, .scan 2000 "TKT-7M2KD9RW", .peeked, .phone .sync]

theorem early_admission_clear_second :
    ((Scanner.start 1 "A").run plainDigest secondRace).phone.Clear 2 := by
  refine early_admission_clear 1 "A" secondRace (fun l hl => ?_)
    (fun before now raw during h hscan => ?_) (.slow 2400) 2 (by decide +kernel)
  · simp [secondRace] at hl
    subst hl
    decide
  · simp [secondRace, List.cons_eq_append_iff] at h
    obtain ⟨_, rfl, ⟨rfl, ⟨rfl, rfl⟩, rfl⟩ | ⟨rfl, ⟨rfl, rfl⟩, rfl⟩⟩ := h
    · exact absurd rfl hscan.busy.2.2.2.1
    · exact ⟨trivial, quiet_sync _, trivial⟩

/-- Gate B's row arrives during the wait: the ADMIT is shown all the same. -/
theorem early_admission_overtaken :
    ¬ ∀ (events : List (ScannerEvent Nat)) (e : ScannerEvent Nat) (T : Nat),
      (∀ l, .phone (.list l) ∈ events → (l.entries.map (·.id)).Nodup) →
      (((Scanner.start 1 "A").run plainDigest events).step plainDigest e).2 = some T →
        ((Scanner.start 1 "A").run plainDigest events).phone.Clear T := by
  intro h
  have hclear := h (raceBegun ++ [.phone (.relayRows 1100 [rowOfB])]) (.slow 1400) 1
    (fun l hl => by
      rcases raceBegun_lists _ l hl with he | hnodup
      · cases he
      · exact hnodup)
    (by decide +kernel)
  have hmark : (((Scanner.start 1 "A").run plainDigest
      (raceBegun ++ [.phone (.relayRows 1100 [rowOfB])])).phone.mark 1).isSome = true := by
    decide +kernel
  rw [hclear.mark] at hmark
  cases hmark

end Evening

end EchoAndAura
