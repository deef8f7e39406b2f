import EchoAndAura.Proofs.Marks
import EchoAndAura.Stepwise

/-!
# What a new list may forget

A mark is dropped by a list read more than the grace after `knownSince`.  That never forgets an
arrival which the phone was told of, as long as its mark is from that arrival or later
(`Mark.Current`): each telling is taken up, and nothing about an earlier arrival writes over the
mark (`Heeded`).  A mark that a later arrival leaves as it was breaks it
(`adopt_forgets`).
-/

namespace EchoAndAura

variable {κ : Type}

/-- A check-in of one ticket, or a gate's claim of it: when the server had it, if it ever does. -/
structure Arrival where
  id : Nat
  had : Option Time
  deriving DecidableEq, Repr

/-- By the phone's clock the server has it, give or take the grace. -/
def Arrival.HadBy (c : Arrival) (now : Time) : Prop := ∃ h, c.had = some h ∧ h ≤ now + markGraceMs

/-- The list was read before the server had it. -/
def Arrival.After (c : Arrival) (l : OfflineList κ) : Prop := ∀ h, c.had = some h → l.serverTime < h

/-- No list read before the server had the arrival covers the mark. -/
def Mark.Current (c : Arrival) (m : Mark) : Prop := ∀ k, m.knownSince = some k → c.HadBy k

/-- The phone's list was read when the server had it. -/
def Arrival.Covered (c : Arrival) (list : Option (OfflineList κ)) : Prop :=
  ∃ l h, list = some l ∧ c.had = some h ∧ h ≤ l.serverTime

/-- An answer that says the ticket is in. -/
def ScanResult.SaysIn (result : ScanResult) : Prop :=
  result.result = .logged .admitted ∨ result.result = .logged .alreadyIn

variable [DecidableEq κ]

/-- The stretch tells the phone that `T` arrived, and what says that the server has it comes when
the server has it. -/
def PhoneEvent.Delivers (p : Phone κ) (T : κ) (c : Arrival) : PhoneEvent κ → Prop
  | .answer r _ _ _ => r.entry.map (·.id) = some T ∧ (p.judge r).verdict = .admitted
  | .admitEarly _ id => id = T
  | .learn now id result => id = T ∧ p.list.isSome ∧ result.SaysIn ∧ c.HadBy now
  | .settleEarly now id result => id = T ∧ result.SaysIn ∧ c.HadBy now
  | .checkIns now rows => p.onList T ∧ (∃ row ∈ rows, row.ticketId = T) ∧ c.HadBy now
  | .relayRows now rows => p.onList T ∧ (∃ row ∈ rows, row.ticketId = T) ∧
      ∀ row ∈ rows, row.ticketId = T → row.confirmed → c.HadBy now
  | _ => False

/-- The telling finds no mark that it leaves in place and that is older than the arrival. -/
def PhoneEvent.Takes (p : Phone κ) (T : κ) (c : Arrival) : PhoneEvent κ → Prop
  | .settleEarly _ _ result => result.result = .logged .admitted → (p.mark T).isSome
  | .relayRows _ _ => ∀ m, p.mark T = some m → m.isClaim ∨ m.Current c
  | .learn _ _ _ => ∀ m, p.mark T = some m → m.source = .relay ∨ m.Current c
  | .checkIns _ _ => ∀ m, p.mark T = some m → m.source = .relay ∨ m.Current c
  | _ => True

/-- The stretch neither drops the mark of `T` nor stamps it while the server does not have `c`. -/
def PhoneEvent.Leaves (p : Phone κ) (T : κ) (c : Arrival) : PhoneEvent κ → Prop
  | .learn now id result => id = T → result.SaysIn → (p.mark T).any (·.source = .relay) →
      c.HadBy now
  | .settleEarly now id result => id = T → result.SaysIn ∧ c.HadBy now
  | .checkIns now rows => (∃ row ∈ rows, row.ticketId = T) → (p.mark T).any (·.source = .relay) →
      c.HadBy now
  | .relayRows now rows => ∀ row ∈ rows, row.ticketId = T → row.confirmed →
      (p.mark T).any (·.isClaim) → c.HadBy now
  | .relayUndo id u => id = T → relayUndoRemoves (p.mark T) u = false
  | .undo now scanId => ∀ i, p.outbox.find? (·.scanId == scanId) = some i → i.ticketId = some T →
      localUndo (some i) now (p.inFlight.contains scanId) ≠ .done
  | .batchReply now reply => reply = .ok → ∀ batch, p.running = some (.inFlight batch) →
      (∃ i ∈ batch, i.ticketId = some T) → (p.mark T).any (·.knownSince.isNone) → c.HadBy now
  | _ => True

section Marks

variable {p : Phone κ} {T : κ} {c : Arrival}

/-- The phone marks `T`, and no list read before the server had the arrival covers the mark. -/
def Phone.Holds (p : Phone κ) (T : κ) (c : Arrival) : Prop := ∃ m, p.mark T = some m ∧ m.Current c

omit [DecidableEq κ] in
theorem current_of_none {m : Mark} (h : m.knownSince = none) : m.Current c := by
  intro k hk
  rw [h] at hk
  cases hk

theorem current_of_hadBy {m : Mark} {now : Time} (h : m.knownSince = some now) (hc : c.HadBy now) :
    m.Current c := by
  intro k hk
  rw [← Option.some.inj (h.symm.trans hk)]
  exact hc

theorem Phone.Holds.of_mark (h : p.Holds T c) {p' : Phone κ} (hmark : p'.mark T = p.mark T) :
    p'.Holds T c := by
  obtain ⟨m, hm, hcurrent⟩ := h
  exact ⟨m, hmark.trans hm, hcurrent⟩

theorem holds_setMark {id : κ} {m : Mark} (h : p.Holds T c) (hm : id = T → m.Current c) :
    (p.setMark id m).Holds T c := by
  by_cases hid : T = id
  · exact ⟨m, by rw [Phone.mark_setMark, if_pos hid], hm hid.symm⟩
  · exact h.of_mark (by rw [Phone.mark_setMark, if_neg hid])

theorem holds_setMark_self {m : Mark} (hm : m.Current c) : (p.setMark T m).Holds T c :=
  ⟨m, by rw [Phone.mark_setMark, if_pos rfl], hm⟩

/-- A new list keeps a current mark, or it was read when the server had the arrival. -/
theorem adopt_holds (h : p.Holds T c) (l : OfflineList κ) :
    (p.adopt l).Holds T c ∨ c.Covered (some l) := by
  obtain ⟨m, hm, hcurrent⟩ := h
  rcases Phone.mark_adopt p l T with ⟨-, m', hm', hunsent⟩ | ⟨-, hmark⟩
  · refine .inl ⟨m', hm', current_of_none ?_⟩
    unfold Mark.isUnsent at hunsent
    rw [Bool.and_eq_true, Option.isNone_iff_eq_none] at hunsent
    exact hunsent.2
  · rw [hm, Option.any_some] at hmark
    by_cases hcovers : listCovers m.knownSince l.serverTime = true
    · refine .inr ?_
      obtain ⟨k, hk, hgrace⟩ := (Option.any_eq_true _ _).1 hcovers
      obtain ⟨h, hhad, hle⟩ := hcurrent k hk
      have hgrace : k + markGraceMs < l.serverTime := by simpa using hgrace
      exact ⟨l, h, rfl, hhad, hle.trans hgrace.le⟩
    · rw [if_neg hcovers] at hmark
      exact .inl ⟨m, hmark, hcurrent⟩

theorem learnCheckIn_holds {now : Time} {row : WireCheckIn κ} (h : p.Holds T c)
    (hrow : row.ticketId = T → (p.mark T).any (·.source = .relay) → c.HadBy now) :
    (p.learnCheckIn now row).Holds T c := by
  unfold Phone.learnCheckIn
  split_ifs with hlist hsource
  · exact h
  · exact h
  · refine holds_setMark h fun hid => current_of_hadBy rfl (hrow hid ?_)
    obtain ⟨m, hm, -⟩ := h
    rw [hid, hm, Option.any_some] at hsource
    rw [hm, Option.any_some]
    simpa using hsource

/-- A check-in row never makes a relay mark. -/
theorem learnCheckIn_relay {now : Time} {row : WireCheckIn κ}
    (h : ((p.learnCheckIn now row).mark T).any (·.source = .relay) = true) :
    (p.mark T).any (·.source = .relay) = true := by
  unfold Phone.learnCheckIn at h
  split_ifs at h
  · exact h
  · exact h
  · rw [Phone.mark_setMark] at h
    split_ifs at h
    · simp at h
    · exact h

theorem learnCheckIns_holds {now : Time} : ∀ {rows : List (WireCheckIn κ)} {p : Phone κ},
    p.Holds T c → ((∃ row ∈ rows, row.ticketId = T) → (p.mark T).any (·.source = .relay) →
      c.HadBy now) → (rows.foldl (Phone.learnCheckIn now) p).Holds T c
  | [], _, h, _ => h
  | row :: rows, p, h, hrows => by
    have hrow := learnCheckIn_holds h fun hid => hrows ⟨row, List.mem_cons_self, hid⟩
    rw [List.foldl_cons]
    refine learnCheckIns_holds hrow ?_
    rintro ⟨row', hrow', hid⟩ hrelay
    exact hrows ⟨row', List.mem_cons_of_mem _ hrow', hid⟩ (learnCheckIn_relay hrelay)

theorem learnRelayRow_holds {now : Time} {row : RelayRow κ} (h : p.Holds T c)
    (hrow : row.ticketId = T → row.confirmed → (p.mark T).any (·.isClaim) → c.HadBy now) :
    (p.learnRelayRow now row).Holds T c := by
  unfold Phone.learnRelayRow
  split_ifs with hlist
  · exact h
  split
  next m hmark =>
    refine holds_setMark h fun hid => ?_
    obtain ⟨m', hm', hcurrent⟩ := h
    rw [hid, hm'] at hmark
    unfold markFromRelay at hmark
    dsimp only at hmark
    split_ifs at hmark with htaken hconfirmed
    · rw [← Option.some.inj hmark]
      rcases hknown : m'.knownSince with _ | k'
      · refine current_of_hadBy rfl (hrow hid hconfirmed ?_)
        rw [hm', Option.any_some]
        unfold Mark.isClaim
        rw [Bool.and_eq_true] at htaken
        rw [htaken.1, hknown]
        rfl
      · exact current_of_hadBy rfl (hcurrent k' hknown)
    · rw [← Option.some.inj hmark]
      exact current_of_none rfl
  next => exact h

/-- A relay row makes no claim of a mark that was none. -/
theorem learnRelayRow_claim {now : Time} {row : RelayRow κ} (h : (p.mark T).isSome)
    (hclaim : ((p.learnRelayRow now row).mark T).any (·.isClaim) = true) :
    (p.mark T).any (·.isClaim) = true := by
  obtain ⟨m', hm'⟩ := Option.isSome_iff_exists.1 h
  unfold Phone.learnRelayRow at hclaim
  split_ifs at hclaim with hlist
  · exact hclaim
  split at hclaim
  next m hmark =>
    rw [Phone.mark_setMark] at hclaim
    split_ifs at hclaim with hid
    · rw [← hid, hm'] at hmark
      unfold markFromRelay at hmark
      dsimp only at hmark
      split_ifs at hmark with htaken hconfirmed
      · rw [← Option.some.inj hmark] at hclaim
        simp [Mark.isClaim] at hclaim
      · rw [hm', Option.any_some]
        unfold Mark.isClaim
        simpa [hconfirmed] using htaken
    · exact hclaim
  next => exact hclaim

theorem learnRelayRows_holds {now : Time} : ∀ {rows : List (RelayRow κ)} {p : Phone κ},
    p.Holds T c → (∀ row ∈ rows, row.ticketId = T → row.confirmed → (p.mark T).any (·.isClaim) →
      c.HadBy now) → (rows.foldl (Phone.learnRelayRow now) p).Holds T c
  | [], _, h, _ => h
  | row :: rows, p, h, hrows => by
    have hsome : (p.mark T).isSome := by
      obtain ⟨m, hm, -⟩ := h
      rw [hm]
      rfl
    have hrow := learnRelayRow_holds h (hrows row List.mem_cons_self)
    rw [List.foldl_cons]
    refine learnRelayRows_holds hrow fun row' hrow' hid hconfirmed hclaim => ?_
    exact hrows row' (List.mem_cons_of_mem _ hrow') hid hconfirmed (learnRelayRow_claim hsome hclaim)

theorem nowKnown_holds {now : Time} {i : OutboxItem κ} (h : p.Holds T c)
    (hi : i.ticketId = some T → (p.mark T).any (·.knownSince.isNone) → c.HadBy now) :
    (p.nowKnown now i).Holds T c := by
  unfold Phone.nowKnown
  split
  next id hid =>
    split
    next m hm =>
      split_ifs with hnone
      · refine holds_setMark h fun heq => ?_
        subst heq
        refine current_of_hadBy rfl (hi hid ?_)
        rw [hm, Option.any_some]
        exact hnone
      · exact h
    next => exact h
  next => exact h

theorem nowKnown_unknown {now : Time} {i : OutboxItem κ}
    (h : ((p.nowKnown now i).mark T).any (·.knownSince.isNone) = true) :
    (p.mark T).any (·.knownSince.isNone) = true := by
  unfold Phone.nowKnown at h
  split at h
  · split at h
    · split_ifs at h
      · rw [Phone.mark_setMark] at h
        split_ifs at h
        · simp at h
        · exact h
      · exact h
    · exact h
  · exact h

theorem nowKnowns_holds {now : Time} : ∀ {batch : List (OutboxItem κ)} {p : Phone κ},
    p.Holds T c → ((∃ i ∈ batch, i.ticketId = some T) → (p.mark T).any (·.knownSince.isNone) →
      c.HadBy now) → (batch.foldl (Phone.nowKnown now) p).Holds T c
  | [], _, h, _ => h
  | i :: batch, p, h, hbatch => by
    have hi := nowKnown_holds h fun hid => hbatch ⟨i, List.mem_cons_self, hid⟩
    rw [List.foldl_cons]
    refine nowKnowns_holds hi ?_
    rintro ⟨j, hj, hid⟩ hnone
    exact hbatch ⟨j, List.mem_cons_of_mem _ hj, hid⟩ (nowKnown_unknown hnone)

theorem answer_holds (h : p.Holds T c) (r : Read κ) (method : ScanMethod)
    (supersedes : Option Id) (scanId : Id) :
    (p.answer r method supersedes scanId).1.Holds T c := by
  unfold Phone.answer
  split
  · dsimp only
    split_ifs
    · exact (holds_setMark h fun _ => current_of_none rfl).of_mark rfl
    · exact h.of_mark rfl
  · exact h.of_mark rfl

theorem learn_holds {now : Time} {id : κ} {result : ScanResult} (h : p.Holds T c)
    (hleaves : (PhoneEvent.learn now id result).Leaves p T c) :
    (p.learn now id result).1.Holds T c := by
  unfold Phone.learn
  split_ifs with hlist hresult hsource
  · exact h
  · exact h
  · exact h
  all_goals
    refine holds_setMark h fun hid => current_of_hadBy rfl (hleaves hid ?_ ?_)
    · simp only [not_and_or, not_not] at hresult
      exact hresult
    · obtain ⟨m, hm, -⟩ := h
      rw [hid, hm, Option.any_some] at hsource
      rw [hm, Option.any_some]
      simpa using hsource

theorem settleEarly_holds {now : Time} {id : κ} {result : ScanResult} (h : p.Holds T c)
    (hleaves : (PhoneEvent.settleEarly now id result).Leaves p T c) :
    (p.settleEarly now id result).1.Holds T c := by
  unfold Phone.settleEarly
  split_ifs with hadmitted halready
  · split
    · exact holds_setMark h fun hid => current_of_hadBy rfl (hleaves hid).2
    · exact h
  · exact holds_setMark h fun hid => current_of_hadBy rfl (hleaves hid).2
  · refine h.of_mark ?_
    rw [Phone.mark_dropMark, if_neg]
    rintro rfl
    rcases (hleaves rfl).1 with hin | hin
    · exact hadmitted hin
    · exact halready hin

theorem learnRelayUndo_holds {id : κ} {undo : RelayUndo} (h : p.Holds T c)
    (hleaves : (PhoneEvent.relayUndo id undo).Leaves p T c) :
    (p.learnRelayUndo id undo).1.Holds T c := by
  unfold Phone.learnRelayUndo
  split_ifs with hremoves
  · refine h.of_mark ?_
    rw [Phone.mark_dropMark, if_neg]
    rintro rfl
    rw [hleaves rfl] at hremoves
    cases hremoves
  · split <;> exact h

theorem undo_holds {now : Time} {scanId : Id} (h : p.Holds T c)
    (hleaves : (PhoneEvent.undo now scanId).Leaves p T c) :
    (p.undo now scanId).1.Holds T c := by
  unfold Phone.undo
  dsimp only
  have hfind : ∀ i, p.outbox.find? (·.scanId == scanId) = some i → i.ticketId = some T →
      localUndo (some i) now (p.inFlight.contains scanId) ≠ .done := hleaves
  generalize p.outbox.find? (·.scanId == scanId) = found at hfind
  rcases found with _ | i
  · exact h
  dsimp only
  split_ifs with hdone
  · exact h
  split
  next id hid =>
    refine h.of_mark ?_
    rw [Phone.mark_dropMark, if_neg]
    · rfl
    · rintro rfl
      exact hfind i rfl hid (not_not.1 hdone)
  next => exact h.of_mark rfl

theorem batchReply_holds {now : Time} {reply : Phone.SyncReply} (h : p.Holds T c)
    (hleaves : (PhoneEvent.batchReply now reply).Leaves p T c) :
    (p.batchReply now reply).Holds T c := by
  unfold Phone.batchReply
  split
  next batch hbatch =>
    cases reply with
    | ok =>
      have hland : Phone.Holds
          { p with inFlight := p.inFlight.filter (!(batch.map (·.scanId)).contains ·) } T c :=
        h.of_mark rfl
      exact (nowKnowns_holds hland (hleaves rfl batch hbatch)).of_mark rfl
    | refused => exact h.of_mark rfl
    | unheard => exact h.of_mark rfl
  next => exact h

/-- What a stretch that leaves the mark alone does to it. -/
theorem leaves_step (h : p.Holds T c) {e : PhoneEvent κ} (hleaves : e.Leaves p T c) :
    (p.step e).1.Holds T c ∨ c.Covered (p.step e).1.list := by
  cases e with
  | list l =>
    refine (adopt_holds h l).imp_right fun hcovered => ?_
    show c.Covered (p.adopt l).list
    rwa [Phone.list_adopt]
  | answer r method supersedes scanId => exact .inl (answer_holds h r method supersedes scanId)
  | learn now id result => exact .inl (learn_holds h hleaves)
  | admitEarly now id => exact .inl (holds_setMark h fun _ => current_of_none rfl)
  | settleEarly now id result => exact .inl (settleEarly_holds h hleaves)
  | queueEarlyAdmit now r method supersedes scanId => exact .inl (h.of_mark rfl)
  | checkIns now rows => exact .inl (learnCheckIns_holds h hleaves)
  | relayRows now rows => exact .inl (learnRelayRows_holds h hleaves)
  | relayUndo id undo => exact .inl (learnRelayUndo_holds h hleaves)
  | undo now scanId => exact .inl (undo_holds h hleaves)
  | sync => exact .inl (h.of_mark (Phone.mark_sync p))
  | resume => exact .inl (h.of_mark (Phone.mark_resume p))
  | sendBatch => exact .inl (h.of_mark (Phone.mark_sendBatch p))
  | batchReply now reply => exact .inl (batchReply_holds h hleaves)
  | batchRemoved => exact .inl (h.of_mark (Phone.mark_batchRemoved p))

theorem Phone.onList_iff {p p' : Phone κ} (h : p'.list = p.list) : p'.onList T = p.onList T := by
  unfold Phone.onList
  rw [h]

theorem learnCheckIns_takes {now : Time} (hhad : c.HadBy now) :
    ∀ {rows : List (WireCheckIn κ)} {p : Phone κ}, p.onList T → (∃ row ∈ rows, row.ticketId = T) →
      (∀ m, p.mark T = some m → m.source = .relay ∨ m.Current c) →
        (rows.foldl (Phone.learnCheckIn now) p).Holds T c
  | [], _, _, hrow, _ => by simp at hrow
  | row :: rows, p, hlist, hrow, hopen => by
    rw [List.foldl_cons]
    by_cases hid : row.ticketId = T
    · refine learnCheckIns_holds ?_ fun _ _ => hhad
      unfold Phone.learnCheckIn
      split_ifs with hmissing hsource
      · rw [hid, hlist] at hmissing
        cases hmissing
      · obtain ⟨m, hm, hnot⟩ := (Option.any_eq_true _ _).1 hsource
        rw [hid] at hm
        rcases hopen m hm with hrelay | hcurrent
        · simp [hrelay] at hnot
        · exact ⟨m, hm, hcurrent⟩
      · rw [hid]
        exact holds_setMark_self (current_of_hadBy rfl hhad)
    · have hmark : (p.learnCheckIn now row).mark T = p.mark T := by
        unfold Phone.learnCheckIn
        split_ifs
        · rfl
        · rfl
        · rw [Phone.mark_setMark, if_neg (Ne.symm hid)]
      refine learnCheckIns_takes hhad ?_ ?_ fun m hm => hopen m (hmark ▸ hm)
      · rwa [Phone.onList_iff (Phone.list_learnCheckIn now p row)]
      · simpa [hid] using hrow

theorem learnRelayRows_takes {now : Time} :
    ∀ {rows : List (RelayRow κ)} {p : Phone κ}, p.onList T → (∃ row ∈ rows, row.ticketId = T) →
      (∀ row ∈ rows, row.ticketId = T → row.confirmed → c.HadBy now) →
      (∀ m, p.mark T = some m → m.isClaim ∨ m.Current c) →
        (rows.foldl (Phone.learnRelayRow now) p).Holds T c
  | [], _, _, hrow, _, _ => by simp at hrow
  | row :: rows, p, hlist, hrow, hhad, hopen => by
    rw [List.foldl_cons]
    have hrest : ∀ row ∈ rows, row.ticketId = T → row.confirmed → c.HadBy now :=
      fun row' hrow' => hhad row' (List.mem_cons_of_mem _ hrow')
    by_cases hid : row.ticketId = T
    · refine learnRelayRows_holds ?_ fun row' hrow' hid hconfirmed _ => hrest row' hrow' hid hconfirmed
      have hfresh : ∀ m : Mark, m.knownSince = (if row.confirmed then some now else none) →
          m.Current c := by
        intro m hm
        split_ifs at hm with hconfirmed
        · exact current_of_hadBy hm (hhad row List.mem_cons_self hid hconfirmed)
        · exact current_of_none hm
      unfold Phone.learnRelayRow
      split_ifs with hmissing
      · rw [hid, hlist] at hmissing
        cases hmissing
      rw [hid]
      rcases hmark : p.mark T with _ | m
      · exact holds_setMark_self (hfresh _ rfl)
      rcases hopen m hmark with hclaim | hcurrent
      · unfold Mark.isClaim at hclaim
        rw [Bool.and_eq_true, Option.isNone_iff_eq_none] at hclaim
        have htaken : (m.source == .relay && (m.knownSince.isNone || row.confirmed)) = true := by
          simp [hclaim.1, hclaim.2]
        unfold markFromRelay
        dsimp only
        rw [if_pos htaken]
        refine holds_setMark_self (hfresh _ ?_)
        rw [hclaim.2, Option.getD_none]
      · have hholds : p.Holds T c := ⟨m, hmark, hcurrent⟩
        have hstep : (p.learnRelayRow now row).Holds T c :=
          learnRelayRow_holds hholds fun hid hconfirmed _ =>
            hhad row List.mem_cons_self hid hconfirmed
        unfold Phone.learnRelayRow at hstep
        rwa [if_neg hmissing, hid, hmark] at hstep
    · have hmark : (p.learnRelayRow now row).mark T = p.mark T := by
        unfold Phone.learnRelayRow
        split_ifs
        · rfl
        · split
          · rw [Phone.mark_setMark, if_neg (Ne.symm hid)]
          · rfl
      refine learnRelayRows_takes ?_ ?_ hrest fun m hm => hopen m (hmark ▸ hm)
      · rwa [Phone.onList_iff (Phone.list_learnRelayRow now p row)]
      · simpa [hid] using hrow

/-- What a telling that is taken up leaves. -/
theorem takes_step {e : PhoneEvent κ} (hdelivers : e.Delivers p T c) (htakes : e.Takes p T c) :
    (p.step e).1.Holds T c := by
  cases e with
  | answer r method supersedes scanId =>
    obtain ⟨hentry, hverdict⟩ := hdelivers
    obtain ⟨entry, hentry', hid⟩ := Option.map_eq_some_iff.1 hentry
    show (p.answer r method supersedes scanId).1.Holds T c
    unfold Phone.answer
    rw [hentry', hverdict, ← hid]
    exact (holds_setMark_self (current_of_none rfl)).of_mark rfl
  | admitEarly now id =>
    have hid : id = T := hdelivers
    subst hid
    exact holds_setMark_self (current_of_none rfl)
  | learn now id result =>
    obtain ⟨rfl, hlist, hstate, hhad⟩ := hdelivers
    show (p.learn now id result).1.Holds id c
    unfold Phone.learn
    split_ifs with hnone hresult hsource
    · rw [Option.isNone_iff_eq_none] at hnone
      rw [hnone] at hlist
      cases hlist
    · rcases hstate with hin | hin
      · exact absurd hin hresult.1
      · exact absurd hin hresult.2
    · obtain ⟨m, hm, hnot⟩ := (Option.any_eq_true _ _).1 hsource
      rcases htakes m hm with hrelay | hcurrent
      · simp [hrelay] at hnot
      · exact ⟨m, hm, hcurrent⟩
    all_goals exact holds_setMark_self (current_of_hadBy rfl hhad)
  | settleEarly now id result =>
    obtain ⟨rfl, hstate, hhad⟩ := hdelivers
    show (p.settleEarly now id result).1.Holds id c
    unfold Phone.settleEarly
    split_ifs with hadmitted halready
    · obtain ⟨m, hm⟩ := Option.isSome_iff_exists.1 (htakes hadmitted)
      rw [hm]
      exact holds_setMark_self (current_of_hadBy rfl hhad)
    · exact holds_setMark_self (current_of_hadBy rfl hhad)
    · rcases hstate with hin | hin
      · exact absurd hin hadmitted
      · exact absurd hin halready
  | checkIns now rows =>
    obtain ⟨hlist, hrow, hhad⟩ := hdelivers
    exact learnCheckIns_takes hhad hlist hrow htakes
  | relayRows now rows =>
    obtain ⟨hlist, hrow, hhad⟩ := hdelivers
    exact learnRelayRows_takes hlist hrow hhad htakes
  | _ => exact hdelivers.elim

end Marks

section Runs

/-- One step of a run, seen from one ticket: a stretch of the phone, which may tell it of an
arrival, or the end of an arrival elsewhere. -/
inductive TicketStep (κ : Type)
  | stretch (e : PhoneEvent κ)
  | told (e : PhoneEvent κ) (c : Arrival)
  | undone (c : Arrival)

/-- The phone, and the arrivals it was told of that still stand. -/
structure Informed (κ : Type) where
  phone : Phone κ
  known : List Arrival

def Informed.step (w : Informed κ) : TicketStep κ → Informed κ
  | .stretch e => { w with phone := (w.phone.step e).1 }
  | .told e c => ⟨(w.phone.step e).1, c :: w.known⟩
  | .undone c => { w with known := w.known.filter (· ≠ c) }

/-- What is told is so, and the lists come in the order they were read. -/
def TicketStep.Truthful (T : κ) (w : Informed κ) : TicketStep κ → Prop
  | .stretch (.list l) => ∀ l', w.phone.list = some l' → l'.serverTime ≤ l.serverTime
  | .told e c => e.Delivers w.phone T c
  | _ => True

/-- Each telling is taken up, and until the phone's list has it nothing else touches the mark. -/
def TicketStep.Heeded (T : κ) (w : Informed κ) : TicketStep κ → Prop
  | .stretch e => ∀ c ∈ w.known, ¬ c.Covered w.phone.list → e.Leaves w.phone T c
  | .told e c => e.Takes w.phone T c ∧
      ∀ c' ∈ w.known, c' ≠ c → ¬ c'.Covered w.phone.list → e.Leaves w.phone T c'
  | .undone _ => True

/-- Every arrival the phone was told of is in its mark or in its list. -/
def Informed.Remembers (T : κ) (w : Informed κ) : Prop :=
  ∀ c ∈ w.known, w.phone.Holds T c ∨ c.Covered w.phone.list

variable {T : κ} {c : Arrival}

/-- What the phone's list has, a later list has. -/
theorem covered_step {w : Informed κ} {e : PhoneEvent κ}
    (htrue : (TicketStep.stretch e).Truthful T w) (h : c.Covered w.phone.list) :
    c.Covered (w.phone.step e).1.list := by
  rcases Phone.list_step w.phone e with hlist | ⟨l, rfl, hlist⟩
  · rwa [hlist]
  · obtain ⟨l', t, hl', ht, hle⟩ := h
    rw [hlist]
    exact ⟨l, t, rfl, ht, hle.trans (htrue l' hl')⟩

theorem remembers_step (w : Informed κ) (e : TicketStep κ) (h : w.Remembers T)
    (he : e.Truthful T w ∧ e.Heeded T w) : (w.step e).Remembers T := by
  obtain ⟨htrue, hheeded⟩ := he
  cases e with
  | stretch e =>
    intro c hc
    by_cases hcovered : c.Covered w.phone.list
    · exact .inr (covered_step htrue hcovered)
    · exact leaves_step ((h c hc).resolve_right hcovered) (hheeded c hc hcovered)
  | told e c' =>
    have htrue' : (TicketStep.stretch e).Truthful T w := by
      cases e with
      | list l => exact htrue.elim
      | _ => trivial
    intro c hc
    by_cases heq : c = c'
    · rw [heq]
      exact .inl (takes_step htrue hheeded.1)
    · have hc : c ∈ w.known := (List.mem_cons.1 hc).resolve_left heq
      by_cases hcovered : c.Covered w.phone.list
      · exact .inr (covered_step htrue' hcovered)
      · exact leaves_step ((h c hc).resolve_right hcovered) (hheeded.2 c hc heq hcovered)
  | undone c' => exact fun c hc => h c (List.mem_of_mem_filter hc)

theorem judge_alreadyIn {p : Phone κ} {r : Read κ} {e : OfflineEntry κ} (he : r.entry = some e)
    (hstatus : e.status ≠ .cancelled) {m : Mark} (hm : p.mark e.id = some m) :
    (p.judge r).result = .alreadyIn := by
  unfold Phone.judge judgeOffline
  rw [he]
  simp [hstatus, hm]

/-- A list read before the server had an arrival does not make the phone forget it, in every run
whose steps are heeded. -/
theorem adopt_remembers (passId : Id) (gate : String) (steps : List (TicketStep κ))
    (htrue : EveryStep Informed.step (fun w e => e.Truthful T w)
      ⟨Phone.start passId gate, []⟩ steps)
    (hheeded : EveryStep Informed.step (fun w e => e.Heeded T w)
      ⟨Phone.start passId gate, []⟩ steps)
    (w : Informed κ) (hw : steps.foldl Informed.step ⟨Phone.start passId gate, []⟩ = w)
    (l : OfflineList κ) (horder : ∀ l', w.phone.list = some l' → l'.serverTime ≤ l.serverTime)
    (c : Arrival) (hc : c ∈ w.known) (hafter : c.After l) (r : Read κ) (e : OfflineEntry κ)
    (he : r.entry = some e) (hid : e.id = T) (hstatus : e.status ≠ .cancelled) :
    ((w.phone.adopt l).judge r).result = .alreadyIn := by
  have hstart : Informed.Remembers T ⟨Phone.start passId gate, []⟩ := fun c hc => by cases hc
  have hremembers : w.Remembers T := by
    rw [← hw]
    exact EveryStep.keeps remembers_step hstart (htrue.and hheeded)
  have hnot : ∀ l', w.phone.list = some l' ∨ l' = l → ∀ h, c.had = some h →
      ¬ h ≤ l'.serverTime := by
    intro l' hl' h hhad hle
    have hlt := hafter h hhad
    rcases hl' with hl' | rfl
    · exact absurd (hle.trans (horder l' hl')) (not_le.2 hlt)
    · exact absurd hle (not_le.2 hlt)
  rcases hremembers c hc with hholds | ⟨l', h, hl', hhad, hle⟩
  · rcases adopt_holds hholds l with ⟨m, hm, -⟩ | ⟨l', h, hl', hhad, hle⟩
    · exact judge_alreadyIn he hstatus (hid.symm ▸ hm)
    · exact absurd hle (hnot l' (.inr (Option.some.inj hl').symm) h hhad)
  · exact absurd hle (hnot l' (.inl hl') h hhad)

end Runs

section Evening

def guestEntry : OfflineEntry Nat where
  d := "digest"
  id := 1
  name := "Guest"
  type := "Standard"
  pos := 1
  of := 1
  status := .issued
  inAt := none
  inBy := none

/-- The event's list as the server read it then, the guest not in. -/
def guestList (serverTime : Time) : OfflineList Nat where
  eventId := 1
  passId := 1
  salt := ""
  serverTime := serverTime
  validFrom := 0
  validUntil := 100000
  entries := [guestEntry]

def guestRead : Read Nat := ⟨"code", some guestEntry, 60000, 0⟩

def firstArrival : Arrival := ⟨1, some 5000⟩

def secondArrival : Arrival := ⟨2, some 40000⟩

/-- A status ping with the guest's check-in at gate B. -/
def pingAt (now : Time) : PhoneEvent Nat := .checkIns now [⟨1, now - 500, some "B"⟩]

def toldOnce : List (TicketStep Nat) :=
  [.stretch (.list (guestList 0)), .told (pingAt 41000) secondArrival]

/-- In, taken back, and in again. -/
def toldPairs : List (TicketStep Nat) :=
  [.stretch (.list (guestList 0)), .told (pingAt 5500) firstArrival, .undone firstArrival,
    .told (pingAt 41000) secondArrival]

theorem pingAt_delivers {p : Phone Nat} {now h : Time} {n : Nat} (hlist : p.onList 1 = true)
    (hgrace : h ≤ now + markGraceMs) : (pingAt now).Delivers p 1 ⟨n, some h⟩ :=
  ⟨hlist, ⟨_, List.mem_cons_self, rfl⟩, h, rfl, hgrace⟩

theorem adopt_remembers_toldOnce :
    (((toldOnce.foldl Informed.step ⟨Phone.start 1 "A", []⟩).phone.adopt
      (guestList 30000)).judge guestRead).result = .alreadyIn := by
  have hnone : ((toldOnce.take 1).foldl Informed.step ⟨Phone.start 1 "A", []⟩).phone.mark 1 =
      none := by decide +kernel
  have hcurrent : (toldOnce.foldl Informed.step ⟨Phone.start 1 "A", []⟩).phone.list =
      some (guestList 0) := by decide +kernel
  refine adopt_remembers 1 "A" toldOnce
    ⟨fun l hl => (nomatch hl), pingAt_delivers (by decide +kernel) (by decide), trivial⟩
    ⟨fun c hc => (nomatch hc), ⟨fun m hm => ?_, fun c hc => (nomatch hc)⟩, trivial⟩
    _ rfl (guestList 30000) ?_ secondArrival List.mem_cons_self ?_ guestRead guestEntry rfl rfl
    (by decide)
  · exact absurd (hnone.symm.trans hm) (by simp)
  · intro l hl
    rw [← Option.some.inj (hcurrent.symm.trans hl)]
    decide
  · intro h hh
    rw [← Option.some.inj hh]
    decide

/-- The second check-in leaves the first one's mark as it was, and a list read between the two
drops it. -/
theorem adopt_forgets :
    ¬ ∀ (steps : List (TicketStep Nat)) (w : Informed Nat) (l : OfflineList Nat) (c : Arrival)
        (r : Read Nat) (e : OfflineEntry Nat),
      EveryStep Informed.step (fun w e => e.Truthful 1 w) ⟨Phone.start 1 "A", []⟩ steps →
      steps.foldl Informed.step ⟨Phone.start 1 "A", []⟩ = w →
      (∀ l', w.phone.list = some l' → l'.serverTime ≤ l.serverTime) →
      c ∈ w.known → c.After l → r.entry = some e → e.id = 1 → e.status ≠ .cancelled →
        ((w.phone.adopt l).judge r).result = .alreadyIn := by
  intro h
  have hcurrent : (toldPairs.foldl Informed.step ⟨Phone.start 1 "A", []⟩).phone.list =
      some (guestList 0) := by decide +kernel
  have hin := h toldPairs _ (guestList 30000) secondArrival guestRead guestEntry
    ⟨fun l hl => (nomatch hl), pingAt_delivers (by decide +kernel) (by decide), trivial,
      pingAt_delivers (by decide +kernel) (by decide), trivial⟩ rfl
    (fun l hl => by
      rw [← Option.some.inj (hcurrent.symm.trans hl)]
      decide)
    List.mem_cons_self
    (fun t ht => by
      rw [← Option.some.inj ht]
      decide) rfl rfl (by decide)
  have hout : (((toldPairs.foldl Informed.step ⟨Phone.start 1 "A", []⟩).phone.adopt
      (guestList 30000)).judge guestRead).result = .admitted := by decide +kernel
  rw [hout] at hin
  cases hin

end Evening

end EchoAndAura
