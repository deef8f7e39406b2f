import EchoAndAura.Proofs.Sales

/-!
# Scans among others

A scan's request knows its pass's label and its ticket's order and code, which nobody changes
(`Gate`, `DoorTicket.Of`); what it announces is the check-in it has committed (`checkIn_wp`).
-/

namespace EchoAndAura

open Txn (Lock writeAll)

variable {α : Type} {q : Request} {τ : List Obs} {d : Db}

section Tickets

variable {d' : Db} {id : Id}

theorem writeAll_events : ∀ (ws : List Write) (d : Db), (writeAll ws d).events = d.events
  | [], _ => rfl
  | w :: ws, d => by
    have hw : (w.apply d).events = d.events := by cases w <;> rfl
    exact (writeAll_events ws (w.apply d)).trans hw

theorem Write.ticketType_kept (w : Write) (h : (d.ticketTypes.lookup id).isSome) :
    ((w.apply d).ticketTypes.lookup id).isSome := by
  cases w with
  | ticketType id' row =>
    simp only [apply, Table.lookup_insert_eq]
    split_ifs <;> simp [h]
  | _ => exact h

theorem writeAll_ticketType : ∀ (ws : List Write) (d : Db), (d.ticketTypes.lookup id).isSome →
    ((writeAll ws d).ticketTypes.lookup id).isSome
  | [], _, h => h
  | w :: ws, d, h => writeAll_ticketType ws (w.apply d) (w.ticketType_kept h)

theorem TicketMove.event {K : List (Lock Row)} {undone : List (Id × CheckIn)} {t t' : Ticket}
    (h : TicketMove K d d' undone id) (ht : d.tickets.lookup id = some t)
    (ht' : d'.tickets.lookup id = some t') : t'.eventId = t.eventId := by
  cases h with
  | same row =>
    rw [row, ht] at ht'
    cases ht'
    rfl
  | issued fresh =>
    rw [ht] at fresh
    cases fresh
  | cancelled row _ _ row' =>
    rw [ht] at row
    rw [ht'] at row'
    cases row
    cases row'
    rfl
  | renamed row _ row' =>
    obtain rfl := Option.some.inj (ht.symm.trans row)
    rw [ht'] at row'
    cases row'
    rfl
  | admitted admission row' =>
    obtain rfl := Option.some.inj (ht.symm.trans admission.row)
    rw [ht'] at row'
    cases row'
    rfl
  | undone row _ row' =>
    rw [ht] at row
    rw [ht'] at row'
    cases row
    cases row'
    rfl

theorem hasTicket_iff {code : String} : d.HasTicket id code ↔ ∃ t, d.tickets.lookup id = some t ∧
    t.code = code ∧ (d.ticketTypes.lookup t.ticketTypeId).isSome ∧
      (d.orders.lookup t.orderId).isSome ∧ (d.events.lookup t.eventId).isSome := by
  unfold Db.HasTicket Db.doorTicket
  rcases d.tickets.lookup id with _ | t
  · simp
  rcases hty : d.ticketTypes.lookup t.ticketTypeId with _ | ty
  · simp [hty]
  rcases ho : d.orders.lookup t.orderId with _ | o
  · simp [hty, ho]
  rcases he : d.events.lookup t.eventId with _ | e <;> simp [hty, ho, he]

theorem Effect.hasTicket {K : List (Lock Row)} {ws : List Write} {undone : List (Id × CheckIn)}
    {code : String} (h : Effect K d ws undone) (ht : d.HasTicket id code) :
    (writeAll ws d).HasTicket id code := by
  obtain ⟨t, hrow, hcode, hty, ho, he⟩ := hasTicket_iff.1 ht
  obtain ⟨t', hrow', horder, htype, hcode'⟩ := h.grows.ticket hrow
  have hevent := (h.ticket id).event hrow hrow'
  refine hasTicket_iff.2 ⟨t', hrow', hcode'.trans hcode, ?_, ?_, ?_⟩
  · rw [htype]
    exact writeAll_ticketType ws d hty
  · obtain ⟨o, ho⟩ := Option.isSome_iff_exists.1 ho
    obtain ⟨o', ho', -⟩ := h.grows.order ho
    rw [horder, ho']
    rfl
  · rw [hevent, writeAll_events]
    exact he

theorem hasTicket_later {code : String} (h : Later d d') (ht : d.HasTicket id code) :
    d'.HasTicket id code :=
  h.preserves (I := fun d => d.HasTicket id code)
    (fun _ _ _ _ _ ⟨_, _, he, h, _⟩ ht => h ▸ he.hasTicket ht) ht

end Tickets

section Gate

open doorService

/-- The pass a request was let in with. -/
def DoorContext.Of (ctx : DoorContext) (d : Db) : Prop :=
  ∃ p, d.doorPasses.lookup ctx.passId = some p ∧ p.label = ctx.pass.label

theorem DoorContext.Of.grows {ctx : DoorContext} {d' : Db} (h : ctx.Of d) (hg : Grows d d') :
    ctx.Of d' := by
  obtain ⟨p, hp, hl⟩ := h
  obtain ⟨p', hp', hl', -⟩ := hg.pass hp
  exact ⟨p', hp', hl'.trans hl⟩

/-- A ticket as it was read, as far as it is fixed. -/
def DoorTicket.Of (t : DoorTicket) (d : Db) : Prop :=
  ∃ r, d.tickets.lookup t.id = some r ∧ r.orderId = t.orderId ∧ r.code = t.code

theorem DoorTicket.Of.grows {t : DoorTicket} {d' : Db} (h : t.Of d) (hg : Grows d d') :
    t.Of d' := by
  obtain ⟨r, hr, ho, hc⟩ := h
  obtain ⟨r', hr', ho', -, hc'⟩ := hg.ticket hr
  exact ⟨r', hr', ho'.trans ho, hc'.trans hc⟩

/-- A ticket is read as its row has it. -/
theorem doorTicket_row {id : Id} {t : DoorTicket} (h : d.doorTicket id = some t) :
    t.id = id ∧ ∃ r, d.tickets.lookup id = some r ∧ r.orderId = t.orderId ∧ r.code = t.code ∧
      r.checkIn = t.checkIn := by
  simp only [Db.doorTicket, Option.bind_eq_bind, Option.bind_eq_some_iff, Option.some.injEq] at h
  obtain ⟨r, hr, ty, -, o, -, e, -, rfl⟩ := h
  exact ⟨rfl, r, hr, rfl, rfl, rfl⟩

theorem DoorTicket.of_doorTicket {id : Id} {t : DoorTicket} (h : d.doorTicket id = some t) :
    t.Of d := by
  obtain ⟨rfl, r, hr, ho, hc, -⟩ := doorTicket_row h
  exact ⟨r, hr, ho, hc⟩

/-- The ticket found by a code has it. -/
theorem doorTicket_of_code {c : String} {t : DoorTicket}
    (h : ((d.tickets.entries.find? fun e => e.2.code == c).bind fun e => d.doorTicket e.1) =
      some t) : d.doorTicket t.id = some t ∧ t.code = c := by
  obtain ⟨e, hfind, he⟩ := Option.bind_eq_some_iff.1 h
  obtain ⟨hid, row, hrow, -, hcode, -⟩ := doorTicket_row he
  obtain rfl : row = e.2 := Option.some.inj
    (hrow.symm.trans (AList.mem_lookup_iff.2 (List.mem_of_find?_eq_some hfind)))
  have hmatch : e.2.code = c := by simpa using List.find?_some hfind
  exact ⟨hid ▸ he, hcode.symm.trans hmatch⟩

theorem reads_of {a : Attempt} {t : DoorTicket} (ha : a.ctx.Of d) (ht : t.Of d)
    (hn : d.HasTicket t.id a.input) : a.Reads t d where
  names := hn
  ticket r hr := by
    obtain ⟨r', hr', h⟩ := ht
    obtain rfl := Option.some.inj (hr'.symm.trans hr)
    exact h
  pass p hp := by
    obtain ⟨p', hp', h⟩ := ha
    obtain rfl := Option.some.inj (hp'.symm.trans hp)
    exact h

variable {ctx : DoorContext} {item : ScanItem}

/-- What holds of a gate's request between its scans. -/
abbrev Gate (ctx : DoorContext) (d : Db) : Prop := Logged d ∧ ctx.Of d

theorem Gate.grows {d' : Db} (h : Gate ctx d) (hg : Grows d d') (hd' : Logged d') : Gate ctx d' :=
  ⟨hd', h.2.grows hg⟩

/-- A part of a scan that keeps to `Gate`. -/
abbrev Svc.atGate (q : Request) (ctx : DoorContext) (s : Svc α) (τ : List Obs) (d : Db) : Prop :=
  s.wp q (fun _ _ d' => Gate ctx d') (fun _ _ d' => Gate ctx d') τ d

variable {Q : α → List Obs → Db → Prop}

theorem Gate.pass (h : Gate ctx d) : (d.doorPasses.lookup ctx.passId).isSome := by
  obtain ⟨-, p, hp, -⟩ := h
  simp [hp]

theorem gate_later {d' : Db} (h : Gate ctx d) (h' : Later d d') : Gate ctx d' :=
  h.grows (grows_of_rely h') (logged_of_rely h' h.1)

theorem wp_gateRead {name : String} {f : Db → α} (hq : q.Plain) (hd : Gate ctx d)
    (ok : ∀ d₁ τ' d', Later d₁ d' → Gate ctx d' → Q (f d₁) τ' d') :
    (Svc.query (.reads name f)).wp q Q (fun _ _ d' => Gate ctx d') τ d :=
  Svc.wp_query (hq.closed _) (fun _ _ _ hi => gate_later hd hi.later)
    fun d₁ τ' _ h₁ h' _ _ => ok d₁ τ' _ h' (gate_later hd (h₁.trans h'))

theorem logOnly_wp {a : Attempt} {ticketId : Option Id} {result : ScanResultKind}
    {prior : Option CheckIn} {Q : Unit → List Obs → Db → Prop} (hq : q.Plain) (hd : Gate a.ctx d)
    (hr : result ≠ .admitted) (hn : ∀ id, ticketId = some id → d.HasTicket id a.input)
    (ok : ∀ τ' d', Gate a.ctx d' → Q () τ' d') :
    (logOnly a ticketId result prior).wp q Q (fun _ _ d' => Gate a.ctx d') τ d := by
  refine Svc.wp_transaction (fun _ undone d d' => undone = [] ∧ q.moves d d')
    (fun d' h' => commits_effect (Txn.Tx.commits_mono (fun _ _ _ _ => Aside.of)
      (insertScan_commits (fun _ => hr) (fun _ => (gate_later hd h').pass)
        fun _ id hid => hasTicket_later h' (hn id hid))))
    (fun _ _ _ _ _ _ _ hu => ⟨hu.1 ▸ hq.commit _ _ _, hu.2⟩) (fun _ _ d' _ h' => gate_later hd h')
    fun rs d' K _ undone d₁ d'' _ h' hg _ h'' => ?_
  have hd' := gate_later hd h'
  exact ok _ d'' (gate_later (hd'.grows hg.grows (hg.logged hd'.1)) h'')

theorem checkIn_wp {a : Attempt} {t : DoorTicket} (hq : q.Plain) (hd : Gate a.ctx d)
    (ht : t.Of d) (hn : d.HasTicket t.id a.input) : (checkIn a t).atGate q a.ctx τ d := by
  refine Svc.wp_bind (Svc.wp_transaction
    (fun b undone d d' => undone = [] ∧ a.Reports t b d d' ∧ q.moves d d') (fun d' h' => ?_)
    (fun _ _ _ _ _ _ _ hu => ⟨hu.1 ▸ hq.commit _ _ _, hu.2.2⟩) (fun _ _ d' _ h' => gate_later hd h')
    fun rs d' K b undone d₁ d'' _ h' hg hb h'' => ?_)
  · exact Txn.Tx.commits_mono
      (fun _ _ _ _ h => ⟨[], h.1.1, rfl, h.2, Request.moves_same h.1.2⟩) (scanTx_commits
      (reads_of (hd.2.grows (grows_of_rely h')) (ht.grows (grows_of_rely h'))
        (hasTicket_later h' hn)))
  have hd' := gate_later hd h'
  have hd'' : Gate a.ctx d'' := gate_later (hd'.grows hg.grows (hg.logged hd'.1)) h''
  refine Svc.wp_ite (fun _ => Svc.wp_pure fun _ h => gate_later hd'' h) fun hr => ?_
  obtain ⟨c, hout, hin, hat, hby⟩ := hb.2.1 (not_not.1 hr)
  rw [hat]
  refine Svc.wp_say_bind ?_ (Svc.wp_pure fun _ h => gate_later hd'' h)
  exact ⟨K, d', d₁, c, by simp, hout, hin, rfl, hby⟩

theorem scanned_wp {Q : Option DoorTicket × String → List Obs → Db → Prop} (hq : q.Plain)
    (hd : Gate ctx d) (ok : ∀ r τ' d', Gate ctx d' →
      (∀ t, r.1 = some t → t.Of d' ∧ d'.HasTicket t.id r.2) → Q r τ' d') :
    (scanned item).wp q Q (fun _ _ d' => Gate ctx d') τ d := by
  unfold scanned
  split
  · refine Svc.wp_bind (wp_gateRead hq hd fun d₁ τ' d' hl hd' => ?_)
    refine Svc.wp_pure fun d'' h'' => ok _ _ _ (gate_later hd' h'') fun t ht => ?_
    have hthere : d₁.doorTicket _ = some t := ht
    obtain ⟨rfl, -⟩ := doorTicket_row hthere
    refine ⟨(DoorTicket.of_doorTicket hthere).grows (grows_of_rely (hl.trans h'')), ?_⟩
    refine hasTicket_later (hl.trans h'') ⟨t, hthere, ?_⟩
    show t.code = ((d₁.doorTicket t.id).map (·.code)).getD unknownTicketId
    rw [hthere]
    rfl
  · dsimp only
    split
    · rename_i c hc
      refine Svc.wp_bind (wp_gateRead hq hd fun d₁ τ' d' hl hd' => ?_)
      refine Svc.wp_pure fun d'' h'' => ok _ _ _ (gate_later hd' h'') fun t ht => ?_
      obtain ⟨hthere, hcode⟩ := doorTicket_of_code ht
      refine ⟨(DoorTicket.of_doorTicket hthere).grows (grows_of_rely (hl.trans h'')), ?_⟩
      refine hasTicket_later (hl.trans h'') ⟨t, hthere, ?_⟩
      show t.code = scanLogInput _ (parseScanToken _)
      rw [hc, hcode]
      rfl
    · exact Svc.wp_pure fun d' h' => ok _ _ _ (gate_later hd h') (by simp)

theorem offlineTime_wp {Q : Option Time → List Obs → Db → Prop} (hd : Gate ctx d)
    (ok : ∀ r τ' d', Later d d' → Gate ctx d' → Q r τ' d') :
    (offlineTime ctx item).wp q Q (fun _ _ d' => Gate ctx d') τ d := by
  unfold offlineTime
  split
  · refine Svc.wp_bind (Svc.wp_now fun _ _ d' _ hi => Svc.wp_pure fun d'' h'' => ?_)
    exact ok _ _ _ (hi.later.trans h'') (gate_later hd (hi.later.trans h''))
  · exact Svc.wp_pure fun d' h' => ok _ _ _ h' (gate_later hd h')

theorem fresh_wp (hq : q.Plain) (hd : Gate ctx d) : (fresh ctx item).atGate q ctx τ d := by
  refine Svc.wp_bind (scanned_wp hq hd fun r τ₁ d₁ hd₁ hr => ?_)
  refine Svc.wp_bind (offlineTime_wp hd₁ fun offlineAt τ₂ d₂ hl₂ hd₂ => ?_)
  have done : ∀ {τ : List Obs} {d' : Db} {b : ScanResult}, Gate ctx d' →
      (pure b : Svc ScanResult).atGate q ctx τ d' :=
    fun hd' => Svc.wp_pure fun _ h => gate_later hd' h
  dsimp only
  split
  swap
  · exact Svc.wp_bind (logOnly_wp hq hd₂ (by simp) nofun fun _ _ => done)
  rename_i t ht
  obtain ⟨hof, hnames⟩ := hr t ht
  have hnames₂ := hasTicket_later hl₂ hnames
  have hlog : ∀ id, some t.id = some id → d₂.HasTicket id r.2 := by
    rintro _ ⟨⟩
    exact hnames₂
  refine Svc.wp_ite (fun _ => Svc.wp_bind (logOnly_wp hq hd₂ (by simp) hlog fun _ _ => done))
    fun _ => ?_
  refine Svc.wp_ite (fun _ => Svc.wp_bind (logOnly_wp hq hd₂ (by simp) hlog fun _ _ => done))
    fun _ => ?_
  refine Svc.wp_ite (fun _ => Svc.wp_bind (logOnly_wp hq hd₂ ?_ hlog fun _ _ => done)) fun _ => ?_
  · unfold wouldBe
    split_ifs <;> simp
  · exact checkIn_wp hq hd₂ (hof.grows (grows_of_rely hl₂)) hnames₂

theorem replay_wp {stored : DoorScan} (hq : q.Plain) (hd : Gate ctx d) :
    (replay ctx item stored).atGate q ctx τ d := by
  have done : ∀ {τ : List Obs} {d' : Db} {b : ScanResult}, Gate ctx d' →
      (pure b : Svc ScanResult).atGate q ctx τ d' :=
    fun hd' => Svc.wp_pure fun _ h => gate_later hd' h
  refine Svc.wp_ite (fun _ => done hd) fun _ => ?_
  split
  swap
  · exact done hd
  refine Svc.wp_bind (wp_gateRead hq hd fun d₁ τ₁ d' _ hd' => ?_)
  split
  swap
  · exact done hd'
  refine Svc.wp_ite (fun _ => done hd') fun _ => ?_
  split
  · refine Svc.wp_ite (fun _ => done hd') fun _ => ?_
    exact Svc.wp_bind (Svc.wp_now fun _ _ _ _ hi => done (gate_later hd' hi.later))
  all_goals exact done hd'

theorem scan_wp (hq : q.Plain) (hd : Gate ctx d) : (scan ctx item).atGate q ctx τ d := by
  refine Svc.wp_bind (wp_gateRead hq hd fun d₁ τ₁ d' _ hd' => ?_)
  split
  · exact replay_wp hq hd'
  refine Svc.wp_tryCatch (Svc.wp_mono (fun _ _ _ h _ h' => gate_later h h') (fun e τ₂ d₂ hd₂ => ?_)
    (fresh_wp hq hd'))
  have rethrow : ∀ {τ d}, Gate ctx d → (throw e : Svc ScanResult).atGate q ctx τ d :=
    fun hd => Svc.wp_throw fun _ h => gate_later hd h
  split
  · refine Svc.wp_bind (wp_gateRead hq hd₂ fun d₃ τ₃ d₄ _ hd₄ => ?_)
    split
    · exact replay_wp hq hd₄
    · exact rethrow hd₄
  · exact rethrow hd₂

theorem scanBatch_wp (hq : q.Plain) :
    ∀ {items : List ScanItem} {seen : List (Id × ScanResult)} {τ : List Obs} {d : Db},
      Gate ctx d → (scanBatch ctx items seen).atGate q ctx τ d
  | [], _, _, _, hd => Svc.wp_pure fun _ h => gate_later hd h
  | item :: items, seen, τ, d, hd => by
    have rest : ∀ {r τ' d'}, Gate ctx d' → Svc.atGate q ctx (do
        return r :: (← scanBatch ctx items ((item.scanId, r) :: seen))) τ' d' := fun hd' =>
      Svc.wp_bind (Svc.wp_mono (fun _ _ _ h => Svc.wp_pure fun _ h' => gate_later h h')
        (fun _ _ _ h => h) (scanBatch_wp hq hd'))
    unfold scanBatch
    rcases seen.lookup item.scanId with _ | r
    · exact Svc.wp_bind (Svc.wp_mono (fun _ _ _ h => rest h) (fun _ _ _ h => h) (scan_wp hq hd))
    · exact Svc.wp_pure_bind (rest hd)

theorem authenticate_wp {rawCode : String} {Q : Option DoorContext → List Obs → Db → Prop}
    {E : Err → List Obs → Db → Prop} (hq : ∀ τ, q.closed τ)
    (error : ∀ e τ' d', Idled τ d τ' d' → E e τ' d')
    (none : ∀ τ' d', Idled τ d τ' d' → Q none τ' d')
    (some : ∀ ctx τ' d', Idled τ d τ' d' → ctx.Of d' → Q (some ctx) τ' d') :
    (authenticate rawCode).wp q Q E τ d := by
  unfold authenticate
  split
  swap
  · exact Svc.wp_pure fun _ h => none _ _ (.wait h)
  refine Svc.wp_bind (Svc.wp_query (hq _) error fun d₁ τ₁ e₁ h₁ h₁' _ i₁ => ?_)
  split
  swap
  · exact Svc.wp_pure fun _ h => none _ _ (i₁.trans (.wait h))
  rename_i passId pass hp
  refine Svc.wp_ite (fun _ => Svc.wp_pure fun _ h => none _ _ (i₁.trans (.wait h))) fun _ => ?_
  refine Svc.wp_bind (Svc.wp_query (hq _) (fun e τ' d' hi => error e τ' d' (i₁.trans hi))
    fun d₂ τ₂ e₂ _ _ _ i₂ => ?_)
  split
  swap
  · exact Svc.wp_pure fun _ h => none _ _ (i₁.trans (i₂.trans (.wait h)))
  refine Svc.wp_ite (fun _ => Svc.wp_pure fun _ h => none _ _ (i₁.trans (i₂.trans (.wait h))))
    fun _ => ?_
  refine Svc.wp_bind (Svc.wp_now fun d₃ τ₃ e₃ _ i₃ => ?_)
  have hi := i₁.trans (i₂.trans i₃)
  refine Svc.wp_ite (fun _ => Svc.wp_pure fun _ h => none _ _ (hi.trans (.wait h))) fun _ => ?_
  refine Svc.wp_pure fun d' h => some _ _ _ (hi.trans (.wait h)) ?_
  obtain ⟨e, he, heq⟩ := Option.map_eq_some_iff.1 hp
  cases heq
  have hg : Grows d₁ d' := grows_of_rely (h₁'.trans (i₂.later.trans (i₃.later.trans h)))
  have hrow : d₁.doorPasses.lookup e.1 = Option.some e.2 :=
    AList.mem_lookup_iff.2 (List.mem_of_find?_eq_some he)
  obtain ⟨p, hp, hl, -⟩ := hg.pass hrow
  exact ⟨p, hp, hl⟩

theorem scansRoute_safe {passCode : String} {items : List ScanItem} (hq : q.Plain)
    (hd : Logged d) : (scansRoute passCode items).safe q τ d := by
  refine Svc.wp_bind (authenticate_wp hq.closed (fun _ _ _ _ => trivial)
    (fun _ _ _ => Svc.wp_pure fun _ _ => trivial) fun ctx τ' d' hi hof => ?_)
  exact Svc.wp_bind (Svc.wp_mono (fun _ _ _ _ => Svc.wp_pure fun _ _ => trivial)
    (fun _ _ _ _ => trivial) (scanBatch_wp hq ⟨logged_of_rely hi.later hd, hof⟩))

end Gate

end EchoAndAura
