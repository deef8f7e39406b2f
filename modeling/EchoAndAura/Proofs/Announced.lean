import EchoAndAura.Proofs.Admitted

/-!
# What the relay is told of an undo

Every undo is announced before its request answers.  At the door it is told with the time that
stood, read beside the ticket's event, type and order: type and order are always there
(`Db.Linked`).
-/

namespace EchoAndAura

open Txn (Lock writeAll Rely Telling)

variable {α β γ : Type} {q : Request} {d d' : Db}

section Linked

/-- Every ticket's type and order are there. -/
def Db.Linked (d : Db) : Prop :=
  ∀ id t, d.tickets.lookup id = some t →
    (d.ticketTypes.lookup t.ticketTypeId).isSome ∧ (d.orders.lookup t.orderId).isSome

variable {K : List (Lock Row)} {ws : List Write} {undone : List (Id × CheckIn)} {id : Id}
  {t : Ticket}

/-- A ticket that a commit adds is one its order is issued with. -/
theorem Effect.newTicket (h : Effect K d ws undone) (hnone : d.tickets.lookup id = none)
    (ht : (writeAll ws d).tickets.lookup id = some t) :
    ∃ orderId o rows, NewTickets d orderId o rows ∧ (id, t) ∈ rows ∧
      (d.ticketTypes.lookup o.ticketTypeId).isSome ∧
      ((writeAll ws d).orders.lookup orderId).isSome := by
  have mem : ∀ {orderId : Id} {o : Order} {rows : List (Id × Ticket)} {d' : Db},
      NewTickets d orderId o rows → d'.tickets = .insertAll rows d.tickets →
      d'.tickets.lookup id = some t → (id, t) ∈ rows := by
    intro orderId o rows d' hrows htickets hid
    rw [htickets] at hid
    by_cases hm : id ∈ rows.map (·.1)
    · obtain ⟨r, hr, rfl⟩ := List.mem_map.1 hm
      rw [Table.lookup_insertAll_of_mem _ hrows.nodup hr] at hid
      obtain rfl := Option.some.inj hid
      exact hr
    · rw [Table.lookup_insertAll_of_notMem _ hm, hnone] at hid
      cases hid
  have old : ∀ {id' : Id} {t' t'' : Ticket}, d.tickets.lookup id' = some t' →
      (d.tickets.insert id' t'').lookup id = none := by
    intro id' t' t'' hrow
    rw [AList.lookup_insert_ne, hnone]
    rintro rfl
    rw [hnone] at hrow
    cases hrow
  have undid : ∀ {undone : List Undone}, Standing d undone →
      (Table.insertAll (undoneRows undone) d.tickets).lookup id = none := by
    intro undone hs
    rw [lookup_undone_of_notMem, hnone]
    intro hm
    obtain ⟨u, hu, rfl⟩ := List.mem_map.1 hm
    rw [hs.row u hu] at hnone
    cases hnone
  have gone : ∀ {d' : Db} {T : Table Id Ticket}, d'.tickets = T →
      T.lookup id = none → d'.tickets.lookup id = some t → False := by
    intro d' tickets heq hn hs
    rw [heq, hn] at hs
    cases hs
  cases h with
  | nothing | tick | edit | hold | release | log | revoke => exact (gone rfl hnone ht).elim
  | submit =>
    refine (gone (T := d.tickets) ?_ hnone ht).elim
    simp [Txn.writeAll_append, writeAll_trxWrites, Write.apply]
  | @approve orderId o ty rows _ _ row _ _ type _ _ tickets =>
    refine ⟨orderId, o, rows, tickets, mem tickets ?_ ht, by rw [type]; rfl, ?_⟩
    all_goals simp [Txn.writeAll_append, writeAll_insertWrites, Write.apply]
  | @comp orderId o ty rows _ _ _ type _ _ _ _ _ tickets =>
    refine ⟨orderId, o, rows, tickets, mem tickets ?_ ht, by rw [type]; rfl, ?_⟩
    all_goals simp [Txn.writeAll_append, writeAll_insertWrites, Write.apply]
  | @cancelTicket _ t' ty e last row =>
    refine (gone (T := d.tickets.insert _ { t' with status := .cancelled }) ?_
      (old row) ht).elim
    cases last <;> rfl
  | rename row | undo row => exact (gone rfl (old row) ht).elim
  | letIn admission => exact (gone rfl (old admission.row) ht).elim
  | undoAll standing =>
    exact (gone (by rw [writeAll_undoWrites]) (undid standing) ht).elim
  | revokeAndUndo _ _ _ standing =>
    exact (gone (by rw [writeAll_cons, writeAll_undoWrites]; rfl) (undid standing) ht).elim

theorem Good.linked {τ : List Obs} (h : Good q τ (.commit K d d')) (hd : d.Linked) :
    d'.Linked := by
  intro id t ht
  have hg := h.grows
  obtain ⟨ws, undone, he, rfl, -⟩ := h
  rcases hid : d.tickets.lookup id with _ | t₀
  · obtain ⟨orderId, o, rows, hrows, hmem, htype, horder⟩ := he.newTicket hid ht
    obtain ⟨ho, hty, -⟩ := hrows.of_mem hmem
    rw [ho, hty]
    exact ⟨writeAll_ticketType ws d htype, horder⟩
  · obtain ⟨t', ht', horder, htype, -⟩ := hg.ticket hid
    obtain rfl := Option.some.inj (ht'.symm.trans ht)
    obtain ⟨hty, ho⟩ := hd id t₀ hid
    rw [htype, horder]
    refine ⟨writeAll_ticketType ws d hty, ?_⟩
    obtain ⟨o, ho⟩ := Option.isSome_iff_exists.1 ho
    obtain ⟨o', ho', -⟩ := hg.order ho
    rw [ho']
    rfl

end Linked

section Undos

open doorService

/-- A commit that takes check-ins back makes just these moves. -/
theorem TakesBack.made {undone : List (Id × CheckIn)} (h : TakesBack undone d d')
    (hc : q.commits d d') (hq : q.mails = false) (m : Move) :
    telling.makes m d d' ↔ ∃ u ∈ undone, m = .undone u.1 := by
  have out : ∀ u ∈ undone, (d.checkIn u.1).isSome ∧ d'.checkIn u.1 = none := by
    intro u hu
    obtain ⟨t, ht, hin, ht'⟩ := h.cleared u hu
    rw [Db.checkIn_of_lookup ht, Db.checkIn_of_lookup ht', hin]
    exact ⟨rfl, rfl⟩
  have kept : ∀ id, id ∉ undone.map (·.1) → d'.checkIn id = d.checkIn id := fun id hid => by
    rw [Db.checkIn, Db.checkIn, h.kept id hid]
  refine ⟨fun hm => ?_, ?_⟩
  · cases m with
    | order id s => exact absurd hm (hc.order hq id s)
    | checkedIn id =>
      obtain ⟨hout, hin⟩ := hm
      by_cases hid : id ∈ undone.map (·.1)
      · obtain ⟨u, hu, rfl⟩ := List.mem_map.1 hid
        rw [(out u hu).2] at hin
        cases hin
      · rw [kept id hid, hout] at hin
        cases hin
    | undone id =>
      obtain ⟨hin, hout⟩ := hm
      by_cases hid : id ∈ undone.map (·.1)
      · obtain ⟨u, hu, rfl⟩ := List.mem_map.1 hid
        exact ⟨u, hu, rfl⟩
      · rw [← kept id hid, hout] at hin
        cases hin
  · rintro ⟨u, hu, rfl⟩
    exact out u hu

/-- The ticket's event is there. -/
def Db.Dated (d : Db) (id : Id) : Prop :=
  ∃ t, d.tickets.lookup id = some t ∧ (d.events.lookup t.eventId).isSome

/-- One check-in taken back, and the time that goes on to be announced. -/
def TookOne (ticketId : Id) (at_ : Option Time) (d d' : Db) : Prop :=
  (∃ c, TakesBack [(ticketId, c)] d d') ∧ (d.Dated ticketId → at_.isSome)

theorem TookOne.made {ticketId : Id} {at_ : Option Time} (h : TookOne ticketId at_ d d')
    (hc : q.commits d d') (hq : q.mails = false) (m : Move) :
    telling.makes m d d' ↔ m = .undone ticketId := by
  obtain ⟨⟨c, h⟩, -⟩ := h
  rw [h.made hc hq]
  simp

/-- A ticket's event is the one it was issued for, and is there or not from the start. -/
theorem dated_of_rely {K : List (Lock Row)} {id : Id} {t : Ticket} (h : Rely Good K d d')
    (ht : d.tickets.lookup id = some t) (hd : d'.Dated id) :
    (d.events.lookup t.eventId).isSome := by
  have hkept := h.preserves (I := fun d' => d'.events = d.events ∧
    ∃ t', d'.tickets.lookup id = some t' ∧ t'.eventId = t.eventId)
    (fun q τ L d₁ d₂ hg hI => ?_) ⟨rfl, t, ht, rfl⟩
  · obtain ⟨hevents, t', ht', hevent⟩ := hkept
    obtain ⟨t'', ht'', hsome⟩ := hd
    obtain rfl := Option.some.inj (ht''.symm.trans ht')
    rwa [hevents, hevent] at hsome
  · obtain ⟨hevents, t', ht', hevent⟩ := hI
    obtain ⟨t'', ht'', -⟩ := hg.grows.ticket ht'
    obtain ⟨ws, undone, he, rfl, -⟩ := hg
    exact ⟨(writeAll_events ws d₁).trans hevents, t'', ht'',
      ((he.ticket id).event ht' ht'').trans hevent⟩

theorem undoOwnAdmitTx_tookOne {passId ticketId scanId : Id} {label : String}
    {reason : DoorUndoReason} {s : DoorScan} (hs : d.doorScans.lookup scanId = some s)
    (hl : d.Linked) :
    (undoOwnAdmitTx passId label ticketId scanId reason).commits (Rely Good) d'
      (fun at_ _ _ ws => TookOne ticketId at_ d' (writeAll ws d')) d [] [] := by
  refine commits_lockActivePass (fun _ => trivial) fun p _ _ => commits_reads fun d₀ h₀ h₁ => ?_
  refine commits_undoCheckIn (fun _ _ _ _ => trivial) fun t c ht hc hscan => commits_append ?_
  have audit : (undoneAtDoorEvent { t with checkIn := none } label reason).Is t.orderId
      .ticketCheckInUndone none none := ⟨rfl, rfl, rfl, rfl⟩
  refine ⟨⟨c, .one ht hc audit rfl⟩, fun hdated => ?_⟩
  have hin : d₀.checkIn ticketId = some c := (grows_of_rely h₁).checkIn
    (Db.checkIn_eq_some.2 ⟨t, ht, hc⟩) (hscan ▸ (grows_of_rely h₀).scan hs)
  obtain ⟨t₀, ht₀, hc₀⟩ := Db.checkIn_eq_some.1 hin
  obtain ⟨htype, horder⟩ := (h₀.preserves (fun _ _ _ _ _ hg => hg.linked) hl) ticketId t₀ ht₀
  obtain ⟨b, hb, -⟩ := hasTicket_iff.2 ⟨t₀, ht₀, rfl, htype, horder, dated_of_rely h₁ ht₀ hdated⟩
  obtain ⟨-, r, hr, -, -, hrc⟩ := doorTicket_row hb
  obtain rfl := Option.some.inj (hr.symm.trans ht₀)
  show ((d₀.doorTicket ticketId).bind (·.checkIn)).map (·.checkedInAt) |>.isSome
  rw [hb, Option.bind_some, ← hrc, hc₀]
  rfl

theorem undoCheckInAsAdminTx_tookOne {ticketId orderId scanId : Id} {reason actor : String}
    {s : DoorScan} (hs : d.doorScans.lookup scanId = some s) :
    (undoCheckInAsAdminTx ticketId orderId scanId reason actor).commits (Rely Good) d'
      (fun out _ _ ws => TookOne ticketId out.at_ d' (writeAll ws d')) d [] [] := by
  refine commits_reads fun d₀ h₀ h₁ => ?_
  split
  swap
  · trivial
  rename_i before hb
  dsimp only
  split
  · exact commits_throw _ _
  refine commits_undoCheckIn (fun _ _ _ _ => trivial) fun t c ht hc hscan => commits_append ?_
  have hbefore : before.checkIn = some c :=
    checkIn_read hb (hscan ▸ (grows_of_rely h₀).scan hs) (grows_of_rely h₁)
      (Db.checkIn_eq_some.2 ⟨t, ht, hc⟩)
  have audit : (undoneByAdminEvent { t with checkIn := none } before.checkIn reason actor).Is
      t.orderId .ticketCheckInUndone none none := ⟨rfl, rfl, rfl, rfl⟩
  have note : (undoneByAdminEvent { t with checkIn := none } before.checkIn reason actor).note =
      .undoneByAdmin t.code (some (c.checkedInAt, c.checkedInBy)) reason := by
    rw [hbefore]
    rfl
  refine ⟨⟨c, .one ht hc audit (by rw [note]; exact ⟨rfl, rfl⟩)⟩, fun _ => ?_⟩
  show (before.checkIn.map (·.checkedInAt)).isSome
  rw [hbefore]
  rfl

/-- Nothing due is left when `s` ends. -/
abbrev Svc.owesNothing (q : Request) (s : Svc α) (owed : Txn.Debt Move) (d : Db) : Prop :=
  s.tells q (fun _ owed _ => ∀ m, owed.must m = 0) (fun owed _ => ∀ m, owed.must m = 0) owed d

theorem Svc.pays.owesNothing {s : Svc α} {owed : Txn.Debt Move} (h : s.pays q owed d) :
    s.owesNothing q owed d := by
  refine Svc.tells_mono (fun _ owed' _ ho m => ?_) (fun owed' _ ho m => ?_) h
  all_goals
    obtain rfl : owed' = Telling.clear := ho
    rfl

theorem Svc.settles.owesNothing {s : Svc α} (h : s.settles q) :
    s.owesNothing q Telling.clear d :=
  Svc.pays.owesNothing (h d)

/-- What is to be told of one check-in taken back: by its announcement, or by nobody where the
ticket's event is not there. -/
theorem TookOne.pays {ticketId : Id} {at_ : Option Time} {d₁ d₂ : Db}
    (h : TookOne ticketId at_ d₁ d₂) (eventId : Id) (hc : q.commits d₁ d₂) (hq : q.mails = false) :
    (∀ t, at_ = some t → (Svc.say (.announce eventId (.undo ticketId t))).owesNothing q
      (telling.after Telling.clear d₁ d₂) d₂) ∧
    (at_ = none → ∀ m, (telling.after Telling.clear d₁ d₂).must m = 0) := by
  refine ⟨fun t _ => (Svc.pays_say rfl (h.made hc hq)).owesNothing, fun hat m => ?_⟩
  have hdue : ¬telling.due m d₁ d₂ := fun hm => by
    obtain rfl := (h.made hc hq m).1 (telling.due_makes hm)
    have := h.2 hm.2
    rw [hat] at this
    cases this
  simp [Telling.after, Telling.clear, hdue]

/-- A part that owes nothing when it ends, with what every commit keeps. -/
theorem Svc.owesNothing_bind {I : Db → Prop} {s : Svc α} {k : α → Svc β}
    (hI : ∀ q τ L d d', Good q τ (.commit L d d') → I d → I d') (hd : I d) (h : s.settles q)
    (hk : ∀ a d', I d' → (k a).owesNothing q Telling.clear d') :
    (s >>= k).owesNothing q Telling.clear d := by
  refine Svc.tells_bind (Svc.tells_mono (fun a owed d' ha => ?_) (fun owed d' he m => ?_)
    (Svc.tells_inv hI hd (h d)))
  · obtain ⟨rfl, hd'⟩ := ha
    exact hk a d' hd'
  · obtain ⟨rfl, -⟩ := he
    rfl

theorem undoRoute_owesNothing {passCode : String} {scanId : Id} {reason : DoorUndoReason}
    (hq : q.mails = false) (hl : d.Linked) :
    (undoRoute passCode scanId reason).owesNothing q Telling.clear d := by
  refine Svc.owesNothing_bind (fun _ _ _ _ _ hg => hg.linked) hl authenticate_settles
    fun found d₁ hl₁ => ?_
  split
  swap
  · exact Svc.tells_pure fun _ => rfl
  rename_i ctx
  refine Svc.tells_bind (Svc.tells_bind (Svc.tells_query (fun _ _ _ => rfl) fun d₂ d₃ h₂ h₃ => ?_))
  split
  swap
  · exact Svc.tells_throw fun _ => rfl
  rename_i scan hscan
  split
  swap
  · exact Svc.tells_throw fun _ => rfl
  rename_i ticketId _
  have hs₃ := (grows_of_rely h₃).scan hscan
  have h₁₃ : Later d₁ d₃ := h₂.trans h₃
  have hl₃ : d₃.Linked := h₁₃.preserves (fun _ _ _ _ _ hg => hg.linked) hl₁
  refine Svc.tells_ite (fun _ => Svc.tells_throw_bind fun _ => rfl) fun _ => ?_
  refine Svc.tells_ite (fun _ => Svc.tells_throw_bind fun _ => rfl) fun _ => ?_
  refine Svc.tells_bind (Svc.tells_now fun d₄ h₄ => ?_)
  refine Svc.tells_ite (fun _ => Svc.tells_throw_bind fun _ => rfl) fun _ => ?_
  refine Svc.tells_bind (Svc.tells_transaction (TookOne ticketId)
    (fun d' h' => ?_) (fun _ _ _ => rfl) fun at_ d₅ d₆ _ hc h => ?_)
  · exact undoOwnAdmitTx_tookOne ((grows_of_rely h₄).scan hs₃)
      (h₄.preserves (fun _ _ _ _ _ hg => hg.linked) hl₃)
  obtain ⟨hsome, hnone⟩ := h.pays ctx.eventId hc hq
  split
  · rename_i t
    exact Svc.tells_mono (fun _ _ _ ho => Svc.tells_pure ho) (fun _ _ ho => ho) (hsome t rfl)
  · rename_i hne
    refine Svc.tells_pure (Svc.tells_pure (hnone ?_))
    rcases hat : at_ with _ | t
    · rfl
    · exact absurd hat (hne t)

theorem undoCheckInAction_owesNothing {form : UndoForm} (hq : q.mails = false) (hd : Logged d) :
    (undoCheckInAction form).owesNothing q Telling.clear d := by
  refine Svc.tells_bind (Svc.tells_query (fun _ _ _ => rfl) fun d₁ d₂ h₁ h₂ => ?_)
  split
  swap
  · exact Svc.tells_pure fun _ => rfl
  rename_i t ht
  split
  swap
  · exact Svc.tells_pure fun _ => rfl
  rename_i shown hshown
  obtain ⟨s, hs, -⟩ := logged_of_rely h₁ hd _ _ (shown_checkIn ht hshown)
  refine Svc.tells_bind (Svc.tells_bind (Svc.tells_transaction
    (fun out => TookOne form.ticketId out.at_) (fun d' h' => undoCheckInAsAdminTx_tookOne
      ((grows_of_rely h₂).scan hs)) (fun _ _ _ => rfl) fun out d₃ d₄ _ hc h => ?_))
  obtain ⟨hsome, hnone⟩ := h.pays out.eventId hc hq
  obtain ⟨code, eventId, at_⟩ := out
  dsimp only at hsome hnone ⊢
  split
  · rename_i t
    exact Svc.tells_bind (Svc.tells_mono (fun _ _ _ ho => Svc.tells_pure (Svc.tells_pure ho))
      (fun _ _ ho => ho) (hsome t rfl))
  · rename_i hne
    refine Svc.tells_pure (Svc.tells_pure (hnone ?_))
    rcases hat : at_ with _ | t
    · rfl
    · exact absurd hat (hne t)

end Undos

section Revoked

open doorService

/-- What is owed while the undos of a revocation are announced, these still to come. -/
structure OwesUndos (listed : List PassCheckIn) (owed : Txn.Debt Move) : Prop where
  may : ∀ t ∈ listed, 0 < owed.may (.undone t.id)
  must : ∀ m, owed.must m ≤ 1
  only : ∀ m, 0 < owed.must m → ∃ t ∈ listed, m = .undone t.id

theorem OwesUndos.less {t : PassCheckIn} {listed : List PassCheckIn} {owed : Txn.Debt Move}
    (h : OwesUndos (t :: listed) owed) (hn : t.id ∉ listed.map (·.id)) :
    OwesUndos listed (Telling.less owed (.undone t.id)) where
  may u hu := by
    have hne : Move.undone u.id ≠ .undone t.id := fun he =>
      hn (List.mem_map.2 ⟨u, hu, Move.undone.inj he⟩)
    simp only [Telling.less, if_neg hne]
    exact h.may u (List.mem_cons_of_mem t hu)
  must m := by
    simp only [Telling.less]
    have := h.must m
    split_ifs
    · omega
    · exact this
  only m hm := by
    simp only [Telling.less] at hm
    have := h.must m
    split_ifs at hm with hmt
    · omega
    · obtain ⟨u, hu, rfl⟩ := h.only m hm
      rcases List.mem_cons.1 hu with rfl | hu
      · exact absurd rfl hmt
      · exact ⟨u, hu, rfl⟩

theorem announceUndone_pays {eventId : Id} :
    ∀ {listed : List PassCheckIn} {owed : Txn.Debt Move}, (listed.map (·.id)).Nodup →
      OwesUndos listed owed → (announceUndone eventId listed).owesNothing q owed d
  | [], owed, _, h => Svc.tells_pure fun m => by
    by_contra hm
    obtain ⟨t, ht, -⟩ := h.only m (Nat.pos_of_ne_zero hm)
    cases ht
  | t :: listed, owed, hn, h => by
    rw [List.map_cons, List.nodup_cons] at hn
    exact Svc.tells_bind (Svc.tells_say rfl (h.may t List.mem_cons_self)
      (announceUndone_pays hn.2 (h.less hn.1)))

theorem Revoked.owes {passId : Id} {listed : List PassCheckIn} {undone : List (Id × CheckIn)}
    (h : Revoked passId listed undone d d') (hc : q.commits d d') (hq : q.mails = false) :
    (listed.map (·.id)).Nodup ∧ OwesUndos listed (telling.after Telling.clear d d') := by
  have hids : undone.map (·.1) = listed.map (·.id) := by
    have := congrArg (List.map Prod.fst) h.listed
    simpa [Function.comp_def] using this
  have hmakes : ∀ m, telling.makes m d d' ↔ ∃ t ∈ listed, m = .undone t.id := by
    intro m
    rw [h.takes.made hc hq]
    have hmem : ∀ id, (∃ u ∈ undone, u.1 = id) ↔ ∃ t ∈ listed, t.id = id := fun id => by
      rw [← List.mem_map, hids, List.mem_map]
    constructor
    · rintro ⟨u, hu, rfl⟩
      obtain ⟨t, ht, heq⟩ := (hmem u.1).1 ⟨u, hu, rfl⟩
      exact ⟨t, ht, by rw [heq]⟩
    · rintro ⟨t, ht, rfl⟩
      obtain ⟨u, hu, heq⟩ := (hmem t.id).2 ⟨t, ht, rfl⟩
      exact ⟨u, hu, by rw [heq]⟩
  refine ⟨hids ▸ h.takes.nodup, fun t ht => ?_, fun m => ?_, fun m hm => ?_⟩
  · simp [Telling.after, Telling.clear, (hmakes _).2 ⟨t, ht, rfl⟩]
  · simp only [Telling.after, Telling.clear]
    split_ifs
    · exact Nat.le_refl _
    · exact Nat.zero_le _
  · simp only [Telling.after, Telling.clear] at hm
    split_ifs at hm with hdue
    · exact (hmakes m).1 (telling.due_makes hdue)
    · omega

theorem revokeAndUndo_owesNothing {eventId passId : Id} {reason actor : String}
    (hq : q.mails = false) (hd : Logged d) :
    (revokeAndUndo eventId passId reason actor).owesNothing q Telling.clear d := by
  refine Svc.tells_bind (Svc.tells_mono (fun pass owed d₁ h => ?_) (fun owed _ h m => ?_)
    passOfEvent_tells)
  swap
  · obtain rfl : owed = Telling.clear := h
    rfl
  obtain ⟨rfl, h₁, hpass⟩ := h
  obtain ⟨p, hp⟩ := Option.isSome_iff_exists.1 hpass
  refine Svc.tells_bind (Svc.tells_transaction
    (fun listed d d' => ∃ undone, Revoked passId listed undone d d') (fun d' h' => ?_)
    (fun _ _ _ => rfl) fun listed d₂ d₃ _ hc h => ?_)
  · exact Txn.Tx.commits_mono (fun listed _ K ws hp => hp.imp fun _ h => h.2)
      (revokeAndUndoTx_commits hp (logged_of_rely h₁ hd))
  obtain ⟨undone, h⟩ := h
  obtain ⟨hn, howes⟩ := h.owes hc hq
  refine Svc.tells_bind (Svc.tells_mono (fun _ owed d₄ ho => ?_) (fun _ _ h => h.elim)
    announceRevoke_pays)
  obtain rfl : owed = telling.after Telling.clear d₂ d₃ := ho
  exact Svc.tells_bind (Svc.tells_mono (fun _ _ _ ho => Svc.tells_pure ho) (fun _ _ ho => ho)
    (announceUndone_pays hn howes))

end Revoked

end EchoAndAura
