import EchoAndAura.Proofs.Commits

/-!
# Rows

What an `Effect` does to each table, row by row: a ticket makes one of five moves, a pass can only
be revoked, a scan is logged once, and the rest of what a row says is fixed for good (`Grows`).
-/

namespace EchoAndAura

open Txn (Lock writeAll)

variable {K : List (Lock Row)} {d d' : Db} {ws : List Write} {undone : List (Id × CheckIn)}

section Issue

theorem insertViolation_none {e : Err} :
    ∀ {rows earlier : List (Id × Ticket)},
      ticketsRepository.insertViolation d e earlier rows = none →
      (rows.map (·.1)).Nodup ∧ (rows.map (·.2.code)).Nodup ∧
        ∀ r ∈ rows, d.tickets.lookup r.1 = none ∧ d.ticketCodes.lookup r.2.code = none ∧
          r.1 ∉ earlier.map (·.1) ∧ r.2.code ∉ earlier.map (·.2.code)
  | [], _, _ => by simp
  | r :: rows, earlier, h => by
    simp only [ticketsRepository.insertViolation] at h
    split at h
    · cases h
    split_ifs at h with h₁ h₂ h₃
    obtain ⟨hid, hcode, hrows⟩ := insertViolation_none h
    simp only [Bool.or_eq_true, Option.isSome_iff_ne_none, List.any_eq_true, beq_iff_eq, not_or,
      not_not, not_exists, not_and] at h₁ h₂
    refine ⟨?_, ?_, ?_⟩
    · simp only [List.map_cons, List.nodup_cons]
      refine ⟨fun hm => ?_, hid⟩
      obtain ⟨r', hr', heq⟩ := List.mem_map.1 hm
      exact (hrows r' hr').2.2.1 (by simp [heq])
    · simp only [List.map_cons, List.nodup_cons]
      refine ⟨fun hm => ?_, hcode⟩
      obtain ⟨r', hr', heq⟩ := List.mem_map.1 hm
      exact (hrows r' hr').2.2.2 (by simp [heq])
    · intro r' hr'
      rcases List.mem_cons.1 hr' with rfl | hr'
      · refine ⟨h₁.1, h₂.1, fun hm => ?_, fun hm => ?_⟩
        · obtain ⟨e', he', heq⟩ := List.mem_map.1 hm
          exact h₁.2 e' he' heq
        · obtain ⟨e', he', heq⟩ := List.mem_map.1 hm
          exact h₂.2 e' he' heq
      · obtain ⟨hf, hc, he, hce⟩ := hrows r' hr'
        simp only [List.map_cons, List.mem_cons, not_or] at he hce
        exact ⟨hf, hc, he.2, hce.2⟩

variable {orderId : Id} {o : Order} {rows : List (Id × Ticket)}

theorem NewTickets.of_mem (h : NewTickets d orderId o rows) {r : Id × Ticket} (hr : r ∈ rows) :
    r.2.orderId = orderId ∧ r.2.ticketTypeId = o.ticketTypeId ∧ r.2.status = .issued ∧
      r.2.checkIn = none := by
  obtain ⟨draw, rfl⟩ := h.drawn
  obtain ⟨i, hi, rfl⟩ := List.mem_mapIdx.1 hr
  exact ⟨rfl, rfl, rfl, rfl⟩

theorem NewTickets.length (h : NewTickets d orderId o rows) : (rows.length : Int) = o.quantity := by
  obtain ⟨draw, rfl⟩ := h.drawn
  rw [fulfilmentService.newTickets, List.length_mapIdx]
  exact h.names

theorem NewTickets.nodup (h : NewTickets d orderId o rows) : (rows.map (·.1)).Nodup := by
  obtain ⟨e, he⟩ := h.free
  exact (insertViolation_none he).1

theorem NewTickets.nodup_codes (h : NewTickets d orderId o rows) :
    (rows.map (·.2.code)).Nodup := by
  obtain ⟨e, he⟩ := h.free
  exact (insertViolation_none he).2.1

theorem NewTickets.fresh (h : NewTickets d orderId o rows) {r : Id × Ticket} (hr : r ∈ rows) :
    d.tickets.lookup r.1 = none ∧ d.ticketCodes.lookup r.2.code = none := by
  obtain ⟨e, he⟩ := h.free
  obtain ⟨h₁, h₂, -⟩ := (insertViolation_none he).2.2 r hr
  exact ⟨h₁, h₂⟩

end Issue

section Ticket

theorem undoneRows_keys (undone : List Undone) :
    (undoneRows undone).map (·.1) = undone.map (·.listed.id) := by
  simp [undoneRows, Function.comp_def]

theorem Standing.lookup {undone : List Undone} (h : Standing d undone) {u : Undone}
    (hu : u ∈ undone) (t : Table Id Ticket) :
    (Table.insertAll (undoneRows undone) t).lookup u.listed.id =
      some { u.row with checkIn := none } :=
  Table.lookup_insertAll_of_mem t
    (undoneRows_keys undone ▸ h.nodup) (List.mem_map.2 ⟨u, hu, rfl⟩)

theorem lookup_undone_of_notMem {undone : List Undone} {id : Id}
    (hid : id ∉ undone.map (·.listed.id)) (t : Table Id Ticket) :
    (Table.insertAll (undoneRows undone) t).lookup id = t.lookup id :=
  Table.lookup_insertAll_of_notMem t (undoneRows_keys undone ▸ hid)

theorem Standing.move {undone : List Undone} (h : Standing d undone)
    (ht : d'.tickets = .insertAll (undoneRows undone) d.tickets) (id : Id) :
    TicketMove K d d' (undone.map fun u => (u.listed.id, u.checkIn)) id := by
  by_cases hm : id ∈ undone.map (·.listed.id)
  · obtain ⟨u, hu, rfl⟩ := List.mem_map.1 hm
    refine .undone (h.row u hu) (h.checkIn u hu) (ht ▸ h.lookup hu _) fun c => ⟨fun hc => ?_, ?_⟩
    · obtain ⟨u', hu', heq⟩ := List.mem_map.1 hc
      obtain rfl := List.inj_on_of_nodup_map h.nodup hu' hu (congrArg Prod.fst heq)
      exact (congrArg Prod.snd heq).symm
    · rintro rfl
      exact List.mem_map.2 ⟨u, hu, rfl⟩
  · refine .same (ht ▸ lookup_undone_of_notMem hm _) fun c hc => hm ?_
    obtain ⟨u, hu, heq⟩ := List.mem_map.1 hc
    exact List.mem_map.2 ⟨u, hu, congrArg Prod.fst heq⟩

theorem NewTickets.move {orderId : Id} {o : Order} {rows : List (Id × Ticket)}
    (h : NewTickets d orderId o rows) (ht : d'.tickets = .insertAll rows d.tickets) (id : Id) :
    TicketMove K d d' [] id := by
  by_cases hm : id ∈ rows.map (·.1)
  · obtain ⟨r, hr, rfl⟩ := List.mem_map.1 hm
    refine .issued (h.fresh hr).1 ?_ (h.of_mem hr).2.2.1 (h.of_mem hr).2.2.2 (by simp)
    rw [ht]
    exact Table.lookup_insertAll_of_mem _ h.nodup hr
  · refine .same ?_ (by simp)
    rw [ht]
    exact Table.lookup_insertAll_of_notMem _ hm

/-- One ticket's change among unchanged others. -/
theorem TicketMove.of_insert {id : Id} {t : Ticket} (h : d'.tickets = d.tickets.insert id t)
    (hu : ∀ id' c, (id', c) ∈ undone → id' = id) (hid : TicketMove K d d' undone id) (id' : Id) :
    TicketMove K d d' undone id' := by
  by_cases hne : id' = id
  · exact hne ▸ hid
  · refine .same ?_ fun c hc => hne (hu id' c hc)
    rw [h]
    exact AList.lookup_insert_ne hne

theorem Effect.ticket (h : Effect K d ws undone) (id : Id) :
    TicketMove K d (writeAll ws d) undone id := by
  cases h with
  | nothing | tick | edit | hold | release | log | revoke =>
    exact .same rfl (by simp)
  | submit =>
    refine .same ?_ (by simp)
    simp [Txn.writeAll_append, writeAll_trxWrites, Write.apply]
  | approve _ _ _ _ _ _ tickets =>
    refine tickets.move ?_ id
    simp [Txn.writeAll_append, writeAll_insertWrites, Write.apply]
  | comp _ _ _ _ _ _ _ _ tickets =>
    refine tickets.move ?_ id
    simp [Txn.writeAll_append, writeAll_insertWrites, Write.apply]
  | @cancelTicket id' t ty e last row status out =>
    have ht : (writeAll ([.ticket id' { t with status := .cancelled },
        .ticketType t.ticketTypeId (ty.releaseSold 1), .orderEvent e] ++
        (last.map fun l => [Write.order t.orderId { l.1 with status := .cancelled },
          .orderEvent l.2]).getD []) d).tickets =
        d.tickets.insert id' { t with status := .cancelled } := by
      cases last <;> rfl
    refine .of_insert ht (by simp) (.cancelled row status out ?_ (by simp)) id
    rw [ht]
    exact AList.lookup_insert _
  | rename row status =>
    exact .of_insert rfl (by simp) (.renamed row status (AList.lookup_insert _) (by simp)) id
  | letIn admission =>
    exact .of_insert rfl (by simp)
      (.admitted admission (AList.lookup_insert _) (AList.lookup_insert _) (by simp)) id
  | undo row checkIn =>
    exact .of_insert rfl (by simp) (.undone row checkIn (AList.lookup_insert _) (by simp)) id
  | undoAll standing => exact standing.move (by rw [writeAll_undoWrites]) id
  | revokeAndUndo _ _ _ standing =>
    exact standing.move (by rw [writeAll_cons, writeAll_undoWrites]; rfl) id

end Ticket

section Issued

theorem issuedOf_iff {orderId id : Id} : d.IssuedOf orderId id ↔
    (d.tickets.lookup id).map (fun t => (t.orderId, t.status)) = some (orderId, .issued) := by
  simp [Db.IssuedOf]

theorem issuedOf_congr {orderId id : Id}
    (h : (d'.tickets.lookup id).map (fun t => (t.orderId, t.status)) =
      (d.tickets.lookup id).map fun t => (t.orderId, t.status)) :
    d'.IssuedOf orderId id ↔ d.IssuedOf orderId id := by
  rw [issuedOf_iff, issuedOf_iff, h]

theorem issuedOf_insert {orderId id id' : Id} {t t' : Ticket}
    (h : d'.tickets = d.tickets.insert id' t') (ht : d.tickets.lookup id' = some t)
    (hid : t'.orderId = t.orderId) (hs : t'.status = t.status) :
    d'.IssuedOf orderId id ↔ d.IssuedOf orderId id := by
  refine issuedOf_congr ?_
  rw [h, Table.lookup_insert_eq]
  split_ifs with heq
  · subst heq
    simp [ht, hid, hs]
  · rfl

theorem Standing.issuedOf {undone : List Undone} (h : Standing d undone)
    (ht : d'.tickets = .insertAll (undoneRows undone) d.tickets) {orderId id : Id} :
    d'.IssuedOf orderId id ↔ d.IssuedOf orderId id := by
  refine issuedOf_congr ?_
  by_cases hm : id ∈ undone.map (·.listed.id)
  · obtain ⟨u, hu, rfl⟩ := List.mem_map.1 hm
    rw [ht, h.lookup hu, h.row u hu]
    rfl
  · rw [ht, lookup_undone_of_notMem hm]

theorem NewTickets.issuedOf {orderId' : Id} {o : Order} {rows : List (Id × Ticket)}
    (h : NewTickets d orderId' o rows) (ht : d'.tickets = .insertAll rows d.tickets)
    {orderId id : Id} (hne : orderId ≠ orderId') :
    d'.IssuedOf orderId id ↔ d.IssuedOf orderId id := by
  by_cases hm : id ∈ rows.map (·.1)
  · obtain ⟨r, hr, rfl⟩ := List.mem_map.1 hm
    rw [issuedOf_iff, issuedOf_iff, ht, Table.lookup_insertAll_of_mem _ h.nodup hr, (h.fresh hr).1]
    simp [(h.of_mem hr).1, Ne.symm hne]
  · refine issuedOf_congr ?_
    rw [ht, Table.lookup_insertAll_of_notMem _ hm]

/-- Beside a lock on an order, its standing tickets stay as they are. -/
theorem Effect.issuedOf (h : Effect K d ws undone) {orderId : Id} {o : Order}
    (ho : d.orders.lookup orderId = some o) (hK : (Row.order orderId, Txn.Mode.excl) ∉ K) (id : Id) :
    (writeAll ws d).IssuedOf orderId id ↔ d.IssuedOf orderId id := by
  cases h with
  | nothing | tick | edit | hold | release | log | revoke => exact .rfl
  | submit =>
    refine issuedOf_congr ?_
    simp [Txn.writeAll_append, writeAll_trxWrites, Write.apply]
  | @approve id' _ _ _ _ _ row _ lock _ _ _ tickets =>
    refine tickets.issuedOf ?_ fun heq => hK (heq ▸ lock)
    simp [Txn.writeAll_append, writeAll_insertWrites, Write.apply]
  | @comp id' _ _ _ _ fresh _ _ _ _ _ _ _ tickets =>
    refine tickets.issuedOf ?_ fun heq => ?_
    · simp [Txn.writeAll_append, writeAll_insertWrites, Write.apply]
    · rw [← heq, ho] at fresh
      cases fresh
  | @cancelTicket id' t ty e last row _ _ _ _ lock =>
    have ht : (writeAll ([.ticket id' { t with status := .cancelled },
        .ticketType t.ticketTypeId (ty.releaseSold 1), .orderEvent e] ++
        (last.map fun l => [Write.order t.orderId { l.1 with status := .cancelled },
          .orderEvent l.2]).getD []) d).tickets =
        d.tickets.insert id' { t with status := .cancelled } := by
      cases last <;> rfl
    rw [issuedOf_cancel ht]
    refine ⟨fun h => h.2, fun h => ⟨?_, h⟩⟩
    rintro rfl
    obtain ⟨t', ht', horder, -⟩ := h
    obtain rfl := Option.some.inj (ht'.symm.trans row)
    exact hK (horder ▸ lock)
  | rename row => exact issuedOf_insert rfl row rfl rfl
  | letIn admission => exact issuedOf_insert rfl admission.row rfl rfl
  | undo row => exact issuedOf_insert rfl row rfl rfl
  | undoAll standing => exact standing.issuedOf (by rw [writeAll_undoWrites])
  | revokeAndUndo _ _ _ standing =>
    exact standing.issuedOf (by rw [writeAll_cons, writeAll_undoWrites]; rfl)

end Issued

section Moves

theorem Effect.scans (h : Effect K d ws undone) : ScanMove K d (writeAll ws d) := by
  cases h with
  | nothing | tick | edit | hold | release | rename | revoke | undo => exact .same rfl
  | submit => exact .same (by simp [Txn.writeAll_append, writeAll_trxWrites, Write.apply])
  | approve => exact .same (by simp [Txn.writeAll_append, writeAll_insertWrites, Write.apply])
  | comp => exact .same (by simp [Txn.writeAll_append, writeAll_insertWrites, Write.apply])
  | @cancelTicket _ _ _ _ last => cases last <;> exact .same rfl
  | letIn admission _ _ names => exact .admitted admission names rfl rfl
  | log fresh result pass names => exact .logged fresh result pass names rfl rfl
  | undoAll => exact .same (by rw [writeAll_undoWrites])
  | revokeAndUndo => exact .same (by rw [writeAll_cons, writeAll_undoWrites]; rfl)

theorem Effect.passes (h : Effect K d ws undone) : (writeAll ws d).doorPasses = d.doorPasses ∨
    ∃ id p time, d.doorPasses.lookup id = some p ∧ p.revokedAt = none ∧ (Row.pass id, .excl) ∈ K ∧
      (writeAll ws d).doorPasses = d.doorPasses.insert id { p with revokedAt := some time } := by
  cases h with
  | nothing | tick | edit | hold | release | rename | letIn | log | undo => exact .inl rfl
  | submit => exact .inl (by simp [Txn.writeAll_append, writeAll_trxWrites, Write.apply])
  | approve => exact .inl (by simp [Txn.writeAll_append, writeAll_insertWrites, Write.apply])
  | comp => exact .inl (by simp [Txn.writeAll_append, writeAll_insertWrites, Write.apply])
  | @cancelTicket _ _ _ _ last => cases last <;> exact .inl rfl
  | revoke row active lock => exact .inr ⟨_, _, _, row, active, lock, rfl⟩
  | undoAll => exact .inl (by rw [writeAll_undoWrites])
  | revokeAndUndo row active lock =>
    exact .inr ⟨_, _, _, row, active, lock, by rw [writeAll_cons, writeAll_undoWrites]; rfl⟩

theorem order_of_insert {id id' : Id} {o : Order} (o₁ : Order) (hid : d.orders.lookup id = some o)
    (h : d'.orders = d.orders.insert id' o₁)
    (hkeep : ∀ o, d.orders.lookup id' = some o →
      o₁.ticketTypeId = o.ticketTypeId ∧ o₁.quantity = o.quantity) :
    ∃ o', d'.orders.lookup id = some o' ∧ o'.ticketTypeId = o.ticketTypeId ∧
      o'.quantity = o.quantity := by
  rw [h, Table.lookup_insert_eq]
  split_ifs with heq
  · subst heq
    exact ⟨o₁, rfl, hkeep o hid⟩
  · exact ⟨o, hid, rfl, rfl⟩

@[simp] theorem OrderPatch.apply_ticketTypeId (p : OrderPatch) (st : OrderStatus) (o : Order) :
    (p.apply st o).ticketTypeId = o.ticketTypeId := by
  unfold OrderPatch.apply
  split <;> split <;> rfl

@[simp] theorem OrderPatch.apply_quantity (p : OrderPatch) (st : OrderStatus) (o : Order) :
    (p.apply st o).quantity = o.quantity := by
  unfold OrderPatch.apply
  split <;> split <;> rfl

@[simp] theorem OrderPatch.apply_status (p : OrderPatch) (st : OrderStatus) (o : Order) :
    (p.apply st o).status = st := by
  unfold OrderPatch.apply
  split <;> split <;> rfl

theorem Effect.order (h : Effect K d ws undone) {id : Id} {o : Order}
    (ho : d.orders.lookup id = some o) : ∃ o', (writeAll ws d).orders.lookup id = some o' ∧
      o'.ticketTypeId = o.ticketTypeId ∧ o'.quantity = o.quantity := by
  have keep : ∀ {id' : Id} {o₂ o₁ : Order}, d.orders.lookup id' = some o₂ →
      o₁.ticketTypeId = o₂.ticketTypeId → o₁.quantity = o₂.quantity → ∀ o₃,
        d.orders.lookup id' = some o₃ →
          o₁.ticketTypeId = o₃.ticketTypeId ∧ o₁.quantity = o₃.quantity := by
    intro id' o₂ o₁ h₂ ht hq o₃ h₃
    obtain rfl := Option.some.inj (h₂.symm.trans h₃)
    exact ⟨ht, hq⟩
  have new : ∀ {id' : Id} {o₁ : Order}, d.orders.lookup id' = none → ∀ o₃,
      d.orders.lookup id' = some o₃ →
        o₁.ticketTypeId = o₃.ticketTypeId ∧ o₁.quantity = o₃.quantity := by
    intro id' o₁ h₁ o₃ h₃
    simp [h₁] at h₃
  cases h with
  | nothing | tick | edit | rename | letIn | log | undo | revoke => exact ⟨o, ho, rfl, rfl⟩
  | hold fresh => exact order_of_insert _ ho rfl (new fresh)
  | @submit _ o₁ _ patch row =>
    refine order_of_insert (patch.apply .pendingVerification o₁) ho ?_
      (keep row (by simp) (by simp))
    simp [Txn.writeAll_append, writeAll_trxWrites, Write.apply]
  | release row =>
    exact order_of_insert _ ho rfl (keep row (OrderPatch.apply_ticketTypeId _ _ _)
      (OrderPatch.apply_quantity _ _ _))
  | @approve _ o₁ _ _ _ _ row =>
    refine order_of_insert { o₁ with status := .issued } ho ?_ (keep row rfl rfl)
    simp [Txn.writeAll_append, writeAll_insertWrites, Write.apply]
  | @comp _ o₁ _ _ _ fresh =>
    refine order_of_insert o₁ ho ?_ (new fresh)
    simp [Txn.writeAll_append, writeAll_insertWrites, Write.apply]
  | @cancelTicket _ _ _ _ last _ _ _ _ _ _ _ _ _ order =>
    cases last with
    | none => exact ⟨o, ho, rfl, rfl⟩
    | some l => exact order_of_insert _ ho rfl (keep (order l rfl).1 rfl rfl)
  | undoAll => exact ⟨o, by rw [writeAll_undoWrites]; exact ho, rfl, rfl⟩
  | revokeAndUndo =>
    exact ⟨o, by rw [writeAll_cons, writeAll_undoWrites]; exact ho, rfl, rfl⟩

end Moves

section Grows

theorem Db.checkIn_of_lookup {id : Id} {t : Ticket} (h : d.tickets.lookup id = some t) :
    d.checkIn id = t.checkIn := by
  simp [Db.checkIn, h]

theorem Db.checkIn_eq_some {id : Id} {c : CheckIn} :
    d.checkIn id = some c ↔ ∃ t, d.tickets.lookup id = some t ∧ t.checkIn = some c := by
  simp [Db.checkIn, Option.bind_eq_some_iff]

theorem Grows.refl (d : Db) : Grows d d where
  order h := ⟨_, h, rfl, rfl⟩
  ticket h := ⟨_, h, rfl, rfl, rfl⟩
  pass h := ⟨_, h, rfl, fun _ => rfl⟩
  scan h := h
  checkIn h _ := h

theorem Grows.trans {d d' d'' : Db} (h : Grows d d') (h' : Grows d' d'') : Grows d d'' where
  order ho := by
    obtain ⟨o', ho', ht, hq⟩ := h.order ho
    obtain ⟨o'', ho'', ht', hq'⟩ := h'.order ho'
    exact ⟨o'', ho'', ht'.trans ht, hq'.trans hq⟩
  ticket ht := by
    obtain ⟨t', ht', h₁, h₂, h₃⟩ := h.ticket ht
    obtain ⟨t'', ht'', h₁', h₂', h₃'⟩ := h'.ticket ht'
    exact ⟨t'', ht'', h₁'.trans h₁, h₂'.trans h₂, h₃'.trans h₃⟩
  pass hp := by
    obtain ⟨p', hp', hl, hr⟩ := h.pass hp
    obtain ⟨p'', hp'', hl', hr'⟩ := h'.pass hp'
    refine ⟨p'', hp'', hl'.trans hl, fun hs => ?_⟩
    obtain rfl := hr hs
    exact hr' hs
  scan hs := h'.scan (h.scan hs)
  checkIn hc hs := h.checkIn (h'.checkIn hc (h.scan hs)) hs

theorem TicketMove.grows {id : Id} {t : Ticket} (h : TicketMove K d d' undone id)
    (ht : d.tickets.lookup id = some t) : ∃ t', d'.tickets.lookup id = some t' ∧
      t'.orderId = t.orderId ∧ t'.ticketTypeId = t.ticketTypeId ∧ t'.code = t.code := by
  cases h with
  | same row => exact ⟨t, row.trans ht, rfl, rfl, rfl⟩
  | issued fresh => simp [ht] at fresh
  | cancelled row _ _ row' | undone row _ row' | renamed row _ row' =>
    obtain rfl := Option.some.inj (row.symm.trans ht)
    exact ⟨_, row', rfl, rfl, rfl⟩
  | admitted admission row' =>
    obtain rfl := Option.some.inj (admission.row.symm.trans ht)
    exact ⟨_, row', rfl, rfl, rfl⟩

/-- A check-in found after a commit was there before, or is the one it made. -/
theorem TicketMove.checkIn {id : Id} {c : CheckIn} (h : TicketMove K d d' undone id)
    (hc : d'.checkIn id = some c) : d.checkIn id = some c ∨
      ∃ t s, Admission K d id t c s ∧ d'.doorScans.lookup c.checkedInScanId = some s := by
  cases h with
  | same row => exact .inl (by simpa only [Db.checkIn, row] using hc)
  | issued _ row _ out => simp [Db.checkIn, row, out] at hc
  | cancelled _ _ out row' => simp [Db.checkIn, row', out] at hc
  | undone _ _ row' => simp [Db.checkIn, row'] at hc
  | renamed row _ row' => exact .inl (by simpa [Db.checkIn, row, row'] using hc)
  | @admitted t c' s admission row' scan =>
    obtain rfl : c' = c := by simpa [Db.checkIn, row'] using hc
    exact .inr ⟨t, s, admission, scan⟩

theorem ScanMove.grows {scanId : Id} {s : DoorScan} (h : ScanMove K d d')
    (hs : d.doorScans.lookup scanId = some s) : d'.doorScans.lookup scanId = some s := by
  have new : ∀ {scanId' s'}, d.doorScans.lookup scanId' = none →
      d'.doorScans = d.doorScans.insert scanId' s' → d'.doorScans.lookup scanId = some s := by
    intro scanId' s' fresh h
    have hne : scanId ≠ scanId' := by
      rintro rfl
      simp [hs] at fresh
    rw [h, AList.lookup_insert_ne hne, hs]
  cases h with
  | same scans => rw [scans, hs]
  | logged fresh _ _ _ scans => exact new fresh scans
  | admitted admission _ scans => exact new admission.fresh scans

theorem Effect.grows (h : Effect K d ws undone) : Grows d (writeAll ws d) where
  order ho := h.order ho
  ticket {id _} ht := (h.ticket id).grows ht
  pass {id p} hp := by
    rcases h.passes with heq | ⟨id', p', time, hp', active, -, heq⟩ <;> rw [heq]
    · exact ⟨p, hp, rfl, fun _ => rfl⟩
    · rw [Table.lookup_insert_eq]
      split_ifs with hid
      · subst hid
        obtain rfl := Option.some.inj (hp'.symm.trans hp)
        exact ⟨_, rfl, rfl, fun hs => by simp [active] at hs⟩
      · exact ⟨p, hp, rfl, fun _ => rfl⟩
  scan hs := h.scans.grows hs
  checkIn {id c s} hc hs := by
    rcases (h.ticket id).checkIn hc with hc | ⟨t, s', admission, -⟩
    · exact hc
    · simp [admission.fresh] at hs

end Grows

end EchoAndAura
