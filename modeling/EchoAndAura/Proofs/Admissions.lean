import EchoAndAura.Proofs.Runs

/-!
# Admissions

A ticket's admitted scans, the audit rows of its check-ins and of their undos, and its own row
tell one story: every admission is undone before the next.  `GateMove` is what a commit does to
the three tables at once, and `Tally` what they keep to.
-/

namespace EchoAndAura

open Txn (Lock writeAll)

variable {K : List (Lock Row)} {d d' : Db} {ws : List Write} {undone : List (Id × CheckIn)}
  {id : Id} {code : String}

section Story

/-- A scan that let the ticket in. -/
def DoorScan.admits (id : Id) (s : DoorScan) : Bool :=
  s.result == .admitted && s.ticketId == some id

def Db.admittedScans (d : Db) (id : Id) : List DoorScan := d.doorScans.rows.filter (·.admits id)

/-- The ticket code in the note of a check-in or of its undo. -/
def OrderEvent.gateCode (e : OrderEvent) : Option String :=
  match e.action, e.note with
  | .ticketCheckedIn, .checkedIn code _ _ _ => some code
  | .ticketCheckInUndone, .undoneByRevoke code _ _ => some code
  | .ticketCheckInUndone, .undoneAtDoor code _ => some code
  | .ticketCheckInUndone, .undoneByAdmin code _ _ => some code
  | _, _ => none

/-- The audit row of an undo of the ticket with this code. -/
def OrderEvent.undoes (code : String) (e : OrderEvent) : Bool :=
  e.action == .ticketCheckInUndone && e.gateCode == some code

def Db.undos (d : Db) (code : String) : Nat := (d.orderEvents.filter (·.undoes code)).length

/-- The admission the audit row of a check-in tells of: gate, method, and whether offline. -/
def OrderEvent.admission (code : String) (e : OrderEvent) :
    Option (Option String × ScanMethod × Bool) :=
  match e.action, e.note with
  | .ticketCheckedIn, .checkedIn code' gate method offline =>
    if code' = code then some (some gate, method, offline) else none
  | _, _ => none

/-- An admitted scan as its audit row tells it. -/
def Db.admission (d : Db) (s : DoorScan) : Option String × ScanMethod × Bool :=
  ((d.doorPasses.lookup s.passId).map (·.label), s.method, s.mode == .offline)

/-- The story of one ticket: as many admissions as undos, and one more while it is in; and one
audit row to each admitted scan. -/
structure Tally (id : Id) (code : String) (d : Db) : Prop where
  undos : (d.admittedScans id).length = d.undos code + if (d.checkIn id).isSome then 1 else 0
  events : (d.orderEvents.filterMap (·.admission code)).Perm
    ((d.admittedScans id).map d.admission)

/-- What the gate's tables refer to is there. -/
structure Linked (d : Db) : Prop where
  codes : ∀ id t, d.tickets.lookup id = some t → d.ticketCodes.lookup t.code = some id
  events : ∀ e ∈ d.orderEvents, ∀ code, e.gateCode = some code →
    (d.ticketCodes.lookup code).isSome
  scans : ∀ scanId s, d.doorScans.lookup scanId = some s → s.result = .admitted →
    (d.doorPasses.lookup s.passId).isSome ∧
      ∃ id, s.ticketId = some id ∧ (d.tickets.lookup id).isSome

end Story

section Moves

/-- What a commit that undoes `undone` does at the gate. -/
inductive GateMove (d d' : Db) (undone : List (Id × CheckIn)) : Prop
  | other {es} (events : d'.orderEvents = d.orderEvents ++ es) (gate : ∀ e ∈ es, e.gateCode = none)
      (scans : ∀ id, d'.admittedScans id = d.admittedScans id)
      (checkIn : ∀ id, d'.checkIn id = d.checkIn id)
  | admitted {id t c s e} (row : d.tickets.lookup id = some t) (out : t.checkIn = none)
      (pass : ∃ p, d.doorPasses.lookup s.passId = some p ∧ p.label = c.checkedInBy)
      (events : d'.orderEvents = d.orderEvents ++ [e]) (action : e.action = .ticketCheckedIn)
      (note : e.note = .checkedIn t.code c.checkedInBy s.method (s.mode == .offline))
      (scans : ∀ id', d'.admittedScans id' =
        if id' = id then s :: d.admittedScans id' else d.admittedScans id')
      (checkIn : ∀ id', d'.checkIn id' = if id' = id then some c else d.checkIn id')
  | undone {es} (events : d'.orderEvents = d.orderEvents ++ es)
      (audit : List.Forall₂ (AuditsUndo d) undone es) (nodup : (undone.map (·.1)).Nodup)
      (stood : ∀ u ∈ undone, d.checkIn u.1 = some u.2)
      (scans : ∀ id, d'.admittedScans id = d.admittedScans id)
      (checkIn : ∀ id, d'.checkIn id = if id ∈ undone.map (·.1) then none else d.checkIn id)

theorem TakesBack.gate (h : TakesBack undone d d') : GateMove d d' undone := by
  obtain ⟨es, events, audit⟩ := h.audit
  refine .undone events audit h.nodup (fun u hu => ?_) (fun id => ?_) fun id => ?_
  · obtain ⟨t, ht, hc, -⟩ := h.cleared u hu
    exact Db.checkIn_eq_some.2 ⟨t, ht, hc⟩
  · simp only [Db.admittedScans, h.scans]
  · split_ifs with hid
    · obtain ⟨u, hu, rfl⟩ := List.mem_map.1 hid
      obtain ⟨t, -, -, ht⟩ := h.cleared u hu
      exact Db.checkIn_of_lookup ht
    · simp only [Db.checkIn, h.kept id hid]

theorem admittedScans_insert {scanId : Id} {s : DoorScan} (fresh : d.doorScans.lookup scanId = none)
    (h : d'.doorScans = d.doorScans.insert scanId s) (id : Id) :
    d'.admittedScans id = if s.admits id then s :: d.admittedScans id else d.admittedScans id := by
  rw [Db.admittedScans, h, Table.rows_insert_new fresh, List.filter_cons]
  rfl

theorem checkIn_insert {t : Ticket} (h : d'.tickets = d.tickets.insert id t) (id' : Id) :
    d'.checkIn id' = if id' = id then t.checkIn else d.checkIn id' := by
  rw [Db.checkIn, h, Table.lookup_insert_eq]
  split_ifs <;> rfl

theorem NewTickets.checkIn {orderId : Id} {o : Order} {rows : List (Id × Ticket)}
    (h : NewTickets d orderId o rows) (ht : d'.tickets = .insertAll rows d.tickets) (id : Id) :
    d'.checkIn id = d.checkIn id := by
  by_cases hm : id ∈ rows.map (·.1)
  · obtain ⟨r, hr, rfl⟩ := List.mem_map.1 hm
    have hnew := Table.lookup_insertAll_of_mem d.tickets h.nodup hr
    simp [Db.checkIn, ht, hnew, (h.of_mem hr).2.2.2, (h.fresh hr).1]
  · rw [Db.checkIn, ht, Table.lookup_insertAll_of_notMem _ hm, ← Db.checkIn]

theorem OrderEvent.Is.gateCode {e : OrderEvent} {orderId : Id} {action : OrderAction}
    {fromStatus toStatus : Option OrderStatus} (h : e.Is orderId action fromStatus toStatus)
    (h₁ : action ≠ .ticketCheckedIn) (h₂ : action ≠ .ticketCheckInUndone) : e.gateCode = none := by
  obtain ⟨-, rfl, -, -⟩ := h
  unfold OrderEvent.gateCode
  split <;> simp_all

theorem OrderEvent.Is.gateCode_of_mem {e : OrderEvent} {orderId : Id} {actions : List OrderAction}
    {fromStatus toStatus : Option OrderStatus}
    (h : ∃ action ∈ actions, e.Is orderId action fromStatus toStatus)
    (h₁ : OrderAction.ticketCheckedIn ∉ actions) (h₂ : OrderAction.ticketCheckInUndone ∉ actions) :
    e.gateCode = none := by
  obtain ⟨action, ha, h⟩ := h
  exact h.gateCode (fun heq => h₁ (heq ▸ ha)) fun heq => h₂ (heq ▸ ha)

/-- The note of an undo, at the gate or in the office, tells of this check-in. -/
theorem undoes_of_note {n : Note} {c : CheckIn} (h : (∃ reason, n = .undoneAtDoor code reason) ∨
    ∃ reason, n = .undoneByAdmin code (some (c.checkedInAt, c.checkedInBy)) reason) :
    n.undoes code c := by
  rcases h with ⟨reason, rfl⟩ | ⟨reason, rfl⟩
  · rfl
  · exact ⟨rfl, rfl⟩

theorem Effect.gate (h : Effect K d ws undone) : GateMove d (writeAll ws d) undone := by
  cases h with
  | nothing | tick | edit | revoke =>
    exact .other (List.append_nil _).symm (by simp) (fun _ => rfl) fun _ => rfl
  | hold _ _ _ _ _ _ _ _ _ audit =>
    exact .other rfl (by simpa using audit.gateCode (by simp) (by simp)) (fun _ => rfl) fun _ => rfl
  | submit _ _ _ _ _ audit =>
    have := OrderEvent.Is.gateCode_of_mem audit (by simp) (by simp)
    simp only [Txn.writeAll_append, writeAll_cons, writeAll_trxWrites, writeAll_nil]
    exact .other rfl (by simpa using this) (fun _ => rfl) fun _ => rfl
  | release _ _ _ _ _ _ audit =>
    have := OrderEvent.Is.gateCode_of_mem audit (by simp) (by simp)
    exact .other rfl (by simpa using this) (fun _ => rfl) fun _ => rfl
  | approve _ _ _ _ _ _ tickets audit audit' =>
    simp only [Txn.writeAll_append, writeAll_insertWrites, writeAll_cons, writeAll_nil, Write.apply,
      AList.insert_insert]
    refine .other (List.append_assoc _ _ _) ?_ (fun _ => rfl) (tickets.checkIn rfl)
    simp [audit.gateCode, audit'.gateCode]
  | comp _ _ _ _ _ _ _ _ tickets audit =>
    simp only [Txn.writeAll_append, writeAll_insertWrites, writeAll_cons, writeAll_nil, Write.apply,
      AList.insert_insert]
    exact .other rfl (by simp [audit.gateCode]) (fun _ => rfl) (tickets.checkIn rfl)
  | @cancelTicket id t _ e last row status out _ _ _ _ _ audit order =>
    have he := audit.gateCode (by simp) (by simp)
    have hin : ∀ {d' : Db}, d'.tickets = d.tickets.insert id { t with status := .cancelled } →
        ∀ id', d'.checkIn id' = d.checkIn id' := by
      intro d' ht id'
      rw [checkIn_insert ht]
      split_ifs with hid
      · rw [hid, Db.checkIn_of_lookup row]
      · rfl
    cases last with
    | none => exact .other rfl (by simpa using he) (fun _ => rfl) (hin rfl)
    | some l =>
      have hl := (order l rfl).2.2.gateCode (by simp) (by simp)
      exact .other (List.append_assoc _ _ _) (by simpa using ⟨he, hl⟩) (fun _ => rfl) (hin rfl)
  | @rename id t name _ row _ audit =>
    refine .other rfl (by simpa using audit.gateCode (by simp) (by simp)) (fun _ => rfl) fun id' => ?_
    refine (checkIn_insert (t := { t with attendeeName := name }) rfl id').trans ?_
    split_ifs with hid
    · rw [hid, Db.checkIn_of_lookup row]
    · rfl
  | @letIn id t c s e admission audit note =>
    refine .admitted admission.row admission.out (admission.pass.imp fun p h => ⟨h.1, h.2.2⟩) rfl
      audit.2.1 note (fun id' => ?_) (checkIn_insert (t := { t with checkIn := some c }) rfl)
    refine (admittedScans_insert admission.fresh rfl id').trans ?_
    by_cases hid : id' = id
    · simp [DoorScan.admits, admission.result, admission.ticket, hid]
    · simp [DoorScan.admits, admission.ticket, hid, Ne.symm hid]
  | @log scanId s scan result =>
    refine .other (List.append_nil _).symm (by simp) (fun id => ?_) fun _ => rfl
    refine (admittedScans_insert scan rfl id).trans ?_
    simp [DoorScan.admits, result]
  | undo row checkIn audit note => exact (TakesBack.one row checkIn audit (undoes_of_note note)).gate
  | undoAll standing audit =>
    refine (standing.takesBack audit ?_ ?_ ?_).gate <;> rw [writeAll_undoWrites]
  | revokeAndUndo _ _ _ standing audit =>
    refine (standing.takesBack audit ?_ ?_ ?_).gate <;> rw [writeAll_cons, writeAll_undoWrites] <;> rfl

end Moves

section Codes

/-- What a commit does to the index of ticket codes. -/
structure CodesGrow (d d' : Db) : Prop where
  kept : ∀ code id, d.ticketCodes.lookup code = some id → d'.ticketCodes.lookup code = some id
  issued : ∀ id t, d.tickets.lookup id = none → d'.tickets.lookup id = some t →
    d.ticketCodes.lookup t.code = none ∧ d'.ticketCodes.lookup t.code = some id

theorem CodesGrow.same (hc : d'.ticketCodes = d.ticketCodes)
    (ht : ∀ id t, d.tickets.lookup id = none → d'.tickets.lookup id ≠ some t) : CodesGrow d d' where
  kept _ _ h := hc ▸ h
  issued id t h h' := absurd h' (ht id t h)

theorem NewTickets.codesGrow {orderId : Id} {o : Order} {rows : List (Id × Ticket)}
    (h : NewTickets d orderId o rows) (ht : d'.tickets = .insertAll rows d.tickets)
    (hc : d'.ticketCodes = .insertAll (rows.map fun r => (r.2.code, r.1)) d.ticketCodes) :
    CodesGrow d d' := by
  have hcodes : ((rows.map fun r => (r.2.code, r.1)).map (·.1)).Nodup := by
    simpa [Function.comp_def] using h.nodup_codes
  refine ⟨fun code id hid => ?_, fun id t hnone hsome => ?_⟩
  · rw [hc, Table.lookup_insertAll_of_notMem, hid]
    intro hm
    simp only [List.map_map, List.mem_map, Function.comp_apply] at hm
    obtain ⟨r, hr, rfl⟩ := hm
    simp [(h.fresh hr).2] at hid
  · by_cases hm : id ∈ rows.map (·.1)
    · obtain ⟨r, hr, rfl⟩ := List.mem_map.1 hm
      rw [ht, Table.lookup_insertAll_of_mem _ h.nodup hr] at hsome
      obtain rfl := Option.some.inj hsome
      refine ⟨(h.fresh hr).2, ?_⟩
      rw [hc]
      exact Table.lookup_insertAll_of_mem (e := (r.2.code, r.1)) _ hcodes
        (List.mem_map.2 ⟨r, hr, rfl⟩)
    · rw [ht, Table.lookup_insertAll_of_notMem _ hm, hnone] at hsome
      cases hsome

theorem Effect.codes (h : Effect K d ws undone) : CodesGrow d (writeAll ws d) := by
  have put : ∀ {d' : Db} {id : Id} {t t' : Ticket}, d.tickets.lookup id = some t →
      d'.tickets = d.tickets.insert id t' → ∀ id t, d.tickets.lookup id = none →
        d'.tickets.lookup id ≠ some t := by
    intro d' id t t' ht h id' t₁ hnone
    have hne : id' ≠ id := by
      rintro rfl
      rw [ht] at hnone
      cases hnone
    rw [h, AList.lookup_insert_ne hne, hnone]
    exact nofun
  have keep : ∀ {d' : Db}, d'.tickets = d.tickets → ∀ id t, d.tickets.lookup id = none →
      d'.tickets.lookup id ≠ some t := by
    intro d' h id t hnone
    rw [h, hnone]
    exact nofun
  have undoneRow : ∀ {d' : Db} {undone : List Undone}, Standing d undone →
      d'.tickets = .insertAll (undoneRows undone) d.tickets → ∀ id t, d.tickets.lookup id = none →
        d'.tickets.lookup id ≠ some t := by
    intro d' undone hs h id t hnone
    rw [h, lookup_undone_of_notMem, hnone]
    · simp
    · intro hm
      obtain ⟨u, hu, rfl⟩ := List.mem_map.1 hm
      simp [hs.row u hu] at hnone
  cases h with
  | nothing | tick | edit | hold | release | log | revoke => exact .same rfl (keep rfl)
  | submit =>
    simp only [Txn.writeAll_append, writeAll_cons, writeAll_trxWrites, writeAll_nil]
    exact .same rfl (keep rfl)
  | approve _ _ _ _ _ _ tickets =>
    simp only [Txn.writeAll_append, writeAll_insertWrites, writeAll_cons, writeAll_nil, Write.apply]
    exact tickets.codesGrow rfl rfl
  | comp _ _ _ _ _ _ _ _ tickets =>
    simp only [Txn.writeAll_append, writeAll_insertWrites, writeAll_cons, writeAll_nil, Write.apply]
    exact tickets.codesGrow rfl rfl
  | @cancelTicket _ _ _ _ last row => cases last <;> exact .same rfl (put row rfl)
  | rename row => exact .same rfl (put row rfl)
  | letIn admission => exact .same rfl (put admission.row rfl)
  | undo row => exact .same rfl (put row rfl)
  | undoAll standing =>
    rw [writeAll_undoWrites]
    exact .same rfl (undoneRow standing rfl)
  | revokeAndUndo _ _ _ standing =>
    rw [writeAll_cons, writeAll_undoWrites]
    exact .same rfl (undoneRow standing rfl)

end Codes

section Step

/-- `id` is the one ticket with this code. -/
def Db.Owns (d : Db) (id : Id) (code : String) : Prop :=
  ∀ id' t, d.tickets.lookup id' = some t → (t.code = code ↔ id' = id)

theorem Linked.owns (h : Linked d) {t : Ticket} (ht : d.tickets.lookup id = some t) :
    d.Owns id t.code := by
  intro id' t' ht'
  refine ⟨fun heq => ?_, fun heq => ?_⟩
  · have := h.codes id' t' ht'
    rw [heq, h.codes id t ht] at this
    exact (Option.some.inj this).symm
  · subst heq
    rw [Option.some.inj (ht'.symm.trans ht)]

/-- A code nobody has yet. -/
theorem Linked.owns_new (h : Linked d) (hid : d.tickets.lookup id = none)
    (hcode : d.ticketCodes.lookup code = none) : d.Owns id code := by
  intro id' t ht
  refine ⟨fun heq => ?_, fun heq => ?_⟩
  · have := h.codes id' t ht
    rw [heq, hcode] at this
    cases this
  · rw [heq, hid] at ht
    cases ht

theorem undoes_eq_false {e : OrderEvent} (h : e.gateCode = none) : e.undoes code = false := by
  simp [OrderEvent.undoes, h]

theorem admission_eq_none {e : OrderEvent} (h : e.gateCode = none) : e.admission code = none := by
  unfold OrderEvent.admission
  split
  · rename_i ha hn
    simp [OrderEvent.gateCode, ha, hn] at h
  · rfl

theorem AuditsUndo.gateCode {u : Id × CheckIn} {e : OrderEvent} (h : AuditsUndo d u e) :
    ∃ t, d.tickets.lookup u.1 = some t ∧ e.action = .ticketCheckInUndone ∧
      e.gateCode = some t.code := by
  obtain ⟨t, ht, ⟨-, ha, -, -⟩, hn⟩ := h
  refine ⟨t, ht, ha, ?_⟩
  unfold Note.undoes at hn
  unfold OrderEvent.gateCode
  rw [ha]
  split at hn
  · simp_all
  · simp_all
  · simp_all
  · exact hn.elim

theorem AuditsUndo.undoes {u : Id × CheckIn} {e : OrderEvent} (h : AuditsUndo d u e)
    (ho : d.Owns id code) : e.undoes code = decide (u.1 = id) := by
  obtain ⟨t, ht, ha, hc⟩ := h.gateCode
  rw [OrderEvent.undoes, ha, hc, Bool.eq_iff_iff]
  simpa using ho _ t ht

theorem AuditsUndo.admission {u : Id × CheckIn} {e : OrderEvent} (h : AuditsUndo d u e) :
    e.admission code = none := by
  obtain ⟨t, -, ha, -⟩ := h.gateCode
  simp [OrderEvent.admission, ha]

/-- Each ticket undone has its one audit row. -/
theorem undos_of_audit {es : List OrderEvent} (ho : d.Owns id code)
    (h : List.Forall₂ (AuditsUndo d) undone es) (hn : (undone.map (·.1)).Nodup) :
    (es.filter (·.undoes code)).length = if id ∈ undone.map (·.1) then 1 else 0 := by
  induction h with
  | nil => simp
  | @cons u e undone es hu _ ih =>
    simp only [List.map_cons, List.nodup_cons] at hn
    have ih := ih hn.2
    rw [List.filter_cons, hu.undoes ho]
    by_cases hid : u.1 = id
    · subst hid
      simp [ih, hn.1]
    · have hmem : id ∈ (u :: undone).map (·.1) ↔ id ∈ undone.map (·.1) := by
        simp [Ne.symm hid]
      simp only [hid, decide_false, Bool.false_eq_true, if_false, ih, hmem]

theorem exists_of_audit {es : List OrderEvent} (h : List.Forall₂ (AuditsUndo d) undone es)
    {e : OrderEvent} (he : e ∈ es) : ∃ u ∈ undone, AuditsUndo d u e := by
  induction h with
  | nil => simp at he
  | cons hu _ ih =>
    rcases List.mem_cons.1 he with rfl | he
    · exact ⟨_, List.mem_cons_self, hu⟩
    · obtain ⟨u, hm, hu⟩ := ih he
      exact ⟨u, List.mem_cons_of_mem _ hm, hu⟩

theorem filterMap_of_audit {es : List OrderEvent} (h : List.Forall₂ (AuditsUndo d) undone es) :
    es.filterMap (·.admission code) = [] := by
  induction h with
  | nil => rfl
  | cons hu _ ih => rw [List.filterMap_cons, hu.admission, ih]

theorem mem_admittedScans {s : DoorScan} :
    s ∈ d.admittedScans id ↔ (∃ k, d.doorScans.lookup k = some s) ∧ s.admits id := by
  rw [Db.admittedScans, List.mem_filter, Table.mem_rows]

/-- A pass keeps its label, so a scan keeps its story. -/
theorem map_admission (hl : Linked d) (hg : Grows d d') :
    (d.admittedScans id).map d'.admission = (d.admittedScans id).map d.admission := by
  refine List.map_congr_left fun s hs => ?_
  obtain ⟨⟨k, hk⟩, ha⟩ := mem_admittedScans.1 hs
  simp only [DoorScan.admits, Bool.and_eq_true, beq_iff_eq] at ha
  obtain ⟨p, hp⟩ := Option.isSome_iff_exists.1 (hl.scans k s hk ha.1).1
  obtain ⟨p', hp', hlabel, -⟩ := hg.pass hp
  simp [Db.admission, hp, hp', hlabel]

theorem Tally.step (h : GateMove d d' undone) (hl : Linked d) (hg : Grows d d')
    (ho : d.Owns id code) (ht : Tally id code d) : Tally id code d' := by
  have hmap : (d.admittedScans id).map d'.admission = (d.admittedScans id).map d.admission :=
    map_admission hl hg
  obtain ⟨hundos, hevents⟩ := ht
  cases h with
  | @other es events gate scans checkIn =>
    have h₁ : es.filter (·.undoes code) = [] :=
      List.filter_eq_nil_iff.2 fun e he => by simp [undoes_eq_false (gate e he)]
    have h₂ : es.filterMap (·.admission code) = [] :=
      List.filterMap_eq_nil_iff.2 fun e he => admission_eq_none (gate e he)
    refine ⟨?_, ?_⟩
    · simpa [Db.undos, events, h₁, scans, checkIn] using hundos
    · rw [events, List.filterMap_append, h₂, List.append_nil, scans, hmap]
      exact hevents
  | @admitted id' t c s e row out pass events action note scans checkIn =>
    have h₁ : e.undoes code = false := by simp [OrderEvent.undoes, action]
    have hundos' : d'.undos code = d.undos code := by simp [Db.undos, events, h₁]
    by_cases hid : id = id'
    · subst hid
      have hcode : t.code = code := (ho _ t row).2 rfl
      have hout : d.checkIn id = none := by rw [Db.checkIn_of_lookup row, out]
      refine ⟨?_, ?_⟩
      · simp [scans, checkIn, hundos', hundos, hout]
      · obtain ⟨p, hp, hlabel⟩ := pass
        obtain ⟨p', hp', hlabel', -⟩ := hg.pass hp
        have hs : d'.admission s = (some c.checkedInBy, s.method, s.mode == .offline) := by
          simp [Db.admission, hp', hlabel', hlabel]
        rw [events, List.filterMap_append, scans, if_pos rfl, List.map_cons, hmap, hs]
        simp only [OrderEvent.admission, action, note, hcode, if_true, List.filterMap_cons,
          List.filterMap_nil]
        exact (List.perm_append_singleton _ _).trans (hevents.cons _)
    · have hcode : t.code ≠ code := fun heq => hid ((ho _ t row).1 heq).symm
      refine ⟨?_, ?_⟩
      · simp [scans, checkIn, hid, hundos', hundos]
      · rw [events, List.filterMap_append, scans, if_neg hid, hmap]
        simpa [OrderEvent.admission, action, note, hcode] using hevents
  | @undone es events audit nodup stood scans checkIn =>
    have h₁ := undos_of_audit ho audit nodup
    refine ⟨?_, ?_⟩
    · have hundos' : d'.undos code = d.undos code + if id ∈ undone.map (·.1) then 1 else 0 := by
        rw [Db.undos, events, List.filter_append, List.length_append, h₁, Db.undos]
      rw [hundos', scans, checkIn, hundos]
      by_cases hid : id ∈ undone.map (·.1)
      · obtain ⟨u, hu, rfl⟩ := List.mem_map.1 hid
        simp [stood u hu, hid]
      · simp [hid]
    · rw [events, List.filterMap_append, filterMap_of_audit audit, List.append_nil, scans, hmap]
      exact hevents

/-- A new ticket has no story. -/
theorem Linked.tally_new (h : Linked d) (hid : d.tickets.lookup id = none)
    (hcode : d.ticketCodes.lookup code = none) : Tally id code d := by
  have hscans : d.admittedScans id = [] := by
    refine List.eq_nil_iff_forall_not_mem.2 fun s hs => ?_
    obtain ⟨⟨k, hk⟩, ha⟩ := mem_admittedScans.1 hs
    simp only [DoorScan.admits, Bool.and_eq_true, beq_iff_eq] at ha
    obtain ⟨-, id', hid', hsome⟩ := h.scans k s hk ha.1
    obtain rfl := Option.some.inj (hid'.symm.trans ha.2)
    simp [hid] at hsome
  have hevents : ∀ e ∈ d.orderEvents, e.gateCode ≠ some code := by
    intro e he heq
    have := h.events e he code heq
    simp [hcode] at this
  have h₁ : d.orderEvents.filter (·.undoes code) = [] :=
    List.filter_eq_nil_iff.2 fun e he => by simp [OrderEvent.undoes, hevents e he]
  have h₂ : d.orderEvents.filterMap (·.admission code) = [] := by
    refine List.filterMap_eq_nil_iff.2 fun e he => ?_
    have := hevents e he
    unfold OrderEvent.admission
    split
    · rename_i ha hn
      rw [if_neg]
      simpa [OrderEvent.gateCode, ha, hn] using this
    · rfl
  exact ⟨by simp [hscans, Db.undos, h₁, Db.checkIn, hid], by simp [hscans, h₂]⟩

theorem Linked.step (hm : GateMove d d' undone) (hs : ScanMove K d d') (hc : CodesGrow d d')
    (hg : Grows d d') (h : Linked d) : Linked d' where
  codes id t ht := by
    rcases hid : d.tickets.lookup id with _ | t₀
    · exact (hc.issued id t hid ht).2
    · obtain ⟨t', ht', -, -, hcode⟩ := hg.ticket hid
      obtain rfl := Option.some.inj (ht'.symm.trans ht)
      rw [hcode]
      exact hc.kept _ _ (h.codes id t₀ hid)
  events e he code hcode := by
    have kept : ∀ {code}, (d.ticketCodes.lookup code).isSome →
        (d'.ticketCodes.lookup code).isSome := fun hsome => by
      obtain ⟨id, hid⟩ := Option.isSome_iff_exists.1 hsome
      simp [hc.kept _ _ hid]
    have known : ∀ {id t}, d.tickets.lookup id = some t → (d.ticketCodes.lookup t.code).isSome :=
      fun ht => by simp [h.codes _ _ ht]
    cases hm with
    | other events gate =>
      rcases List.mem_append.1 (events ▸ he) with he | he
      · exact kept (h.events e he code hcode)
      · simp [gate e he] at hcode
    | admitted row _ _ events action note =>
      rcases List.mem_append.1 (events ▸ he) with he | he
      · exact kept (h.events e he code hcode)
      · obtain rfl := List.mem_singleton.1 he
        obtain rfl : _ = code := by simpa [OrderEvent.gateCode, action, note] using hcode
        exact kept (known row)
    | undone events audit =>
      rcases List.mem_append.1 (events ▸ he) with he | he
      · exact kept (h.events e he code hcode)
      · obtain ⟨u, -, hu⟩ := exists_of_audit audit he
        obtain ⟨t, ht, -, hc⟩ := hu.gateCode
        obtain rfl := Option.some.inj (hc.symm.trans hcode)
        exact kept (known ht)
  scans scanId s hscan hr := by
    have kept : (d.doorPasses.lookup s.passId).isSome ∧
        (∃ id, s.ticketId = some id ∧ (d.tickets.lookup id).isSome) →
        (d'.doorPasses.lookup s.passId).isSome ∧
          ∃ id, s.ticketId = some id ∧ (d'.tickets.lookup id).isSome := by
      rintro ⟨hp, id, hid, ht⟩
      obtain ⟨p, hp⟩ := Option.isSome_iff_exists.1 hp
      obtain ⟨t, ht⟩ := Option.isSome_iff_exists.1 ht
      obtain ⟨p', hp', -⟩ := hg.pass hp
      obtain ⟨t', ht', -⟩ := hg.ticket ht
      exact ⟨by simp [hp'], id, hid, by simp [ht']⟩
    refine kept ?_
    cases hs with
    | same scans => exact h.scans scanId s (scans ▸ hscan) hr
    | @logged scanId' s' fresh result _ _ scans =>
      rw [scans, Table.lookup_insert_eq] at hscan
      split_ifs at hscan
      · obtain rfl := Option.some.inj hscan
        exact absurd hr result
      · exact h.scans scanId s hscan hr
    | @admitted id t c s' admission _ scans =>
      rw [scans, Table.lookup_insert_eq] at hscan
      split_ifs at hscan
      · obtain rfl := Option.some.inj hscan
        obtain ⟨p, hp, -⟩ := admission.pass
        exact ⟨by simp [hp], id, admission.ticket, by simp [admission.row]⟩
      · exact h.scans scanId s hscan hr

end Step

section Flow

/-- How many scans of the ticket a commit logs as admitted. -/
def admittedBy (id : Id) (d d' : Db) : Nat :=
  (d'.admittedScans id).length - (d.admittedScans id).length

/-- 1 where a commit takes the ticket's check-in back. -/
def undoneBy (id : Id) (d d' : Db) : Nat :=
  if (d.checkIn id).isSome && (d'.checkIn id).isNone then 1 else 0

/-- What the commits of a record add up to. -/
def overCommits (f : Db → Db → Nat) (l : List Entry) : Nat :=
  (l.map fun e => match e.obs with
    | .commit _ d d' => f d d'
    | _ => 0).sum

def admissions (id : Id) (l : List Entry) : Nat := overCommits (admittedBy id) l

def undoings (id : Id) (l : List Entry) : Nat := overCommits (undoneBy id) l

/-- 1 while the ticket is in. -/
def Db.inside (d : Db) (id : Id) : Nat := if (d.checkIn id).isSome then 1 else 0

theorem inside_le (d : Db) (id : Id) : d.inside id ≤ 1 := by
  unfold Db.inside
  split_ifs <;> simp

theorem overCommits_append (f : Db → Db → Nat) (l l' : List Entry) :
    overCommits f (l ++ l') = overCommits f l + overCommits f l' := by
  simp [overCommits]

/-- A commit is a turnstile: whom it lets in was out, and whom it undoes was in. -/
theorem GateMove.flow (h : GateMove d d' undone) (id : Id) :
    (d'.admittedScans id).length = (d.admittedScans id).length + admittedBy id d d' ∧
      admittedBy id d d' + d.inside id = d'.inside id + undoneBy id d d' := by
  unfold admittedBy undoneBy Db.inside
  cases h with
  | other _ _ scans checkIn =>
    rw [scans, checkIn]
    cases d.checkIn id <;> simp
  | @admitted id' t _ _ _ row out _ _ _ _ scans checkIn =>
    rw [scans, checkIn]
    by_cases hid : id = id'
    · have hout : d.checkIn id' = none := by rw [Db.checkIn_of_lookup row, out]
      simp [hid, hout]
    · cases d.checkIn id <;> simp [hid]
  | undone _ _ _ stood scans checkIn =>
    rw [scans, checkIn]
    by_cases hid : id ∈ undone.map (·.1)
    · obtain ⟨u, hu, rfl⟩ := List.mem_map.1 hid
      simp [stood u hu, hid]
    · cases d.checkIn id <;> simp [hid]

/-- Each undoing has its one audit row. -/
theorem GateMove.undos (h : GateMove d d' undone) (ho : d.Owns id code) :
    d'.undos code = d.undos code + undoneBy id d d' := by
  unfold undoneBy
  cases h with
  | @other es events gate _ checkIn =>
    have hes : es.filter (·.undoes code) = [] :=
      List.filter_eq_nil_iff.2 fun e he => by simp [undoes_eq_false (gate e he)]
    rw [checkIn]
    cases d.checkIn id <;> simp [Db.undos, events, hes]
  | @admitted id' t _ _ e row out _ events action _ _ checkIn =>
    have he : e.undoes code = false := by simp [OrderEvent.undoes, action]
    rw [checkIn]
    by_cases hid : id = id'
    · simp [hid, Db.undos, events, he]
    · cases d.checkIn id <;> simp [hid, Db.undos, events, he]
  | undone events audit nodup stood _ checkIn =>
    rw [Db.undos, events, List.filter_append, List.length_append, undos_of_audit ho audit nodup,
      checkIn, Db.undos]
    by_cases hid : id ∈ undone.map (·.1)
    · obtain ⟨u, hu, rfl⟩ := List.mem_map.1 hid
      simp [stood u hu, hid]
    · cases d.checkIn id <;> simp [hid]

theorem Owns.of_grows (ho : d'.Owns id code) (hg : Grows d d') : d.Owns id code := by
  intro id' t ht
  obtain ⟨t', ht', -, -, hcode⟩ := hg.ticket ht
  rw [← hcode]
  exact ho id' t' ht'

theorem Good.gate {q : Request} {τ : List Obs} (h : Good q τ (.commit K d d')) :
    ∃ undone, GateMove d d' undone := by
  obtain ⟨ws, undone, he, rfl, -⟩ := h
  exact ⟨undone, he.gate⟩

/-- Over any record, admissions and undoings keep the balance of who is inside. -/
theorem flow {d₀ : Db} {l : List Entry} (h : Txn.History Good d₀ l d) (id : Id) :
    admissions id l + d₀.inside id = d.inside id + undoings id l := by
  induction h with
  | nil => simp [admissions, undoings, overCommits]
  | @commit l d pid q K d' _ hg ih =>
    obtain ⟨undone, hm⟩ := hg.gate
    have := (hm.flow id).2
    simp only [admissions, undoings, overCommits_append] at ih ⊢
    simp only [overCommits, List.map_cons, List.map_nil, List.sum_cons, List.sum_nil] at ih ⊢
    omega
  | read _ _ _ _ _ ih | say _ _ ih | done _ _ ih =>
    simp only [admissions, undoings, overCommits_append] at ih ⊢
    simpa [overCommits] using ih

theorem undos_eq {d₀ : Db} {l : List Entry} (h : Txn.History Good d₀ l d)
    (ho : d.Owns id code) : d.undos code = d₀.undos code + undoings id l := by
  induction h with
  | nil => simp [undoings, overCommits]
  | commit _ hg ih =>
    obtain ⟨undone, hm⟩ := hg.gate
    have ho' := Owns.of_grows ho hg.grows
    have := ih ho'
    have := hm.undos ho'
    simp only [undoings, overCommits_append] at *
    simp only [overCommits, List.map_cons, List.map_nil, List.sum_cons, List.sum_nil] at *
    omega
  | read _ _ _ _ _ ih | say _ _ ih | done _ _ ih =>
    have := ih ho
    simp only [undoings, overCommits_append] at *
    simpa [overCommits] using this

/-- Between two undoings of a ticket, at most one scan of it is admitted. -/
theorem admissions_le_one {d₀ : Db} {l₁ l₂ l₃ : List Entry} (h : Txn.History Good d₀ (l₁ ++ l₂ ++ l₃) d)
    (hu : undoings id l₂ = 0) : admissions id l₂ ≤ 1 := by
  obtain ⟨d₂, h₂, -⟩ := h.past
  obtain ⟨d₁, h₁, -⟩ := h₂.past
  have f₁ := flow h₁ id
  have f₂ := flow h₂ id
  simp only [admissions, undoings, overCommits_append] at f₁ f₂ hu ⊢
  have := inside_le d₂ id
  omega

end Flow

section Runs

/-- The gate's tables agree with one another. -/
structure Db.Gated (d : Db) : Prop where
  logged : Logged d
  linked : Linked d
  tally : ∀ id t, d.tickets.lookup id = some t → Tally id t.code d
  cancelled : ∀ id t, d.tickets.lookup id = some t → t.status = .cancelled → t.checkIn = none

theorem TicketMove.cancelled_out (h : TicketMove K d d' undone id) {t : Ticket}
    (ht : d'.tickets.lookup id = some t) (hs : t.status = .cancelled)
    (old : ∀ t, d.tickets.lookup id = some t → t.status = .cancelled → t.checkIn = none) :
    t.checkIn = none := by
  cases h with
  | same row => exact old t (row ▸ ht) hs
  | issued _ row _ out =>
    obtain rfl := Option.some.inj (row.symm.trans ht)
    exact out
  | cancelled _ _ out row' =>
    obtain rfl := Option.some.inj (row'.symm.trans ht)
    exact out
  | admitted admission row' =>
    obtain rfl := Option.some.inj (row'.symm.trans ht)
    rw [show _ = TicketStatus.issued from admission.status] at hs
    cases hs
  | undone _ _ row' =>
    obtain rfl := Option.some.inj (row'.symm.trans ht)
    rfl
  | @renamed t₀ _ row _ row' =>
    obtain rfl := Option.some.inj (row'.symm.trans ht)
    exact old t₀ row hs

theorem Effect.gated (h : Effect K d ws undone) (hd : d.Gated) : (writeAll ws d).Gated where
  logged := h.logged hd.logged
  linked := hd.linked.step h.gate h.scans h.codes h.grows
  tally id t ht := by
    rcases hid : d.tickets.lookup id with _ | t₀
    · have hcode := (h.codes.issued id t hid ht).1
      exact (hd.linked.tally_new hid hcode).step h.gate hd.linked h.grows
        (hd.linked.owns_new hid hcode)
    · obtain ⟨t', ht', -, -, hcode⟩ := h.grows.ticket hid
      obtain rfl := Option.some.inj (ht'.symm.trans ht)
      rw [hcode]
      exact (hd.tally id t₀ hid).step h.gate hd.linked h.grows (hd.linked.owns hid)
  cancelled id t ht hs := (h.ticket id).cancelled_out ht hs (hd.cancelled id)

/-- What a ticket's row, its scans and its audit rows say of one another. -/
structure Ticket.AdmittedOnce (t : Ticket) (id : Id) (d : Db) : Prop where
  scan : ∀ c, t.checkIn = some c → ∃ s, d.doorScans.lookup c.checkedInScanId = some s ∧
    s.result = .admitted ∧ s.ticketId = some id ∧
    ∃ p, d.doorPasses.lookup s.passId = some p ∧ p.label = c.checkedInBy
  tally : Tally id t.code d
  cancelled : t.status = .cancelled → t.checkIn = none

theorem Db.Gated.admittedOnce (h : d.Gated) {t : Ticket} (ht : d.tickets.lookup id = some t) :
    t.AdmittedOnce id d where
  scan c hc := h.logged id c (Db.checkIn_eq_some.2 ⟨t, ht, hc⟩)
  tally := h.tally id t ht
  cancelled := h.cancelled id t ht

theorem gated_run (hd : d.Gated) (sched : List Action) : (run d sched).db.Gated :=
  (shop_history hd.logged sched).preserves (I := Db.Gated)
    (fun _ _ _ _ _ ⟨_, _, he, h, _⟩ hd => h ▸ he.gated hd) hd

/-- Whatever the gates and the office do at once, a ticket is let in once between two undos of it,
and every admission is on record. -/
theorem admission_exactly_once (hd : d.Gated) (sched : List Action) :
    (∀ id t, (run d sched).db.tickets.lookup id = some t →
      t.AdmittedOnce id (run d sched).db ∧
        (run d sched).db.undos t.code = d.undos t.code + undoings id (run d sched).log) ∧
    ∀ id l₁ l₂ l₃, (run d sched).log = l₁ ++ l₂ ++ l₃ → undoings id l₂ = 0 →
      admissions id l₂ ≤ 1 := by
  have hrun := gated_run hd sched
  have hist := shop_history hd.logged sched
  refine ⟨fun id t ht => ⟨hrun.admittedOnce ht, ?_⟩, fun _ _ _ _ hl hu => ?_⟩
  · exact undos_eq hist (hrun.linked.owns ht)
  · exact admissions_le_one (hl ▸ hist) hu

theorem openingNight_gated : openingNight.Gated where
  logged id c hc := by
    obtain ⟨t, ht, hc⟩ := Db.checkIn_eq_some.1 hc
    obtain ⟨-, rfl⟩ := Table.lookup_singleton.1 ht
    cases hc
  linked := by
    refine ⟨fun id t ht => ?_, by simp [openingNight], fun _ _ h => by simp [openingNight] at h⟩
    obtain ⟨rfl, rfl⟩ := Table.lookup_singleton.1 ht
    rfl
  tally id t ht := by
    obtain ⟨rfl, rfl⟩ := Table.lookup_singleton.1 ht
    exact ⟨by decide, .nil⟩
  cancelled id t ht hs := by
    obtain ⟨-, rfl⟩ := Table.lookup_singleton.1 ht
    cases hs

/-- The ticket scanned at the gate, undone there, and scanned again. -/
def readmission : List Action :=
  alone 0 (scanOf 7 1) 30 ++ alone 1 (.undoScan "K7QM4XPDR2TW" 7 .misTap) 30 ++
    alone 2 (scanOf 8 1) 30

theorem admission_exactly_once_readmission :
    (admissions 1 (run openingNight readmission).log = 2 ∧
      undoings 1 (run openingNight readmission).log = 1) ∧
    (∀ id t, (run openingNight readmission).db.tickets.lookup id = some t →
      t.AdmittedOnce id (run openingNight readmission).db ∧
        (run openingNight readmission).db.undos t.code =
          openingNight.undos t.code + undoings id (run openingNight readmission).log) ∧
    ∀ id l₁ l₂ l₃, (run openingNight readmission).log = l₁ ++ l₂ ++ l₃ → undoings id l₂ = 0 →
      admissions id l₂ ≤ 1 :=
  ⟨by decide +kernel, admission_exactly_once openingNight_gated readmission⟩

end Runs

end EchoAndAura
