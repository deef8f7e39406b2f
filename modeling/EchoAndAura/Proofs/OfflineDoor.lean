import EchoAndAura.OfflineDoor
import EchoAndAura.Proofs.Batch
import EchoAndAura.Proofs.Marks
import EchoAndAura.Proofs.ScanToken

/-!
# The offline door answers as the server does

A phone that holds the check-ins since its list as marks (`Holds`) finds of a code what the door
finds of it (`index_matches`), and judges what it finds by the same rules (`judge_matches`).  What
it sends of the scan later is read as the same code (`parseScanToken_loggable`), and judged the
same again (`judge_sync`).
-/

namespace EchoAndAura

section Input

theorem scanText_trim (raw : String) : scanText (trim raw) = scanText raw := by
  obtain ⟨front, back, hfront, hback, hraw⟩ := trim_decomposes raw
  have hspaces : ∀ l : List Char, (∀ c ∈ l, isSpace c = true) →
      ∀ c ∈ l.map normaliseDigit, isSpace c = true := fun l h => by
    rw [List.forall_mem_map]
    exact fun c hc => (isSpace_normaliseDigit c).trans (h c hc)
  have hlink : inUrl (normaliseDigits (trim raw)).toList = inUrl (normaliseDigits raw).toList := by
    unfold normaliseDigits
    rw [String.toList_ofList, String.toList_ofList, hraw, List.map_append, List.map_append,
      inUrl_front (hspaces front hfront), inUrl_back (hspaces back hback)]
  unfold scanText readChars
  rw [hlink, filter_trim]

theorem jsLength_trim (raw : String) : jsLength (trim raw) ≤ jsLength raw := by
  obtain ⟨front, back, -, -, hraw⟩ := trim_decomposes raw
  unfold jsLength
  rw [hraw, List.map_append, List.map_append, List.sum_append, List.sum_append]
  omega

theorem jsLength_eq_zero {raw : String} (h : jsLength raw = 0) : raw.toList = [] := by
  by_contra hne
  exact absurd (jsLength_pos hne) (by omega)

theorem scanText_nil {raw : String} (h : raw.toList = []) : scanText raw = [] := by
  unfold scanText normaliseDigits
  rw [h]
  rfl

theorem parseScanToken_trim {raw : String} (hmax : jsLength raw ≤ scanInputMax) :
    parseScanToken (trim raw) = parseScanToken raw := by
  have htrim := (jsLength_trim raw).trans hmax
  rw [parseScanToken_eq, parseScanToken_eq, scanText_trim]
  by_cases hempty : jsLength (trim raw) = 0
  · have htext : scanText raw = [] := by
      rw [← scanText_trim]
      exact scanText_nil (jsLength_eq_zero hempty)
    rw [htext]
    split_ifs <;> rfl
  · have hraw : jsLength raw ≠ 0 := fun h => hempty (Nat.le_zero.1 (h ▸ jsLength_trim raw))
    rw [if_neg (by simpa using ⟨hempty, htrim⟩), if_neg (by simpa using ⟨hraw, hmax⟩)]

theorem jsSlice_eq : ∀ {n : Nat} {l : List Char}, jsLength (String.ofList l) ≤ n → jsSlice n l = l
  | 0, l, h => by
    have hnil := jsLength_eq_zero (Nat.le_zero.1 h)
    rw [String.toList_ofList] at hnil
    rw [hnil]
    rfl
  | n + 1, [], _ => rfl
  | n + 1, c :: cs, h => by
    have hsum : jsLength (String.ofList (c :: cs)) =
        (if 0xffff < c.toNat then 2 else 1) + jsLength (String.ofList cs) := by
      unfold jsLength
      rw [String.toList_ofList, String.toList_ofList, List.map_cons, List.sum_cons]
    rw [hsum] at h
    unfold jsSlice
    split_ifs at h ⊢
    · cases n with
      | zero => omega
      | succ n => exact congrArg (c :: ·) (jsSlice_eq (by omega))
    · exact congrArg (c :: ·) (jsSlice_eq (by omega))

/-- The number signs that stand for an unread text are no code. -/
theorem parseScanToken_hashes (n : Nat) :
    parseScanToken (String.ofList (List.replicate n '#')) = none := by
  cases hcode : parseScanToken (String.ofList (List.replicate n '#')) with
  | none => rfl
  | some code =>
    obtain ⟨body, rfl⟩ := parseScanToken_code hcode
    obtain ⟨-, -, form, htext, -⟩ := (parseScanToken_iff _ body).1 hcode
    have hlink : inUrl (normaliseDigits (String.ofList (List.replicate n '#'))).toList = none := by
      refine inUrl_none fun c hc => ?_
      unfold normaliseDigits at hc
      rw [String.toList_ofList, String.toList_ofList] at hc
      obtain ⟨r, hr, rfl⟩ := List.mem_map.1 hc
      rw [List.eq_of_mem_replicate hr]
      decide
    unfold scanText at htext
    rw [hlink] at htext
    have hread : readChars (List.replicate n '#') = List.replicate n '#' := by
      unfold readChars
      rw [List.filter_replicate, if_pos (by decide), List.flatMap_replicate]
      exact List.flatten_replicate_singleton
    rw [String.toList_ofList] at htext
    dsimp only at htext
    rw [hread] at htext
    cases n with
    | zero => exact absurd htext.symm (form.text_ne_nil (by decide) body)
    | succ n =>
      have hmem : '#' ∈ form.text ticketLetters body.chars := by
        rw [← htext]
        exact List.mem_cons_self
      exact absurd (body.text_codeChars ticketLetters_codeChars form '#' hmem) (by decide)

/-- What a phone sends of a read is read as the same code. -/
theorem parseScanToken_loggable {raw : String} (hmax : jsLength raw ≤ scanInputMax) :
    parseScanToken (loggableInput raw) = parseScanToken raw := by
  have hslice : String.ofList (jsSlice scanInputMax (trim raw).toList) = trim raw := by
    rw [jsSlice_eq, String.ofList_toList]
    rw [String.ofList_toList]
    exact (jsLength_trim raw).trans hmax
  unfold loggableInput
  dsimp only
  rw [hslice, parseScanToken_trim hmax]
  cases hcode : parseScanToken raw with
  | none => exact parseScanToken_hashes _
  | some code =>
    obtain ⟨body, rfl⟩ := parseScanToken_code hcode
    exact parseScanToken_ticketCode body

end Input

section Pass

open doorService

variable {d d' : Db} {code : String} {ctx : DoorContext}

theorem Svc.alone_fst {α : Type} {s : Svc α} {a : α} (h : (s.alone d).1 = .ok a) :
    ∃ d', s.alone d = (.ok a, d') := by
  rcases hs : s.alone d with ⟨r, d'⟩
  rw [hs] at h
  exact ⟨d', by rw [← h]⟩

/-- What a door's request knows once its pass was checked. -/
structure Authenticated (code : String) (d : Db) (ctx : DoorContext) : Prop where
  pass : ∃ c, normalisePassCode code = some c ∧
    d.doorPasses.entries.find? (fun e => e.2.code == c) = some ⟨ctx.passId, ctx.pass⟩
  active : ctx.pass.revokedAt = none
  eventId : ctx.eventId = ctx.pass.eventId
  event : d.events.lookup ctx.eventId = some ctx.event
  window : ctx.window = doorWindow ctx.event
  until_ : d.clock ≤ ctx.window.validUntil
  practice : ctx.practice = decide (d.clock < ctx.window.validFrom)

theorem authenticate_alone (h : ((authenticate code).alone d).1 = .ok (some ctx)) :
    Authenticated code d ctx := by
  obtain ⟨d', h⟩ := Svc.alone_fst h
  unfold authenticate at h
  cases hcode : normalisePassCode code with
  | none =>
    rw [hcode] at h
    cases h
  | some c =>
    rw [hcode] at h
    dsimp only at h
    have hread : (Svc.query (doorRepository.findPassByCode c)).alone d = (.ok _, d) :=
      Svc.alone_query _ _ _
    rw [Svc.alone_bind_ok hread] at h
    cases hpass : d.doorPasses.entries.find? (fun e => e.2.code == c) with
    | none =>
      rw [hpass] at h
      cases h
    | some e =>
      rw [hpass] at h
      dsimp only [Option.map_some] at h
      split_ifs at h with hrevoked
      · cases h
      · have hread' : (Svc.query (eventsRepository.findById e.2.eventId)).alone d = (.ok _, d) :=
          Svc.alone_query _ _ _
        rw [Svc.alone_bind_ok hread'] at h
        cases hevent : d.events.lookup e.2.eventId with
        | none =>
          rw [hevent] at h
          cases h
        | some event =>
          rw [hevent] at h
          dsimp only at h
          split_ifs at h with hdraft
          · cases h
          · rw [Svc.alone_bind_ok (Svc.alone_now d)] at h
            split_ifs at h with huntil
            · cases h
            · cases h
              exact ⟨⟨c, hcode, hpass⟩, by simpa using hrevoked, rfl, hevent, rfl,
                not_lt.1 huntil, rfl⟩

theorem Authenticated.active_pass (h : Authenticated code d ctx) : Active ctx.passId d := by
  obtain ⟨c, -, hpass⟩ := h.pass
  exact ⟨ctx.pass, AList.mem_lookup_iff.2 (List.mem_of_find?_eq_some hpass), h.active⟩

/-- The pass and the event as they were: only the clock can tell two requests of a door apart. -/
theorem Authenticated.same {ctx' : DoorContext} (h : Authenticated code d ctx)
    (h' : Authenticated code d' ctx') (hpasses : d'.doorPasses = d.doorPasses)
    (hevents : d'.events = d.events) : ctx'.eventId = ctx.eventId ∧ ctx'.window = ctx.window := by
  obtain ⟨c, hcode, hpass⟩ := h.pass
  obtain ⟨c', hcode', hpass'⟩ := h'.pass
  obtain rfl : c = c' := Option.some.inj (hcode.symm.trans hcode')
  rw [hpasses, hpass] at hpass'
  have hsame : ctx.pass = ctx'.pass := eq_of_heq (Sigma.mk.inj (Option.some.inj hpass')).2
  have heventId : ctx'.eventId = ctx.eventId := by rw [h'.eventId, h.eventId, hsame]
  have hevent := h'.event
  rw [hevents, heventId, h.event] at hevent
  exact ⟨heventId, by rw [h'.window, h.window, Option.some.inj hevent]⟩

end Pass

section Lists

variable {digest : String → String → String} {nameLe : String → String → Bool} {salt c : String}
  {ctx : DoorContext} {d d' : Db} {l : OfflineList Id} {further : Table Id CheckIn}

/-- What the tickets table keeps: its CHECKs and the unique index on codes. -/
structure Db.Constrained (d : Db) : Prop where
  checks : ∀ id row, d.tickets.lookup id = some row → row.broken = none
  codes : ∀ id id' row row', d.tickets.lookup id = some row → d.tickets.lookup id' = some row' →
    row.code = row'.code → id = id'

theorem lookup_union_or {s t : Table Id CheckIn} (id : Id) :
    (s ∪ t).lookup id = (s.lookup id).or (t.lookup id) := by
  by_cases hs : id ∈ s
  · obtain ⟨c, hc⟩ := Option.isSome_iff_exists.1 (AList.lookup_isSome.2 hs)
    rw [AList.lookup_union_left hs, hc, Option.some_or]
  · rw [AList.lookup_union_right hs, AList.lookup_eq_none.2 hs, Option.none_or]

/-- `d'` is `d` with some more check-ins; the log and the clock may have gone on. -/
structure InSince (further : Table Id CheckIn) (d d' : Db) : Prop where
  tickets : ∀ id, d'.tickets.lookup id =
    (d.tickets.lookup id).map fun row => { row with checkIn := (further.lookup id).or row.checkIn }
  ticketTypes : d'.ticketTypes = d.ticketTypes
  orders : d'.orders = d.orders
  events : d'.events = d.events
  doorPasses : d'.doorPasses = d.doorPasses

/-- More check-ins after those. -/
theorem InSince.trans {more : Table Id CheckIn} {d₂ : Db} (h : InSince further d d')
    (h' : InSince more d' d₂) : InSince (more ∪ further) d d₂ := by
  refine ⟨fun id => ?_, h'.ticketTypes.trans h.ticketTypes, h'.orders.trans h.orders,
    h'.events.trans h.events, h'.doorPasses.trans h.doorPasses⟩
  rw [h'.tickets, h.tickets, Option.map_map, lookup_union_or]
  cases d.tickets.lookup id with
  | none => rfl
  | some row => simp [Option.or_assoc]

/-- Nothing has changed but the time. -/
theorem InSince.later {clock : Time} : InSince ∅ d { d with clock } :=
  ⟨fun id => by simp, rfl, rfl, rfl, rfl⟩

/-- No other ticket's code has the digest of the code that was scanned. -/
def CollisionFree (digest : String → String → String) (salt : String) (d : Db) (raw : String) :
    Prop :=
  ∀ c ∈ parseScanToken raw, ∀ id row, d.tickets.lookup id = some row →
    digest salt row.code = digest salt c → row.code = c

theorem offlineList_alone
    (h : ((doorService.offlineList digest nameLe salt ctx).alone d).1 = .ok l) :
    l.salt = salt ∧ l.validFrom = ctx.window.validFrom ∧ l.validUntil = ctx.window.validUntil ∧
      ∀ e, e ∈ l.entries ↔ ∃ id row, d.tickets.lookup id = some row ∧ row.eventId = ctx.eventId ∧
        ∃ r, d.offlineRow ⟨id, row⟩ = some r ∧ e = r.entry digest salt := by
  obtain ⟨d', h⟩ := Svc.alone_fst h
  unfold doorService.offlineList at h
  rw [Svc.alone_bind_ok (Svc.alone_now d)] at h
  have hread : (Svc.query (doorRepository.offlineList nameLe ctx.eventId)).alone d = (.ok _, d) :=
    Svc.alone_query _ _ _
  rw [Svc.alone_bind_ok hread] at h
  cases h
  refine ⟨rfl, rfl, rfl, fun e => ?_⟩
  simp only [List.mem_map, List.mem_insertionSort, List.mem_filterMap, List.mem_filter]
  constructor
  · rintro ⟨r, ⟨⟨id, row⟩, ⟨hmem, hevent⟩, hr⟩, rfl⟩
    exact ⟨id, row, AList.mem_lookup_iff.2 hmem, by simpa using hevent, r, hr, rfl⟩
  · rintro ⟨id, row, hrow, hevent, r, hr, rfl⟩
    exact ⟨r, ⟨⟨id, row⟩, ⟨AList.mem_lookup_iff.1 hrow, by simpa using hevent⟩, hr⟩, rfl⟩

/-- The ticket of a code, as the door finds it. -/
def Db.ofCode (d : Db) (c : String) : Option DoorTicket :=
  (d.tickets.entries.find? fun e => e.2.code == c).bind fun e => d.doorTicket e.1

theorem InSince.code (hs : InSince further d d') (hd : d.Constrained) {id : Id} {row : Ticket}
    (hrow : d.tickets.lookup id = some row) : d'.ofCode row.code = d'.doorTicket id := by
  unfold Db.ofCode
  have hrow' : d'.tickets.lookup id = some { row with
      checkIn := (further.lookup id).or row.checkIn } := by rw [hs.tickets, hrow]; rfl
  cases hfind : d'.tickets.entries.find? fun e => e.2.code == row.code with
  | none =>
    have hnone := List.find?_eq_none.1 hfind _ (AList.mem_lookup_iff.1 hrow')
    exact absurd (beq_self_eq_true row.code) hnone
  | some e =>
    have he := AList.mem_lookup_iff.2 (List.mem_of_find?_eq_some hfind)
    have hcode : e.2.code = row.code := by simpa using List.find?_some hfind
    rw [hs.tickets] at he
    obtain ⟨row₁, hrow₁, hsame⟩ := Option.map_eq_some_iff.1 he
    have hcode₁ : row₁.code = row.code := by rw [← hcode, ← hsame]
    rw [hd.codes _ _ _ _ hrow hrow₁ hcode₁.symm]
    rfl

theorem InSince.of_code (hs : InSince further d d') {t : DoorTicket} (h : d'.ofCode c = some t) :
    ∃ row, d.tickets.lookup t.id = some row ∧ row.code = c := by
  obtain ⟨e, hfind, ht⟩ := Option.bind_eq_some_iff.1 h
  obtain ⟨hid, -⟩ := doorService.doorTicket_status ht
  have he := AList.mem_lookup_iff.2 (List.mem_of_find?_eq_some hfind)
  have hcode : e.2.code = c := by simpa using List.find?_some hfind
  rw [hs.tickets] at he
  obtain ⟨row, hrow, hsame⟩ := Option.map_eq_some_iff.1 he
  refine ⟨row, hid ▸ hrow, ?_⟩
  rw [← hcode, ← hsame]

/-- An entry of the list and the ticket the door finds. -/
structure Matches (further : Table Id CheckIn) (ctx : DoorContext) (e : OfflineEntry Id)
    (t : DoorTicket) : Prop where
  event : t.eventId = ctx.eventId
  id : e.id = t.id
  status : e.status = t.status
  inside : t.checkIn.isSome = ((further.lookup t.id).isSome || e.inAt.isSome)

theorem InSince.doorTicket (hs : InSince further d d') (digest : String → String → String)
    (salt : String) {id : Id} {row : Ticket} {r : OfflineListRow}
    (hrow : d.tickets.lookup id = some row) (hr : d.offlineRow ⟨id, row⟩ = some r)
    (hevent : (d.events.lookup row.eventId).isSome) (hctx : row.eventId = ctx.eventId) :
    ∃ t, d'.doorTicket id = some t ∧ Matches further ctx (r.entry digest salt) t := by
  simp only [Db.offlineRow, Option.bind_eq_bind, Option.bind_eq_some_iff, Option.some.injEq] at hr
  obtain ⟨ty, hty, o, ho, rfl⟩ := hr
  obtain ⟨ev, hev⟩ := Option.isSome_iff_exists.1 hevent
  have hrow' : d'.tickets.lookup id = some { row with
      checkIn := (further.lookup id).or row.checkIn } := by rw [hs.tickets, hrow]; rfl
  have hinside : ((further.lookup id).or row.checkIn).isSome =
      ((further.lookup id).isSome || (row.checkIn.map (·.checkedInAt)).isSome) := by
    rw [Option.isSome_or, Option.isSome_map]
  unfold Db.doorTicket
  rw [hs.ticketTypes, hs.orders, hs.events, hrow']
  simp only [Option.bind_eq_bind, Option.bind_some, hty, ho, hev]
  exact ⟨_, rfl, hctx, rfl, rfl, hinside⟩

theorem InSince.offlineRow (hs : InSince further d d') {id : Id} {row : Ticket} {t : DoorTicket}
    (hrow : d.tickets.lookup id = some row) (ht : d'.doorTicket id = some t) :
    t.eventId = row.eventId ∧ (d.offlineRow ⟨id, row⟩).isSome := by
  have hrow' : d'.tickets.lookup id = some { row with
      checkIn := (further.lookup id).or row.checkIn } := by rw [hs.tickets, hrow]; rfl
  simp only [Db.doorTicket, Option.bind_eq_bind, Option.bind_eq_some_iff, Option.some.injEq] at ht
  obtain ⟨row', hlookup, ty, hty, o, ho, ev, -, rfl⟩ := ht
  obtain rfl := Option.some.inj (hlookup.symm.trans hrow')
  rw [hs.ticketTypes] at hty
  rw [hs.orders] at ho
  refine ⟨rfl, ?_⟩
  unfold Db.offlineRow
  have hty' : d.ticketTypes.lookup row.ticketTypeId = some ty := hty
  have ho' : d.orders.lookup row.orderId = some o := ho
  simp only [Option.bind_eq_bind, hty', ho', Option.bind_some, Option.isSome_some]

/-- What the phone finds of a code is what the door finds of it, or the door finds nothing of this
event. -/
theorem index_matches (hd : d.Constrained) (hs : InSince further d d')
    (hlist : ((doorService.offlineList digest nameLe salt ctx).alone d).1 = .ok l)
    (hevent : (d.events.lookup ctx.eventId).isSome)
    (hfree : ∀ id row, d.tickets.lookup id = some row →
      digest salt row.code = digest salt c → row.code = c) :
    (l.index (digest salt c) = none ∧ ∀ t, d'.ofCode c = some t → t.eventId ≠ ctx.eventId) ∨
      ∃ e t, l.index (digest salt c) = some e ∧ d'.ofCode c = some t ∧ Matches further ctx e t := by
  obtain ⟨-, -, -, hentries⟩ := offlineList_alone hlist
  unfold OfflineList.index
  cases hfind : l.entries.reverse.find? (·.d == digest salt c) with
  | none =>
    refine .inl ⟨rfl, fun t ht htevent => ?_⟩
    obtain ⟨row, hrow, hcode⟩ := hs.of_code ht
    have hcode' := hs.code hd hrow
    rw [hcode, ht] at hcode'
    obtain ⟨hsame, hr⟩ := hs.offlineRow hrow hcode'.symm
    obtain ⟨r, hr⟩ := Option.isSome_iff_exists.1 hr
    have hmem : r.entry digest salt ∈ l.entries :=
      (hentries _).2 ⟨t.id, row, hrow, hsame ▸ htevent, r, hr, rfl⟩
    have hnot := List.find?_eq_none.1 hfind _ (List.mem_reverse.2 hmem)
    simp only [Db.offlineRow, Option.bind_eq_bind, Option.bind_eq_some_iff,
      Option.some.injEq] at hr
    obtain ⟨ty, -, o, -, rfl⟩ := hr
    refine hnot ?_
    rw [← hcode]
    exact beq_self_eq_true _
  | some e =>
    have he := List.mem_reverse.1 (List.mem_of_find?_eq_some hfind)
    have hdigest : e.d = digest salt c := by simpa using List.find?_some hfind
    obtain ⟨id, row, hrow, hctx, r, hr, rfl⟩ := (hentries e).1 he
    have hcode : row.code = c := by
      refine hfree id row hrow ?_
      rw [← hdigest]
      simp only [Db.offlineRow, Option.bind_eq_bind, Option.bind_eq_some_iff,
        Option.some.injEq] at hr
      obtain ⟨ty, -, o, -, rfl⟩ := hr
      rfl
    obtain ⟨t, ht, hmatches⟩ :=
      hs.doorTicket digest salt hrow hr (hctx ▸ hevent) hctx
    refine .inr ⟨_, t, rfl, ?_, hmatches⟩
    rw [← hcode, hs.code hd hrow, ht]

end Lists

section Kinds

open doorService

variable {ctx : DoorContext} {item : ScanItem} {d : Db} {t : DoorTicket}
  {further : Table Id CheckIn} {e : OfflineEntry Id} {p : Phone Id}

/-- What a door that is open, or rehearses, answers a ticket of its event. -/
def doorKind (practice : Bool) (t : DoorTicket) : ScanResultKind :=
  if t.status == .cancelled then .cancelled
  else if t.checkIn.isSome then .alreadyIn
  else if practice then .practiceOk
  else .admitted

/-- The server's kind is the phone's, but for a ticket of another event, which the phone does not
know. -/
def SameKind (phone server : ScanResultKind) : Prop :=
  server = phone ∨ phone = .unknown ∧ server = .wrongEvent

theorem SameKind.admitted {phone server : ScanResultKind} (h : SameKind phone server) :
    server = .admitted ↔ phone = .admitted := by
  rcases h with rfl | ⟨rfl, rfl⟩
  · rfl
  · decide

theorem judgeOffline_verdict {κ : Type} (entry : Option (OfflineEntry κ))
    (known : Option LocalAdmit) (now validFrom : Time) :
    (judgeOffline entry known now validFrom).practice = decide (now < validFrom) ∧
      (judgeOffline entry known now validFrom).verdict =
        if now < validFrom then .practice
        else if (judgeOffline entry known now validFrom).result = .admitted then .admitted
        else .refused := by
  unfold judgeOffline
  rcases entry with _ | e
  · by_cases hpractice : now < validFrom <;> simp [hpractice]
  by_cases hstatus : e.status = .cancelled
  · by_cases hpractice : now < validFrom <;> simp [hstatus, hpractice]
  rcases known with _ | known
  swap
  · by_cases hpractice : now < validFrom <;> simp [hstatus, hpractice]
  rcases hin : e.inAt with _ | t <;> by_cases hpractice : now < validFrom <;>
    simp [hstatus, hin, hpractice]

theorem judge_matches {r : Read Id} (hr : r.entry = some e) (h : Matches further ctx e t)
    (hmarks : (p.mark t.id).isSome = (further.lookup t.id).isSome) :
    (p.judge r).result = doorKind (decide (r.at_ < r.validFrom)) t := by
  have hinside := h.inside
  rw [← hmarks, ← h.id] at hinside
  unfold Phone.judge judgeOffline doorKind
  rw [hr, ← h.status]
  dsimp only [Option.bind_some]
  by_cases hstatus : e.status = .cancelled
  · simp [hstatus]
  rcases hmark : p.mark e.id with _ | m
  swap
  · simp [hstatus, hinside, hmark]
  rcases hin : e.inAt with _ | at_
  · by_cases hpractice : r.at_ < r.validFrom <;> simp [hstatus, hinside, hmark, hin, hpractice]
  · simp [hstatus, hinside, hmark, hin]

/-- A scan of a code, not by name: the phone's digits are not asked for. -/
structure OfCode (item : ScanItem) (raw : String) : Prop where
  ticketId : item.ticketId = none
  method : item.method ≠ .search
  parsed : parseScanToken (item.input.getD "") = parseScanToken raw

theorem OfCode.of_input {raw s : String} (hid : item.ticketId = none)
    (hmethod : item.method ≠ .search) (hinput : item.input = some s)
    (hparsed : parseScanToken s = parseScanToken raw) : OfCode item raw := by
  refine ⟨hid, hmethod, ?_⟩
  rw [hinput, Option.getD_some]
  exact hparsed

theorem OfCode.named {raw : String} (h : OfCode item raw) (d : Db) :
    (doorService.named item d).1 = (parseScanToken raw).bind d.ofCode := by
  unfold doorService.named
  rw [h.ticketId]
  dsimp only
  rw [h.parsed]
  rfl

theorem judge_other (h : ∀ t, (doorService.named item d).1 = some t → t.eventId ≠ ctx.eventId) :
    SameKind .unknown (judge ctx item d) := by
  unfold judge
  cases hn : (doorService.named item d).1 with
  | none => exact .inl rfl
  | some t =>
    dsimp only
    rw [if_pos (h t hn)]
    exact .inr ⟨rfl, rfl⟩

theorem judge_door {raw : String} (h : OfCode item raw) (hn : (doorService.named item d).1 = some t)
    (hevent : t.eventId = ctx.eventId) : judge ctx item d =
      if rehearses ctx item || item.offline.any fun o => o.verdict ≠ .admitted then
        wouldBe (rehearses ctx item) t
      else doorKind false t := by
  have hmethod : (item.method == .search) = false := by simpa using h.method
  unfold judge
  rw [hn]
  dsimp only
  rw [if_neg (not_not.2 hevent), hmethod]
  rfl

theorem wouldBe_practice (t : DoorTicket) : wouldBe true t = doorKind true t := rfl

theorem wouldBe_refused (h : doorKind false t ≠ .admitted) :
    wouldBe false t = doorKind false t := by
  unfold doorKind at h
  unfold wouldBe doorKind
  by_cases hstatus : t.status = .cancelled
  · simp [hstatus]
  · by_cases hin : t.checkIn.isSome = true
    · simp [hstatus, hin]
    · simp [hstatus, hin] at h

theorem rehearses_online (h : item.offline = none) : rehearses ctx item = ctx.practice := by
  unfold rehearses
  rw [h, Option.any_none, Bool.or_false]

theorem judge_online {raw : String} (h : OfCode item raw)
    (hn : (doorService.named item d).1 = some t) (hevent : t.eventId = ctx.eventId)
    (honline : item.offline = none) : judge ctx item d = doorKind ctx.practice t := by
  rw [judge_door h hn hevent, rehearses_online honline, honline, Option.any_none, Bool.or_false]
  cases ctx.practice with
  | true => exact wouldBe_practice t
  | false => rfl

/-- A scan the phone answered as the door would, sent later, is answered the same again. -/
theorem judge_sync {raw : String} {practice : Bool} {v : DoorVerdict} {s : Option Id}
    (h : OfCode item raw) (hn : (doorService.named item d).1 = some t)
    (hevent : t.eventId = ctx.eventId) (hoffline : item.offline = some ⟨v, s⟩)
    (hpractice : ctx.practice = true → practice = true)
    (hv : v = if practice then .practice
      else if doorKind practice t = .admitted then .admitted else .refused) :
    judge ctx item d = doorKind practice t := by
  have hrehearses : rehearses ctx item = (ctx.practice || v == .practice) := by
    unfold rehearses
    rw [hoffline]
    rfl
  rw [judge_door h hn hevent, hrehearses, hoffline, Option.any_some]
  cases practice with
  | true =>
    rw [if_pos rfl] at hv
    rw [hv, beq_self_eq_true, Bool.or_true, Bool.true_or, if_pos rfl]
    exact wouldBe_practice t
  | false =>
    have hopen : ctx.practice = false := by
      by_contra hne
      exact absurd (hpractice (by simpa using hne)) Bool.false_ne_true
    rw [if_neg Bool.false_ne_true] at hv
    rw [hopen, hv]
    by_cases hadmitted : doorKind false t = .admitted
    · rw [if_pos hadmitted]
      rfl
    · rw [if_neg hadmitted]
      exact wouldBe_refused hadmitted

end Kinds

section Agreement

open doorService

variable {digest : String → String → String} {nameLe : String → String → Bool}
  {code salt raw : String} {ctx ctx' : DoorContext} {d d' : Db} {l : OfflineList Id}
  {further : Table Id CheckIn} {p : Phone Id} {method : ScanMethod}

/-- A phone with the list it downloaded from `d`, and the check-ins since as its marks. -/
structure Holds (digest : String → String → String) (nameLe : String → String → Bool)
    (code salt : String) (further : Table Id CheckIn) (d d' : Db) (p : Phone Id) : Prop where
  constrained : d.Constrained
  since : InSince further d d'
  downloaded : ∃ ctx l, ((authenticate code).alone d).1 = .ok (some ctx) ∧
    ((doorService.offlineList digest nameLe salt ctx).alone d).1 = .ok l ∧ p.list = some l
  marks : ∀ id, (p.mark id).isSome = (further.lookup id).isSome

/-- A scan whose pass is good and whose ticket keeps its CHECKs is not refused. -/
theorem Holds.not_refused (h : Holds digest nameLe code salt further d d' p) {d₂ : Db}
    {since : Table Id CheckIn} (hsince : InSince since d d₂) {item : ScanItem}
    (hauth : Authenticated code d₂ ctx) : ¬ Refused ctx item d₂ := by
  rintro (hrevoked | ⟨t, row, -, hrow, hposition⟩)
  · obtain ⟨pass, hpass, hactive⟩ := hauth.active_pass
    have hsome := hrevoked pass hpass
    rw [hactive] at hsome
    cases hsome
  · rw [hsince.tickets] at hrow
    obtain ⟨row₀, hrow₀, hsame⟩ := Option.map_eq_some_iff.1 hrow
    have hbroken := h.constrained.checks t.id row₀ hrow₀
    have hplace : row₀.position < 1 := by
      rw [← hsame] at hposition
      exact hposition
    unfold Ticket.broken at hbroken
    rw [if_pos hplace] at hbroken
    cases hbroken

/-- A read of the phone at the time of `d'`, and what the door finds of the same code whenever the
check-ins since the list's `d` are all that has changed. -/
structure ReadAs (code raw : String) (d d' : Db) (r : Read Id) : Prop where
  text : r.raw = raw
  at_ : r.at_ = d'.clock
  practice : ∀ {since d₂ ctx}, InSince since d d₂ → Authenticated code d₂ ctx →
    ctx.practice = decide (d₂.clock < r.validFrom)
  found : ∀ {since d₂ ctx item}, InSince since d d₂ → OfCode item raw →
    Authenticated code d₂ ctx →
      (r.entry = none ∧ ∀ t, (named item d₂).1 = some t → t.eventId ≠ ctx.eventId) ∨
        ∃ e t, r.entry = some e ∧ (named item d₂).1 = some t ∧ Matches since ctx e t

theorem Holds.read (h : Holds digest nameLe code salt further d d' p)
    (hauth : Authenticated code d' ctx') (hfree : CollisionFree digest salt d raw) :
    ∃ r, p.read digest d'.clock raw = some r ∧ ReadAs code raw d d' r := by
  obtain ⟨ctx, l, hctx, hlist, hp⟩ := h.downloaded
  have hauth₀ := authenticate_alone hctx
  obtain ⟨hsalt, hfrom, huntil, -⟩ := offlineList_alone hlist
  have hwindow : ctx'.window = ctx.window :=
    (hauth₀.same hauth h.since.doorPasses h.since.events).2
  have hread : p.read digest d'.clock raw =
      some ⟨raw, findEntry digest l raw, d'.clock, l.validFrom⟩ := by
    unfold Phone.read
    rw [hp]
    dsimp only
    rw [if_neg]
    rw [huntil, ← hwindow]
    exact not_lt.2 hauth.until_
  refine ⟨_, hread, rfl, rfl, fun hsince hauth₂ => ?_, fun {_ d₂ ctx₂ _} hsince hitem hauth₂ => ?_⟩
  · rw [hauth₂.practice, (hauth₀.same hauth₂ hsince.doorPasses hsince.events).2, hfrom]
  · have heventId : ctx₂.eventId = ctx.eventId :=
      (hauth₀.same hauth₂ hsince.doorPasses hsince.events).1
    rw [hitem.named]
    unfold findEntry
    dsimp only
    cases hcode : parseScanToken raw with
    | none => exact .inl ⟨rfl, fun t ht => by cases ht⟩
    | some c =>
      rw [Option.bind_some, Option.bind_some, hsalt]
      have hevent : (d.events.lookup ctx.eventId).isSome := by rw [hauth₀.event]; rfl
      rcases index_matches h.constrained hsince hlist hevent (hfree c hcode) with
        ⟨hnone, hother⟩ | ⟨e, t, he, ht, hmatches⟩
      · refine .inl ⟨hnone, fun t ht => ?_⟩
        rw [heventId]
        exact hother t ht
      · refine .inr ⟨e, t, he, ht, ?_⟩
        exact ⟨hmatches.event.trans heventId.symm, hmatches.id, hmatches.status, hmatches.inside⟩

theorem judge_none {r : Read Id} (h : r.entry = none) : (p.judge r).result = .unknown := by
  unfold Phone.judge
  rw [h]
  rfl

theorem Holds.online (h : Holds digest nameLe code salt further d d' p) {r : Read Id}
    (hr : ReadAs code raw d d' r) (hauth : Authenticated code d' ctx') {item : ScanItem}
    (hof : OfCode item raw) (honline : item.offline = none)
    (hnew : d'.doorScans.lookup item.scanId = none) :
    ∃ res d₁ server, (scan ctx' item).alone d' = (.ok res, d₁) ∧ res.result = .logged server ∧
      SameKind (p.judge r).result server ∧ (p.judge r).practice = res.practice := by
  have hpractice : ctx'.practice = decide (r.at_ < r.validFrom) := by
    rw [hr.at_]
    exact hr.practice h.since hauth
  rcases scan_new ctx' hnew with ⟨e, -, hrefused⟩ | ⟨res, d₁, hscan, hans⟩
  · exact absurd hrefused (h.not_refused h.since hauth)
  refine ⟨res, d₁, _, hscan, hans.result, ?_, ?_⟩
  · rcases hr.found h.since hof hauth with ⟨hnone, hother⟩ | ⟨e, t, he, ht, hmatches⟩
    · rw [judge_none hnone]
      exact judge_other hother
    · rw [judge_matches he hmatches (h.marks t.id), ← hpractice]
      exact .inl (judge_online hof ht hmatches.event honline)
  · rw [hans.practice, rehearses_online honline, hpractice]
    exact (judgeOffline_verdict _ _ _ _).1

/-- The scan is sent when others may have come in, but not on the ticket that was read. -/
theorem Holds.synced (h : Holds digest nameLe code salt further d d' p) {r : Read Id}
    (hr : ReadAs code raw d d' r) {more : Table Id CheckIn} {d₂ : Db} (hmore : InSince more d' d₂)
    (hlater : d'.clock ≤ d₂.clock) (hauth : Authenticated code d₂ ctx) {item : ScanItem}
    (hof : OfCode item raw) (huntouched : ∀ t, (named item d₂).1 = some t → more.lookup t.id = none)
    {supersedes : Option Id} (hoffline : item.offline = some ⟨(p.judge r).verdict, supersedes⟩)
    (hnew : d₂.doorScans.lookup item.scanId = none) :
    ∃ res d₃ row, (scan ctx item).alone d₂ = (.ok res, d₃) ∧
      d₃.doorScans.lookup item.scanId = some row ∧ SameKind (p.judge r).result row.result := by
  have hsince := h.since.trans hmore
  rcases scan_new ctx hnew with ⟨e, -, hrefused⟩ | ⟨res, d₃, hscan, hans⟩
  · exact absurd hrefused (h.not_refused hsince hauth)
  refine ⟨res, d₃, logged ctx item d₂, hscan, ?_, ?_⟩
  · rw [hans.scans]
    exact AList.lookup_insert _
  have hresult : (logged ctx item d₂).result = judge ctx item d₂ := rfl
  rw [hresult]
  rcases hr.found hsince hof hauth with ⟨hnone, hother⟩ | ⟨e, t, he, ht, hmatches⟩
  · rw [judge_none hnone]
    exact judge_other hother
  · have hmarks : (p.mark t.id).isSome = ((more ∪ further).lookup t.id).isSome := by
      rw [lookup_union_or, huntouched t ht, Option.none_or]
      exact h.marks t.id
    have hkind := judge_matches he hmatches hmarks
    rw [hkind]
    refine .inl (judge_sync hof ht hmatches.event hoffline ?_ ?_)
    · rw [hr.practice hsince hauth, decide_eq_true_eq, decide_eq_true_eq, hr.at_]
      exact fun hbefore => lt_of_le_of_lt hlater hbefore
    · rw [← hkind]
      simp only [decide_eq_true_eq]
      exact (judgeOffline_verdict _ _ _ _).2

/-- What the phone sends of a read names the code that was read. -/
theorem syncScan_ofCode (p : Phone Id) (supersedes : Option Id) (scanId : Id) {r : Read Id}
    (hr : r.raw = raw) (hraw : jsLength raw ≤ scanInputMax) (hmethod : method ≠ .search) :
    OfCode (p.outboxItem r method supersedes scanId r.at_ (p.judge r).verdict).syncScan raw := by
  have hparsed : parseScanToken (loggableInput r.raw) = parseScanToken raw := by
    rw [hr, parseScanToken_loggable hraw]
  have hinput : (p.outboxItem r method supersedes scanId r.at_ (p.judge r).verdict).syncScan.input =
      some (loggableInput r.raw) := by
    simp only [OutboxItem.syncScan, Phone.outboxItem]
  exact .of_input rfl hmethod hinput hparsed

/-- An answer queues the read it answered. -/
theorem queued_answer {r : Read Id} {supersedes : Option Id} {scanId : Id} {item : OutboxItem Id}
    (h : .queued item ∈ (p.step (.answer r method supersedes scanId)).2) :
    item = p.outboxItem r method supersedes scanId r.at_ (p.judge r).verdict := by
  rcases List.mem_cons.1 h with heq | htold
  · exact PhoneNote.queued.inj heq
  · obtain ⟨m, -, hm⟩ := List.mem_map.1 htold
    cases hm

/-- The phone judges a read as the server's scan does at that instant, and as the server records
it when nothing else changes before it is sent: but a ticket of another event is unknown to it. -/
theorem judgeOffline_agrees (h : Holds digest nameLe code salt further d d' p)
    (hctx : ((authenticate code).alone d').1 = .ok (some ctx'))
    (hraw : jsLength raw ≤ scanInputMax) (hfree : CollisionFree digest salt d raw)
    (hmethod : method ≠ .search) (scanId : Id) (hnew : d'.doorScans.lookup scanId = none) :
    ∃ r phone, p.read digest d'.clock raw = some r ∧
      (p.shown r scanId).result = .logged phone ∧
      (∀ scannedAt, ∃ res d₁ server,
        (scan ctx' { scanId, input := some raw, ticketId := none, phoneLast3 := none, method
                     scannedAt, offline := none }).alone d' = (.ok res, d₁) ∧
          res.result = .logged server ∧ SameKind phone server ∧
            (p.shown r scanId).practice = res.practice) ∧
      ∀ supersedes item clock ctx₂,
        .queued item ∈ (p.step (.answer r method supersedes scanId)).2 → d'.clock ≤ clock →
        ((authenticate code).alone { d' with clock }).1 = .ok (some ctx₂) →
          ∃ res d₁ row, (scan ctx₂ item.syncScan).alone { d' with clock } = (.ok res, d₁) ∧
            d₁.doorScans.lookup scanId = some row ∧
              (row.result = .admitted ↔ phone = .admitted) ∧ SameKind phone row.result := by
  have hauth := authenticate_alone hctx
  obtain ⟨r, hread, hr⟩ := h.read hauth hfree
  refine ⟨r, (p.judge r).result, hread, rfl, fun scannedAt => ?_,
    fun supersedes item clock ctx₂ hitem hlater hctx₂ => ?_⟩
  · have hof : OfCode ⟨scanId, some raw, none, none, method, scannedAt, none⟩ raw :=
      .of_input rfl hmethod rfl rfl
    obtain ⟨res, d₁, server, hscan, hres, hkind, hpractice⟩ := h.online hr hauth hof rfl hnew
    exact ⟨res, d₁, server, hscan, hres, hkind, hpractice⟩
  · obtain rfl := queued_answer hitem
    have hof := syncScan_ofCode p supersedes scanId hr.text hraw hmethod
    obtain ⟨res, d₁, row, hscan, hrow, hkind⟩ :=
      h.synced hr InSince.later hlater (authenticate_alone hctx₂) hof (fun _ _ => rfl) rfl hnew
    exact ⟨res, d₁, row, hscan, hrow, hkind.admitted, hkind⟩

/-- What a phone answers without signal is what the door would answer, and what the door records
when the phone sends it, if only other tickets have been checked in by then: but a ticket of
another event is unknown to the phone. -/
theorem offline_agrees (h : Holds digest nameLe code salt further d d' p)
    (hctx : ((authenticate code).alone d').1 = .ok (some ctx'))
    (hraw : jsLength raw ≤ scanInputMax) (hfree : CollisionFree digest salt d raw)
    (hmethod : method ≠ .search) (scanId : Id) (hnew : d'.doorScans.lookup scanId = none) :
    ∃ r, p.read digest d'.clock raw = some r ∧
      (∀ scannedAt, ∃ res d₁ phone server,
        (scan ctx' { scanId, input := some raw, ticketId := none, phoneLast3 := none, method
                     scannedAt, offline := none }).alone d' = (.ok res, d₁) ∧
          (p.shown r scanId).result = .logged phone ∧ res.result = .logged server ∧
            SameKind phone server ∧ (p.shown r scanId).practice = res.practice) ∧
      ∀ supersedes item more d₂ ctx₂,
        .queued item ∈ (p.step (.answer r method supersedes scanId)).2 →
        InSince more d' d₂ → d'.clock ≤ d₂.clock → d₂.doorScans.lookup scanId = none →
        (∀ c t, parseScanToken raw = some c → d₂.ofCode c = some t → more.lookup t.id = none) →
        ((authenticate code).alone d₂).1 = .ok (some ctx₂) →
          ∃ res d₃ row phone, (scan ctx₂ item.syncScan).alone d₂ = (.ok res, d₃) ∧
            d₃.doorScans.lookup scanId = some row ∧ (p.shown r scanId).result = .logged phone ∧
              SameKind phone row.result := by
  have hauth := authenticate_alone hctx
  obtain ⟨r, hread, hr⟩ := h.read hauth hfree
  refine ⟨r, hread, fun scannedAt => ?_, fun supersedes item more d₂ ctx₂ hitem hmore hlater hnew₂
    huntouched hctx₂ => ?_⟩
  · have hof : OfCode ⟨scanId, some raw, none, none, method, scannedAt, none⟩ raw :=
      .of_input rfl hmethod rfl rfl
    obtain ⟨res, d₁, server, hscan, hres, hkind, hpractice⟩ := h.online hr hauth hof rfl hnew
    exact ⟨res, d₁, _, server, hscan, rfl, hres, hkind, hpractice⟩
  · obtain rfl := queued_answer hitem
    have hof := syncScan_ofCode p supersedes scanId hr.text hraw hmethod
    have htouch : ∀ t, (named (p.outboxItem r method supersedes scanId r.at_
        (p.judge r).verdict).syncScan d₂).1 = some t → more.lookup t.id = none := by
      intro t ht
      rw [hof.named] at ht
      obtain ⟨c, hc, ht⟩ := Option.bind_eq_some_iff.1 ht
      exact huntouched c t hc ht
    obtain ⟨res, d₃, row, hscan, hrow, hkind⟩ :=
      h.synced hr hmore hlater (authenticate_alone hctx₂) hof htouch rfl hnew₂
    exact ⟨res, d₃, row, _, hscan, hrow, rfl, hkind⟩

end Agreement

section Evening

/-- Texts in the order of their characters. -/
def plainOrder (a b : String) : Bool := decide (a ≤ b)

def colonDigest (salt code : String) : String := salt ++ ":" ++ code

/-- The one guest, as a door phone has them. -/
def rumiEntry : OfflineEntry Id where
  d := "salt:TKT-4H8ZP2XQ"
  id := 1
  name := "Rumi"
  type := "Floor"
  pos := 1
  of := 1
  status := .issued
  inAt := none
  inBy := none

def nightList : OfflineList Id where
  eventId := 1
  passId := 1
  salt := "salt"
  serverTime := 2 * hourMs
  validFrom := hourMs
  validUntil := 17 * hourMs
  entries := [rumiEntry]

def nightPhone : Phone Id := { Phone.start 1 "Gate A" with list := some nightList }

theorem openingNight_constrained : openingNight.Constrained := by
  constructor
  · intro id row hrow
    obtain ⟨-, rfl⟩ := Table.lookup_singleton.1 hrow
    decide
  · intro id id' row row' hrow hrow' _
    rw [(Table.lookup_singleton.1 hrow).1, (Table.lookup_singleton.1 hrow').1]

theorem nightPhone_holds :
    Holds colonDigest plainOrder "K7QM4XPDR2TW" "salt" ∅ openingNight openingNight nightPhone where
  constrained := openingNight_constrained
  since := ⟨fun id => by simp, rfl, rfl, rfl, rfl⟩
  downloaded := ⟨gateA, nightList, by decide +kernel, by decide +kernel, rfl⟩
  marks _ := rfl

theorem lookup_singleton_ne {ν : Type} {k id : Id} {v : ν} (h : id ≠ k) :
    (AList.singleton k v : Table Id ν).lookup id = none :=
  Option.eq_none_iff_forall_not_mem.2 fun _ hw => h (Table.lookup_singleton.1 hw).1

/-- Rumi came in at the other gate. -/
def rumiIn : Db :=
  { openingNight with
    clock := 2 * hourMs + 9
    tickets := .singleton 1
      { orderId := 1, ticketTypeId := 1, eventId := 1, code := "TKT-4H8ZP2XQ", position := 1
        attendeeName := "Rumi", status := .issued
        checkIn := some ⟨2 * hourMs + 5, "Gate B", 1⟩ } }

/-- The phone once it was told. -/
def toldPhone : Phone Id :=
  nightPhone.learnCheckIns (2 * hourMs + 9) [⟨1, 2 * hourMs + 5, some "Gate B"⟩]

theorem toldPhone_holds : Holds colonDigest plainOrder "K7QM4XPDR2TW" "salt"
    (.singleton 1 ⟨2 * hourMs + 5, "Gate B", 1⟩) openingNight rumiIn toldPhone where
  constrained := openingNight_constrained
  since := by
    refine ⟨fun id => ?_, rfl, rfl, rfl, rfl⟩
    by_cases hid : id = 1
    · subst hid
      decide
    · have hnone : ∀ {ν : Type} (v : ν), (AList.singleton 1 v : Table Id ν).lookup id = none :=
        fun v => lookup_singleton_ne hid
      show (AList.singleton 1 _ : Table Id Ticket).lookup id = _
      rw [hnone, show openingNight.tickets.lookup id = none from hnone _]
      rfl
  downloaded := ⟨gateA, nightList, by decide +kernel, by decide +kernel, rfl⟩
  marks id := by
    by_cases hid : id = 1
    · subst hid
      decide
    · rw [lookup_singleton_ne hid]
      refine congrArg Option.isSome (?_ : toldPhone.mark id = none)
      exact (AList.lookup_insert_ne hid).trans rfl

/-- A phone's answer to the guest's link, at the door and once it was sent. -/
def Answered (p : Phone Id) (d : Db) (kind : ScanResultKind) : Prop :=
  ∃ r, p.read colonDigest d.clock "https://example.com/tickets/tkt-4h8zp2xq" = some r ∧
    (p.judge r).result = kind ∧
    (∃ res d₁,
      (doorService.scan gateA { scanId := 7
                                input := some "https://example.com/tickets/tkt-4h8zp2xq"
                                ticketId := none, phoneLast3 := none, method := .qr
                                scannedAt := none, offline := none }).alone d = (.ok res, d₁) ∧
        res.result = .logged kind) ∧
    ∃ item res d₁ row, .queued item ∈ (p.step (.answer r .qr none 7)).2 ∧
      (doorService.scan gateA item.syncScan).alone d = (.ok res, d₁) ∧
        d₁.doorScans.lookup 7 = some row ∧ row.result = kind

theorem judgeOffline_agrees_evening :
    Answered nightPhone openingNight .admitted ∧ Answered toldPhone rumiIn .alreadyIn := by
  have hcode : parseScanToken "https://example.com/tickets/tkt-4h8zp2xq" =
    some "TKT-4H8ZP2XQ" := by decide +kernel
  have hfree : CollisionFree colonDigest "salt" openingNight
      "https://example.com/tickets/tkt-4h8zp2xq" := by
    intro c hc id row hrow _
    obtain ⟨-, rfl⟩ := Table.lookup_singleton.1 hrow
    exact Option.some.inj (hcode.symm.trans hc)
  have answered : ∀ {further d p kind},
      Holds colonDigest plainOrder "K7QM4XPDR2TW" "salt" further openingNight d p →
      ((doorService.authenticate "K7QM4XPDR2TW").alone d).1 = .ok (some gateA) →
      d.doorScans.lookup 7 = none → kind ≠ .unknown →
      ((p.read colonDigest d.clock "https://example.com/tickets/tkt-4h8zp2xq").map
        fun r => (p.judge r).result) = some kind → Answered p d kind := by
    intro further d p kind hholds hctx hnew hknown hjudged
    have hmethod : ScanMethod.qr ≠ .search := by decide
    obtain ⟨r, phone, hread, hshown, honline, hsynced⟩ :=
      judgeOffline_agrees hholds hctx (by decide +kernel) hfree hmethod 7 hnew
    rw [hread, Option.map_some] at hjudged
    have hkind : (p.judge r).result = kind := Option.some.inj hjudged
    obtain rfl : kind = phone := hkind.symm.trans (ScanAnswer.logged.inj hshown)
    have hsame : ∀ {server}, SameKind kind server → server = kind :=
      fun h => h.resolve_right fun hother => hknown hother.1
    obtain ⟨res, d₁, server, hscan, hres, hserver, -⟩ := honline none
    obtain ⟨res', d₂, row, hscan', hrow, -, hrecorded⟩ :=
      hsynced none _ d.clock gateA (List.mem_cons_self ..) le_rfl hctx
    exact ⟨r, hread, hkind, ⟨res, d₁, hscan, hsame hserver ▸ hres⟩,
      _, res', d₂, row, List.mem_cons_self .., hscan', hrow, hsame hrecorded⟩
  refine ⟨answered nightPhone_holds ?_ rfl ?_ ?_, answered toldPhone_holds ?_ rfl ?_ ?_⟩ <;>
    decide +kernel

/-- An hour on, when the phone has signal again. -/
def backOnline : Db := { openingNight with clock := 3 * hourMs }

theorem offline_agrees_nightPhone : ∃ r, nightPhone.read colonDigest openingNight.clock
    "https://example.com/tickets/tkt-4h8zp2xq" = some r ∧
      (nightPhone.judge r).result = .admitted ∧
      (∃ res d₁ server,
        (doorService.scan gateA { scanId := 7
                                  input := some "https://example.com/tickets/tkt-4h8zp2xq"
                                  ticketId := none, phoneLast3 := none, method := .qr
                                  scannedAt := none, offline := none }).alone openingNight =
          (.ok res, d₁) ∧ res.result = .logged server ∧ SameKind .admitted server) ∧
      ∃ item res d₃ row, .queued item ∈ (nightPhone.step (.answer r .qr none 7)).2 ∧
        (doorService.scan gateA item.syncScan).alone backOnline = (.ok res, d₃) ∧
          d₃.doorScans.lookup 7 = some row ∧ SameKind .admitted row.result := by
  have hfree : CollisionFree colonDigest "salt" openingNight
      "https://example.com/tickets/tkt-4h8zp2xq" := by
    intro c hc id row hrow _
    obtain ⟨-, rfl⟩ := Table.lookup_singleton.1 hrow
    have hcode : parseScanToken "https://example.com/tickets/tkt-4h8zp2xq" =
      some "TKT-4H8ZP2XQ" := by decide +kernel
    exact Option.some.inj (hcode.symm.trans hc)
  have hctx : ((doorService.authenticate "K7QM4XPDR2TW").alone openingNight).1 =
    .ok (some gateA) := by decide +kernel
  have hctx₂ : ((doorService.authenticate "K7QM4XPDR2TW").alone backOnline).1 =
    .ok (some gateA) := by decide +kernel
  have hmethod : ScanMethod.qr ≠ .search := by decide
  obtain ⟨r, hread, honline, hsynced⟩ :=
    offline_agrees nightPhone_holds hctx (by decide +kernel) hfree hmethod 7 rfl
  have hjudged : ((nightPhone.read colonDigest openingNight.clock
      "https://example.com/tickets/tkt-4h8zp2xq").map fun r => (nightPhone.judge r).result) =
        some .admitted := by decide +kernel
  rw [hread, Option.map_some] at hjudged
  have hadmitted : (nightPhone.judge r).result = .admitted := Option.some.inj hjudged
  have hphone : ∀ {phone}, (nightPhone.shown r 7).result = .logged phone → phone = .admitted := by
    intro phone hshown
    have hlogged : ScanAnswer.logged (nightPhone.judge r).result = .logged phone := hshown
    rw [hadmitted] at hlogged
    exact (ScanAnswer.logged.inj hlogged).symm
  obtain ⟨res, d₁, phone, server, hscan, hshown, hres, hkind, -⟩ := honline none
  have hsince : InSince ∅ openingNight backOnline :=
    ⟨fun id => by simp [backOnline], rfl, rfl, rfl, rfl⟩
  have hclock : openingNight.clock ≤ backOnline.clock := by decide
  obtain ⟨res', d₃, row, phone', hscan', hrow, hshown', hkind'⟩ :=
    hsynced none _ ∅ backOnline gateA (List.mem_cons_self ..) hsince hclock rfl
      (fun _ _ _ _ => rfl) hctx₂
  rw [hphone hshown] at hkind
  rw [hphone hshown'] at hkind'
  exact ⟨r, hread, hadmitted, ⟨res, d₁, server, hscan, hres, hkind⟩,
    _, res', d₃, row, List.mem_cons_self .., hscan', hrow, hkind'⟩

end Evening

end EchoAndAura
