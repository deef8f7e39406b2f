import EchoAndAura.Proofs.Batch
import EchoAndAura.Proofs.Admissions

/-!
# Sending a scan again

What happened since a scan was answered leaves its row in the log, the tickets it can name and
their codes; only its check-in can go, and once gone it never comes back (`Db.Stands.earlier`).  So
the answer of a second send is fixed by the first, `rescan` apart (`again_later`), and
`scan_replays` says when the law of replays holds of it.
-/

namespace EchoAndAura

open Txn (Lock writeAll)

variable {d d' d₁ d₂ : Db} {id : Id}

section Kept

theorem gated_later (h : Later d d') (hd : d.Gated) : d'.Gated :=
  h.preserves (fun _ _ _ _ _ ⟨_, _, he, h, _⟩ hd => h ▸ he.gated hd) hd

theorem later_run (hd : Logged d) (sched : List Action) : Later d (run d sched).db :=
  (shop_history hd sched).rely

/-- The row of a scan with a ticket says that this ticket was scanned. -/
def Db.LogNamed (d : Db) : Prop :=
  ∀ scanId s id, d.doorScans.lookup scanId = some s → s.ticketId = some id → d.HasTicket id s.input

theorem Effect.logNamed {K : List (Lock Row)} {ws : List Write} {undone : List (Id × CheckIn)}
    (h : Effect K d ws undone) (hn : d.LogNamed) : (writeAll ws d).LogNamed := by
  intro scanId s id hs hid
  refine h.hasTicket ?_
  cases h.scans with
  | same scans => exact hn scanId s id (scans ▸ hs) hid
  | @logged scanId' s' _ _ _ names scans =>
    rw [scans, Table.lookup_insert_eq] at hs
    split_ifs at hs
    · obtain rfl := Option.some.inj hs
      exact names id hid
    · exact hn scanId s id hs hid
  | @admitted id' t c s' admission names scans =>
    rw [scans, Table.lookup_insert_eq] at hs
    split_ifs at hs
    · obtain rfl := Option.some.inj hs
      rw [admission.ticket] at hid
      obtain rfl := Option.some.inj hid
      exact names
    · exact hn scanId s id hs hid

theorem logNamed_run (hd : Logged d) (hempty : d.doorScans = ∅) (sched : List Action) :
    (run d sched).db.LogNamed :=
  (later_run hd sched).preserves (I := Db.LogNamed)
    (fun _ _ _ _ _ ⟨_, _, he, h, _⟩ hn => h ▸ he.logNamed hn)
    fun _ _ _ hs => by simp [hempty] at hs

end Kept

section Stands

/-- Somebody is in by the scan. -/
def Db.Stands (d : Db) (scanId : Id) : Prop := ∃ id c, d.checkIn id = some c ∧ c.checkedInScanId = scanId

/-- A check-in that is gone never comes back. -/
theorem Db.Stands.earlier {scanId : Id} {s : DoorScan} (hg : Grows d d')
    (hs : d.doorScans.lookup scanId = some s) (h : d'.Stands scanId) : d.Stands scanId := by
  obtain ⟨id, c, hc, rfl⟩ := h
  exact ⟨id, c, hg.checkIn hc hs, rfl⟩

theorem stands_iff {scanId : Id} {s : DoorScan} (hd : Logged d)
    (hs : d.doorScans.lookup scanId = some s) (hid : s.ticketId = some id) :
    d.Stands scanId ↔ (d.checkIn id).map (·.checkedInScanId) = some scanId := by
  constructor
  · rintro ⟨id', c, hc, rfl⟩
    obtain ⟨s', hs', -, hid', -⟩ := hd id' c hc
    rw [hs] at hs'
    cases hs'
    rw [hid] at hid'
    cases hid'
    rw [hc]
    rfl
  · intro h
    obtain ⟨c, hc, hthis⟩ := Option.map_eq_some_iff.1 h
    exact ⟨id, c, hc, hthis⟩

theorem inBy_of_hasTicket {code : String} (h : d.HasTicket id code) :
    d.inBy id = some ((d.checkIn id).map (·.checkedInScanId)) := by
  obtain ⟨t, hrow, -, hty, ho, he⟩ := hasTicket_iff.1 h
  rw [doorService.inBy_eq, Db.checkIn_of_lookup hrow, hrow]
  simp [hty, ho, he]

end Stands

namespace doorService

variable {ctx ctx' : DoorContext} {item item' : ScanItem} {s : DoorScan} {r : ScanResult}

section Law

/-- A ticket that neither a scan nor its row in the log is of. -/
structure Other (item : ScanItem) (s : DoorScan) (t : DoorTicket) : Prop where
  item : item.ticketId ≠ some t.id
  row : s.ticketId ≠ some t.id
  input : s.ticketId = none → s.input ≠ t.code

/-- The scan id of one scan is used for another. -/
inductive Reused (ctx : DoorContext) (item : ScanItem) (d : Db) (ctx' : DoorContext) (item' : ScanItem) :
    Prop
  | pass (pass : ctx'.passId ≠ ctx.passId)
  | verdict (verdict : item'.offline.map (·.verdict) ≠ item.offline.map (·.verdict))
  | ticket {s t} (row : d.doorScans.lookup item.scanId = some s) (known : (named item' d).1 = some t)
      (other : Other item s t)

/-- What a scan answered `r` may be answered when it is sent again, and its id when it is not. -/
structure ReplayLaw (ctx : DoorContext) (item : ScanItem) (r : ScanResult) (d : Db) : Prop where
  again : ∀ ctx' : DoorContext, ctx'.passId = ctx.passId →
    ∃ r', (scan ctx' item).alone d = (.ok r', d) ∧ r'.practice = r.practice ∧
      (r.result = .logged .admitted → ¬d.Stands item.scanId → r'.result = .rescan) ∧
      (r.result ≠ .logged .admitted ∨ d.Stands item.scanId → r'.result = r.result)
  conflict : r.result ≠ .scanIdConflict → ∀ ctx' item', item'.scanId = item.scanId →
    Reused ctx item d ctx' item' →
      ∃ r', (scan ctx' item').alone d = (.ok r', d) ∧ r'.result = .scanIdConflict

/-- The row of a scan remembers that nobody was let in for real. -/
def KeepsPractice (ctx : DoorContext) (item : ScanItem) (d : Db) : Prop :=
  d.doorScans.lookup item.scanId = none → item.offline.isSome → rehearses ctx item = false

/-- The row of a scan tells its ticket from any other. -/
def KeepsTicket (ctx : DoorContext) (item : ScanItem) (d : Db) : Prop :=
  ∀ s, d.doorScans.lookup item.scanId = some s → sameScan ctx item s = true →
    s.ticketId = none → s.input = unknownTicketId → ∀ id t, d.doorTicket id = some t → ¬Other item s t

end Law

section Row

/-- What the log keeps of a scan answered `r`, in `d` once it is answered. -/
structure Row (ctx : DoorContext) (item : ScanItem) (s : DoorScan) (r : ScanResult) (d : Db) : Prop where
  logged : d.doorScans.lookup item.scanId = some s
  result : r.result = again ctx item s d
  names : ∀ id, s.ticketId = some id → d.HasTicket id s.input

theorem named_hasTicket {t : DoorTicket} (h : (named item d).1 = some t) :
    d.doorTicket t.id = some t ∧ (named item d).2 = t.code := by
  refine ⟨doorTicket_of_named h, ?_⟩
  unfold named at h ⊢
  rcases hid : item.ticketId with _ | id
  · simp only [hid] at h ⊢
    obtain ⟨c, hc, hfind⟩ := Option.bind_eq_some_iff.1 h
    rw [hc, (doorTicket_of_code hfind).2]
    rfl
  · simp only [hid] at h ⊢
    rw [h]
    rfl

theorem Row.fresh (hnew : d.doorScans.lookup item.scanId = none)
    (h : Answered ctx item d r d₁) (hl : Later d d₁) :
    Row ctx item (doorService.logged ctx item d) r d₁ ∧
      (r.practice = ((doorService.logged ctx item d).mode == .practice) ↔ KeepsPractice ctx item d) := by
  refine ⟨⟨?_, ?_, fun id hid => ?_⟩, ?_⟩
  · rw [h.scans]
    exact AList.lookup_insert d.doorScans
  · rw [h.again_self, h.result]
  · have hid' : (named item d).1.map (·.id) = some id := hid
    obtain ⟨t, ht, rfl⟩ := Option.map_eq_some_iff.1 hid'
    obtain ⟨hthere, hcode⟩ := named_hasTicket ht
    exact hasTicket_later hl ⟨t, hthere, hcode.symm⟩
  · have hmode : (doorService.logged ctx item d).mode = if item.offline.isSome then .offline
        else if rehearses ctx item then .practice else .online := rfl
    rw [h.practice, hmode]
    unfold KeepsPractice
    rcases rehearses ctx item <;> rcases item.offline with _ | o <;> simp [hnew]

/-- Once it is answered, a scan has its row. -/
theorem row_of_scan (hd : d.Gated) (hn : d.LogNamed) (hctx : ctx.Of d)
    (h : (scan ctx item).alone d = (.ok r, d₁)) : Later d d₁ ∧ ∃ s, Row ctx item s r d₁ ∧
      (r.practice = (s.mode == .practice) ↔ KeepsPractice ctx item d) := by
  have hq : (Request.tick 0).Plain := Request.plain rfl
  have hl : Later d d₁ := by
    have hscan : (scan ctx item).atGate (.tick 0) ctx [] d := scan_wp hq ⟨hd.logged, hctx⟩
    have hlater := Svc.later_alone hscan
    rwa [h] at hlater
  refine ⟨hl, ?_⟩
  rcases hs : d.doorScans.lookup item.scanId with _ | s
  · rcases scan_new ctx hs with ⟨e, he, -⟩ | ⟨r', d', hr, hans⟩
    · rw [h] at he
      cases he
    · rw [h] at hr
      cases hr
      exact ⟨_, Row.fresh hs hans hl⟩
  · obtain ⟨r', hr, hres, hpr⟩ := scan_known ctx hs
    rw [h] at hr
    cases hr
    refine ⟨s, ⟨hs, hres, fun id hid => hn _ s id hs hid⟩, ?_⟩
    rw [hpr]
    exact iff_of_true rfl fun hnone => by rw [hs] at hnone; cases hnone

theorem Row.later (h : Row ctx item s r d₁) (hl : Later d₁ d₂) :
    d₂.doorScans.lookup item.scanId = some s ∧ ∀ id, s.ticketId = some id → d₂.HasTicket id s.input :=
  ⟨(grows_of_rely hl).scan h.logged, fun id hid => hasTicket_later hl (h.names id hid)⟩

theorem again_eq (hd : d.Gated) (hs : d.doorScans.lookup item.scanId = some s)
    (hn : ∀ id, s.ticketId = some id → d.HasTicket id s.input)
    (hsame : sameScan ctx item s = true) :
    (s.result = .admitted ∧ ¬d.Stands item.scanId → again ctx item s d = .rescan) ∧
      (s.result ≠ .admitted ∨ d.Stands item.scanId → again ctx item s d = .logged s.result) := by
  unfold again
  rw [hsame]
  by_cases hadm : s.result = .admitted
  · obtain ⟨-, id, hid, -⟩ := hd.linked.scans _ s hs hadm
    rw [stands_iff hd.logged hs hid, hid, Option.bind_some, inBy_of_hasTicket (hn id hid)]
    simp [hadm]
  · simp [hadm]

/-- The answer is fixed by the first, unless it was an admission that stands no more. -/
theorem again_later (hd₁ : d₁.Gated) (hl : Later d₁ d₂) (h : Row ctx item s r d₁) :
    (r.result = .logged .admitted → ¬d₂.Stands item.scanId → again ctx item s d₂ = .rescan) ∧
      (r.result ≠ .logged .admitted ∨ d₂.Stands item.scanId → again ctx item s d₂ = r.result) := by
  obtain ⟨hs, hn⟩ := h.later hl
  have hearlier : d₂.Stands item.scanId → d₁.Stands item.scanId :=
    Db.Stands.earlier (grows_of_rely hl) h.logged
  rcases hsame : sameScan ctx item s
  · have hconflict : ∀ d, again ctx item s d = .scanIdConflict := fun d => by simp [again, hsame]
    rw [h.result, hconflict, hconflict]
    simp
  · obtain ⟨hgone₁, hkept₁⟩ := again_eq hd₁ h.logged h.names hsame
    obtain ⟨hgone₂, hkept₂⟩ := again_eq (gated_later hl hd₁) hs hn hsame
    rw [h.result]
    by_cases hadm : s.result = .admitted
    · by_cases hstands : d₁.Stands item.scanId
      · rw [hkept₁ (.inr hstands), hadm]
        refine ⟨fun _ hout => hgone₂ ⟨hadm, hout⟩, ?_⟩
        rintro (hne | hin)
        · exact absurd rfl hne
        · rw [hkept₂ (.inr hin), hadm]
      · have hout : ¬d₂.Stands item.scanId := fun hin => hstands (hearlier hin)
        rw [hgone₁ ⟨hadm, hstands⟩, hgone₂ ⟨hadm, hout⟩]
        simp
    · rw [hkept₁ (.inl hadm), hkept₂ (.inl hadm)]
      simp [hadm]

end Row

section Conflict

theorem again_eq_conflict : again ctx item s d = .scanIdConflict ↔ sameScan ctx item s = false := by
  unfold again
  rcases sameScan ctx item s <;> simp
  split_ifs <;> simp

/-- The row of a scan is of what `item` was pointed at, as far as the row can tell. -/
def SameThing (item : ScanItem) (s : DoorScan) : Prop :=
  match item.ticketId with
  | some id => s.ticketId = some id ∨ s.ticketId = none ∧ s.input = unknownTicketId
  | none => s.input = scanLogInput (item.input.getD "") (parseScanToken (item.input.getD ""))

theorem sameScan_iff : sameScan ctx item s = true ↔ s.passId = ctx.passId ∧
    s.doorVerdict = item.offline.map (·.verdict) ∧ SameThing item s := by
  unfold sameScan SameThing
  by_cases hpass : s.passId = ctx.passId
  swap
  · simp [hpass]
  by_cases hverdict : s.doorVerdict = item.offline.map (·.verdict)
  swap
  · simp [hpass, hverdict, Ne.symm hverdict]
  rw [if_neg (by simp [hpass]), if_neg (by simp [hverdict])]
  rcases item.ticketId with _ | id <;> simp [hpass, hverdict]

theorem again_pass (h : ctx'.passId = ctx.passId) : again ctx' item s d = again ctx item s d := by
  have hsame : sameScan ctx' item s = sameScan ctx item s := by
    unfold sameScan
    rw [h]
  unfold again
  rw [hsame]

/-- A ticket named at the door that the row of the scan is not of. -/
theorem sameScan_other {t : DoorTicket} (hd : d.Gated)
    (hn : ∀ id, s.ticketId = some id → d.HasTicket id s.input) (ht : (named item' d).1 = some t)
    (other : Other item s t) (hsame : sameScan ctx' item' s = true) :
    s.ticketId = none ∧ s.input = unknownTicketId := by
  obtain ⟨-, -, hmatch⟩ := sameScan_iff.1 hsame
  unfold SameThing at hmatch
  obtain ⟨hthere, hcode⟩ := named_hasTicket ht
  rcases hid : item'.ticketId with _ | id
  · -- The row holds the code that was scanned, and no two tickets share one.
    simp only [hid] at hmatch
    have hinput : s.input = t.code := by
      rw [← hcode, hmatch]
      unfold named
      simp only [hid]
    rcases hrow : s.ticketId with _ | id
    · exact absurd hinput (other.input hrow)
    · obtain ⟨t₁, ht₁, hcode₁⟩ := hn id hrow
      obtain ⟨-, row₁, hrow₁, -, hc₁, -⟩ := doorTicket_row ht₁
      obtain ⟨-, row, hrow', -, hc, -⟩ := doorTicket_row hthere
      have h₁ := hd.linked.codes _ _ hrow₁
      have h := hd.linked.codes _ _ hrow'
      rw [hc₁, hcode₁, hinput, ← hc, h] at h₁
      exact absurd (hrow.trans h₁.symm) other.row
  · simp only [hid] at hmatch
    have htid : t.id = id := by
      unfold named at ht
      simp only [hid] at ht
      exact (doorTicket_row ht).1
    rcases hmatch with hrow | hunknown
    · exact absurd (htid ▸ hrow) other.row
    · exact hunknown

end Conflict

section Main

theorem conflict_of_reused (hd : d.Gated) (hs : d.doorScans.lookup item.scanId = some s)
    (hn : ∀ id, s.ticketId = some id → d.HasTicket id s.input) (hsame : sameScan ctx item s = true)
    (hkeeps : KeepsTicket ctx item d) (h : Reused ctx item d ctx' item') :
    again ctx' item' s d = .scanIdConflict := by
  obtain ⟨hpass, hverdict, -⟩ := sameScan_iff.1 hsame
  rw [again_eq_conflict]
  by_contra hne
  have hsame' : sameScan ctx' item' s = true := by simpa using hne
  obtain ⟨hpass', hverdict', -⟩ := sameScan_iff.1 hsame'
  cases h with
  | pass pass => exact pass (hpass'.symm.trans hpass)
  | verdict verdict => exact verdict (hverdict'.symm.trans hverdict)
  | ticket row known other =>
    rw [hs] at row
    cases row
    obtain ⟨hnone, hinput⟩ := sameScan_other hd hn known other hsame'
    have hthere := doorTicket_of_named known
    exact hkeeps s hs hsame hnone hinput _ _ hthere other

theorem keepsTicket_of_law (hs : d.doorScans.lookup item.scanId = some s)
    (hr : sameScan ctx item s = true → r.result ≠ .scanIdConflict) (h : ReplayLaw ctx item r d) :
    KeepsTicket ctx item d := by
  intro s' hs' hsame hnone hinput id t ht other
  rw [hs] at hs'
  cases hs'
  have hknown : (named { item with ticketId := some id } d).1 = some t := ht
  obtain ⟨r', hr', hres⟩ := h.conflict (hr hsame) ctx { item with ticketId := some id } rfl
    (.ticket hs hknown other)
  have hreplays : Replays ctx { item with ticketId := some id } s d
      (scan ctx { item with ticketId := some id }) := scan_known ctx hs
  obtain ⟨r'', hr'', hres'', -⟩ := hreplays
  rw [hr'] at hr''
  cases hr''
  rw [hres, eq_comm, again_eq_conflict] at hres''
  obtain ⟨hpass, hverdict, -⟩ := sameScan_iff.1 hsame
  have hsame' : sameScan ctx { item with ticketId := some id } s = true :=
    sameScan_iff.2 ⟨hpass, hverdict, .inr ⟨hnone, hinput⟩⟩
  rw [hsame'] at hres''
  cases hres''

/-- Whatever happens before and in between, a scan sent again is answered as it was, and its id used
for another scan is a conflict, exactly when its row keeps what the first answer knew. -/
theorem scan_replays (before after : List Action) (hd : d.Gated) (hempty : d.doorScans = ∅)
    (hctx : ctx.Of (run d before).db)
    (hfirst : (scan ctx item).alone (run d before).db = (.ok r, d₁)) :
    ReplayLaw ctx item r (run d₁ after).db ↔
      KeepsPractice ctx item (run d before).db ∧ KeepsTicket ctx item (run d₁ after).db := by
  have hd₀ : (run d before).db.Gated := gated_later (later_run hd.logged before) hd
  have hn := logNamed_run hd.logged hempty before
  obtain ⟨hl₁, s, hrow, hpractice⟩ := row_of_scan hd₀ hn hctx hfirst
  have hd₁ := gated_later hl₁ hd₀
  have hl₂ := later_run hd₁.logged after
  have hd₂ := gated_later hl₂ hd₁
  obtain ⟨hs, hnames⟩ := hrow.later hl₂
  obtain ⟨hgone, hkept⟩ := again_later hd₁ hl₂ hrow
  have hnot : sameScan ctx item s = true → r.result ≠ .scanIdConflict := by
    intro hsame hconflict
    rw [hrow.result, again_eq_conflict, hsame] at hconflict
    cases hconflict
  constructor
  · intro h
    refine ⟨?_, keepsTicket_of_law hs hnot h⟩
    obtain ⟨r', hr', hp', -⟩ := h.again ctx rfl
    obtain ⟨r'', hr'', -, hp''⟩ := scan_known ctx hs
    rw [hr'] at hr''
    cases hr''
    exact hpractice.1 (hp'.symm.trans hp'')
  · rintro ⟨hkeeps, hticket⟩
    refine ⟨fun ctx' hpass => ?_, fun hne ctx' item' hid hreused => ?_⟩
    · obtain ⟨r', hr', hres, hp⟩ := scan_known ctx' hs
      rw [again_pass hpass] at hres
      refine ⟨r', hr', hp.trans (hpractice.2 hkeeps).symm, fun hadm hout => ?_, fun hin => ?_⟩
      · rw [hres, hgone hadm hout]
      · rw [hres, hkept hin]
    · have hs' : (run d₁ after).db.doorScans.lookup item'.scanId = some s := by rw [hid, hs]
      obtain ⟨r', hr', hres, -⟩ := scan_known ctx' hs'
      have hsame : sameScan ctx item s = true := by
        by_contra hdiffers
        refine hne (hrow.result.trans (again_eq_conflict.2 ?_))
        simpa using hdiffers
      exact ⟨r', hr', hres.trans (conflict_of_reused hd₂ hs hnames hsame hticket hreused)⟩

end Main

end doorService

open doorService

theorem gateA_of : gateA.Of openingNight := ⟨_, rfl, rfl⟩

/-- The one ticket scanned by its id, online. -/
def onlineScan (scanId : Id) : ScanItem where
  scanId := scanId
  input := none
  ticketId := some 1
  phoneLast3 := none
  method := .qr
  scannedAt := none
  offline := none

/-- The ticket is let in. -/
def letInAnswer : ScanResult where
  scanId := 7
  result := .logged .admitted
  practice := false
  attendeeName := some "Rumi"
  ticketTypeName := some "Floor"
  position := some 1
  total := some 1
  at_ := some (2 * hourMs)
  gate := some "Gate A"

/-- The opening night once its guest is in. -/
def guestIn : Db := ((scan gateA (onlineScan 7)).alone openingNight).2

theorem scan_guestIn : (scan gateA (onlineScan 7)).alone openingNight = (.ok letInAnswer, guestIn) := by
  have hanswer : ((scan gateA (onlineScan 7)).alone openingNight).1 = .ok letInAnswer := by
    decide +kernel
  exact Prod.ext hanswer rfl

/-- Gate A takes the admission back. -/
def takenBack : Db := (run guestIn (alone 0 (.undoScan "K7QM4XPDR2TW" 7 .misTap) 30)).db

theorem onlineScan_keepsPractice : KeepsPractice gateA (onlineScan 7) openingNight :=
  fun _ h => absurd h (by decide)

theorem takenBack_keepsTicket : KeepsTicket gateA (onlineScan 7) takenBack := by
  intro s hs _ hnone
  have hrow : (takenBack.doorScans.lookup 7).bind (·.ticketId) = some 1 := by decide +kernel
  rw [show takenBack.doorScans.lookup 7 = some s from hs, Option.bind_some, hnone] at hrow
  cases hrow

/-- Nobody is in by the admission any more, and the law of replays holds of it. -/
theorem scan_replays_undone : takenBack.checkIn 1 = none ∧
    ReplayLaw gateA (onlineScan 7) letInAnswer takenBack :=
  ⟨by decide +kernel, (scan_replays [] _ openingNight_gated rfl gateA_of scan_guestIn).2
    ⟨onlineScan_keepsPractice, takenBack_keepsTicket⟩⟩

/-- A rehearsal at the door, sent again after it was synced, is answered as one for real. -/
theorem scan_forgetsPractice : ¬ ∀ (d : Db) (before after : List Action) (ctx : DoorContext)
    (item : ScanItem) (r : ScanResult) (d₁ : Db), d.Gated → d.doorScans = ∅ →
      ctx.Of (run d before).db → (scan ctx item).alone (run d before).db = (.ok r, d₁) →
        ReplayLaw ctx item r (run d₁ after).db := by
  intro h
  have hfirst : (((scan gateA (offlineScan 8 .practice)).alone openingNight).1.toOption.map
      (·.practice)) = some true := by decide +kernel
  rcases hscan : (scan gateA (offlineScan 8 .practice)).alone openingNight with ⟨e | r, d₁⟩
  · rw [hscan] at hfirst
    cases hfirst
  obtain ⟨r', hr', hpractice, -⟩ := (h openingNight [] [] gateA (offlineScan 8 .practice) r d₁
    openingNight_gated rfl gateA_of hscan).again gateA rfl
  have hsecond : (((scan gateA (offlineScan 8 .practice)).alone
      ((scan gateA (offlineScan 8 .practice)).alone openingNight).2).1.toOption.map
        (·.practice)) = some false := by decide +kernel
  rw [hscan] at hfirst hsecond
  rw [show (scan gateA (offlineScan 8 .practice)).alone d₁ = (.ok r', d₁) from hr'] at hsecond
  have hr : r.practice = true := by simpa [Except.toOption] using hfirst
  have hr'' : r'.practice = false := by simpa [Except.toOption] using hsecond
  rw [hpractice, hr] at hr''
  cases hr''

end EchoAndAura
