import EchoAndAura.Proofs.Mails

/-!
# What the gates tell of a scan

The relay hears of a check-in before the next scan of its batch, and nothing of a scan that let
nobody in.
-/

namespace EchoAndAura

open Txn (Lock writeAll Rely Telling)

variable {α β γ : Type} {q : Request} {d d' : Db}

section Gate

open doorService

/-- A commit that lets one ticket in and touches no other. -/
structure LetsIn (id : Id) (d d' : Db) : Prop where
  before : d.checkIn id = none
  after : (d'.checkIn id).isSome
  others : ∀ id', id' ≠ id → d'.checkIn id' = d.checkIn id'

theorem LetsIn.made {id : Id} (h : LetsIn id d d') (hc : q.commits d d') (hq : q.mails = false)
    (m : Move) : telling.makes m d d' ↔ m = .checkedIn id := by
  refine ⟨fun hm => ?_, ?_⟩
  · cases m with
    | order id' s => exact absurd hm (hc.order hq id' s)
    | checkedIn id' =>
      obtain ⟨hout, hin⟩ := hm
      by_contra hne
      rw [h.others id' (fun he => hne (congrArg _ he)), hout] at hin
      cases hin
    | undone id' =>
      obtain ⟨hin, hout⟩ := hm
      by_cases hid : id' = id
      · rw [hid, h.before] at hin
        cases hin
      · rw [← h.others id' hid, hout] at hin
        cases hin
  · rintro rfl
    exact ⟨h.before, h.after⟩

/-- What a scan's transaction commits, by what it answers. -/
def Scanned (t : DoorTicket) (b : ScanResult) (d d' : Db) : Prop :=
  if b.result = .logged .admitted then b.at_.isSome ∧ LetsIn t.id d d' else d'.tickets = d.tickets

theorem checkIn_of_tickets (h : d'.tickets = d.tickets) (id : Id) :
    d'.checkIn id = d.checkIn id := by
  rw [Db.checkIn, Db.checkIn, h]

/-- A commit that touches no ticket, of a gate's request, makes no move. -/
theorem Request.commits.still (hc : q.commits d d') (hq : q.mails = false)
    (h : d'.tickets = d.tickets) (m : Move) : ¬telling.makes m d d' := by
  cases m with
  | order id s => exact hc.order hq id s
  | checkedIn id =>
    rintro ⟨hout, hin⟩
    rw [checkIn_of_tickets h, hout] at hin
    cases hin
  | undone id =>
    rintro ⟨hin, hout⟩
    rw [← checkIn_of_tickets h, hout] at hin
    cases hin

variable {R : List (Lock Row) → Db → Db → Prop} {d₀ : Db}

theorem turnAway_scanned {a : Attempt} {t : DoorTicket} {latest : Option DoorTicket}
    {K : List (Lock Row)} : (turnAway a t latest).commits R d
      (fun b _ _ ws => Scanned t b d (writeAll ws d)) d₀ K [] := by
  have lost : ∀ {b : ScanResult} {d' : Db}, b.result ≠ .logged .admitted →
      d'.tickets = d.tickets → Scanned t b d d' := fun hb ht => by
    rw [Scanned, if_neg hb]
    exact ht
  unfold turnAway
  rcases latest with _ | latest
  · exact commits_insertScan fun _ _ _ => lost (by simp [ScanResult.describe, Attempt.answer]) rfl
  dsimp only
  split_ifs
  · exact commits_insertScan fun _ _ _ => lost (by simp [ScanResult.describe, Attempt.answer]) rfl
  refine commits_insertScan fun time _ _ => ?_
  split
  · exact commits_now fun _ _ => lost (by simp [ScanResult.describe, Attempt.answer]) rfl
  · exact lost (by simp [ScanResult.describe, Attempt.answer]) rfl

theorem letIn_scanned {a : Attempt} {t : DoorTicket} {row : Ticket} {c : CheckIn}
    {K : List (Lock Row)} (ht : d.tickets.lookup t.id = some row) (out : row.checkIn = none) :
    (letIn a t { row with checkIn := some c }).commits R d
      (fun b _ _ ws => Scanned t b d (writeAll ws d)) d₀ K
      [.ticket t.id { row with checkIn := some c }] := by
  refine commits_append (commits_insertScan fun received _ _ => ?_)
  have hin : LetsIn t.id d (writeAll [.ticket t.id { row with checkIn := some c },
      .orderEvent (checkedInEvent a t),
      .scan a.item.scanId (a.log (some t.id) .admitted none received)] d) := by
    refine ⟨by simp [Db.checkIn, ht, out], by simp [Db.checkIn, Write.apply], fun id' hne => ?_⟩
    simp [Db.checkIn, Write.apply, AList.lookup_insert_ne hne]
  show Scanned t _ d _
  unfold Scanned
  rw [if_pos (by rfl)]
  exact ⟨rfl, hin⟩

theorem scanTx_scanned {a : Attempt} {t : DoorTicket} : (scanTx a t).commits R d
    (fun b _ _ ws => Scanned t b d (writeAll ws d)) d₀ [] [] := by
  refine commits_lockActivePass (fun _ => trivial) fun p _ _ => Txn.Tx.commits_bind ?_
  unfold tryCheckIn
  refine commits_checkIn (fun d₁ => ?_) fun row time d₁ ht _ ho => letIn_scanned ht ho
  refine commits_reads fun d₂ _ _ => ?_
  split_ifs
  · refine commits_checkIn (fun d₃ => ?_) fun row time d₃ ht _ ho => letIn_scanned ht ho
    exact commits_reads fun _ _ _ => turnAway_scanned
  · dsimp only
    generalize (writeAll ([] : List Write) d₂).doorTicket t.id = current
    cases current with
    | none => exact commits_reads fun _ _ _ => turnAway_scanned
    | some c => exact @turnAway_scanned _ _ _ _ _ (some c) _

end Gate

section Doors

open doorService

theorem checkIn_settles {a : Attempt} {t : DoorTicket} (hq : q.mails = false) :
    (checkIn a t).settles q := by
  refine Svc.settles_transaction_bind (P := Scanned t) (fun _ _ => scanTx_scanned)
    fun b d₁ d₂ hc h => ?_
  unfold Scanned at h
  by_cases hb : b.result = .logged .admitted
  · rw [if_pos hb] at h
    obtain ⟨hat, hin⟩ := h
    obtain ⟨at_, hat⟩ := Option.isSome_iff_exists.1 hat
    rw [if_neg (not_not.2 hb), hat]
    exact Svc.pays_bind (Svc.pays_say rfl (hin.made hc hq)) fun _ => Svc.settles_pure _
  · rw [if_neg hb] at h
    rw [if_pos hb, Telling.after_none (hc.still hq h)]
    exact Svc.settles_pure _ _

theorem logOnly_settles {a : Attempt} {ticketId : Option Id} {result : ScanResultKind}
    {prior : Option CheckIn} (hq : q.mails = false) : (logOnly a ticketId result prior).settles q :=
  Svc.settles_transaction (P := fun _ d d' => d'.tickets = d.tickets)
    (fun _ _ => commits_insertScan (k := pure) fun _ _ _ => rfl) fun _ _ _ hc h => hc.still hq h

theorem scanned_settles {item : ScanItem} : (scanned item).settles q := by
  unfold scanned
  split
  · exact Svc.settles_bind Svc.settles_query fun _ => Svc.settles_pure _
  · dsimp only
    split
    · exact Svc.settles_bind Svc.settles_query fun _ => Svc.settles_pure _
    · exact Svc.settles_pure _

theorem offlineTime_settles {ctx : DoorContext} {item : ScanItem} :
    (offlineTime ctx item).settles q := by
  unfold offlineTime
  split
  · exact Svc.settles_bind Svc.settles_now fun _ => Svc.settles_pure _
  · exact Svc.settles_pure _

theorem fresh_settles {ctx : DoorContext} {item : ScanItem} (hq : q.mails = false) :
    (fresh ctx item).settles q := by
  refine Svc.settles_bind scanned_settles fun r => ?_
  refine Svc.settles_bind offlineTime_settles fun at_ => ?_
  dsimp only
  split
  swap
  · exact Svc.settles_bind (logOnly_settles hq) fun _ => Svc.settles_pure _
  refine Svc.settles_ite (fun _ => Svc.settles_bind (logOnly_settles hq) fun _ =>
    Svc.settles_pure _) fun _ => ?_
  refine Svc.settles_ite (fun _ => Svc.settles_bind (logOnly_settles hq) fun _ =>
    Svc.settles_pure _) fun _ => ?_
  refine Svc.settles_ite (fun _ => Svc.settles_bind (logOnly_settles hq) fun _ =>
    Svc.settles_pure _) fun _ => ?_
  exact checkIn_settles hq

theorem replay_settles {ctx : DoorContext} {item : ScanItem} {stored : DoorScan} :
    (replay ctx item stored).settles q := by
  refine Svc.settles_ite (fun _ => Svc.settles_pure _) fun _ => ?_
  split
  swap
  · exact Svc.settles_pure _
  refine Svc.settles_bind Svc.settles_query fun found => ?_
  split
  swap
  · exact Svc.settles_pure _
  refine Svc.settles_ite (fun _ => Svc.settles_pure _) fun _ => ?_
  split
  · refine Svc.settles_ite (fun _ => Svc.settles_pure _) fun _ => ?_
    exact Svc.settles_bind Svc.settles_now fun _ => Svc.settles_pure _
  all_goals exact Svc.settles_pure _

theorem scan_settles {ctx : DoorContext} {item : ScanItem} (hq : q.mails = false) :
    (scan ctx item).settles q := by
  refine Svc.settles_bind Svc.settles_query fun found => ?_
  split
  · exact replay_settles
  refine Svc.settles_tryCatch (fresh_settles hq) fun e => ?_
  split
  · refine Svc.settles_bind Svc.settles_query fun stored => ?_
    split
    · exact replay_settles
    · exact Svc.settles_throw _
  · exact Svc.settles_throw _

theorem scanBatch_settles {ctx : DoorContext} (hq : q.mails = false) :
    ∀ (items : List ScanItem) (seen : List (Id × ScanResult)), (scanBatch ctx items seen).settles q
  | [], _ => Svc.settles_pure _
  | item :: items, seen => by
    unfold scanBatch
    rcases seen.lookup item.scanId with _ | r
    · exact Svc.settles_bind (scan_settles hq) fun _ =>
        Svc.settles_bind (scanBatch_settles hq items _) fun _ => Svc.settles_pure _
    · exact Svc.settles_bind (Svc.settles_pure _) fun _ =>
        Svc.settles_bind (scanBatch_settles hq items _) fun _ => Svc.settles_pure _

theorem authenticate_settles {rawCode : String} : (authenticate rawCode).settles q := by
  unfold authenticate
  split
  swap
  · exact Svc.settles_pure _
  refine Svc.settles_bind Svc.settles_query fun found => ?_
  split
  swap
  · exact Svc.settles_pure _
  refine Svc.settles_ite (fun _ => Svc.settles_pure _) fun _ => ?_
  refine Svc.settles_bind Svc.settles_query fun event => ?_
  split
  swap
  · exact Svc.settles_pure _
  refine Svc.settles_ite (fun _ => Svc.settles_pure _) fun _ => ?_
  refine Svc.settles_bind Svc.settles_now fun t => ?_
  exact Svc.settles_ite (fun _ => Svc.settles_pure _) fun _ => Svc.settles_pure _

theorem scansRoute_settles {passCode : String} {items : List ScanItem} (hq : q.mails = false) :
    (scansRoute passCode items).settles q := by
  refine Svc.settles_bind authenticate_settles fun found => ?_
  split
  swap
  · exact Svc.settles_pure _
  exact Svc.settles_bind (scanBatch_settles hq _ _) fun _ => Svc.settles_pure _

theorem announceRevoke_pays {eventId passId : Id} {owed : Txn.Debt Move} :
    (announceRevoke eventId passId).tells q (fun _ owed' _ => owed' = owed) (fun _ _ => False)
      owed d := by
  refine Svc.tells_bind (Svc.tells_now fun d₁ _ => ?_)
  refine Svc.tells_bind (Svc.tells_tryCatch (Svc.tells_query (fun d₂ _ e => Svc.tells_pure ?_)
    fun d₂ d₃ _ _ => ?_))
  · exact Svc.tells_sayNothing rfl rfl
  · exact Svc.tells_sayNothing rfl rfl

theorem passOfEvent_tells {eventId passId : Id} : (passOfEvent eventId passId).tells q
    (fun _ owed d' => owed = Telling.clear ∧ Later d d' ∧
      (d'.doorPasses.lookup passId).isSome) (fun owed _ => owed = Telling.clear)
    Telling.clear d := by
  refine Svc.tells_bind (Svc.tells_query (fun _ _ => rfl) fun d₁ d' h₁ h' => ?_)
  split
  swap
  · exact Svc.tells_throw rfl
  rename_i p hp
  split_ifs
  · exact Svc.tells_bind (Svc.tells_throw rfl)
  · obtain ⟨p', hp', -⟩ := (grows_of_rely h').pass hp
    exact Svc.tells_pure ⟨rfl, h₁.trans h', Option.isSome_iff_exists.2 ⟨p', hp'⟩⟩

theorem revokePass_settles {eventId passId : Id} (hu : q.isUndo = false) (hq : q.mails = false) :
    (revokePass eventId passId).settles q := by
  intro d
  refine Svc.tells_bind (Svc.tells_mono (fun _ owed d₁ h => ?_) (fun _ _ h => h) passOfEvent_tells)
  obtain ⟨rfl, -, -⟩ := h
  refine Svc.settles_transaction_bind (P := fun _ d d' => d'.doorScans = d.doorScans) (fun d₀ d' =>
    commits_revokePass (k := pure) (fun _ _ _ _ => rfl) fun _ _ _ _ _ _ => rfl)
    (fun _ d₁ d₂ hc hs => ?_) d₁
  rw [Telling.after_none (hc.quiet hu hq hs)]
  exact Svc.tells_mono (fun _ _ _ h => h) (fun _ _ h => h.elim) announceRevoke_pays

end Doors

end EchoAndAura
