import EchoAndAura.Drain
import EchoAndAura.Proofs.Alone

/-!
# The expiry run

A run of the expiry job that has the database to itself drains the queue of lapsed holds: each
order is tried at most once, the ones whose expiry throws are left as they are and hold up nobody,
and the stock given back is that of the orders expired (`expireLapsedHolds_fair`).
-/

namespace EchoAndAura

open ordersService
open Txn (writeAll)
open ordersRepository (LapsedHold lapsedHolds)

variable {d d' : Db} {hold : LapsedHold} {t : Time} {tried : List (LapsedHold × Bool)}

section Lapsed

/-- The orders whose holds had lapsed at a cutoff, the longest lapsed first. -/
def Db.lapsed (d : Db) (cutoff : Time) : List LapsedHold :=
  ((d.orders.entries.filter fun e =>
      e.2.status == .pendingPayment && e.2.holdExpiresAt.any fun t => t ≤ cutoff).insertionSort
        fun a b => a.2.holdExpiresAt.getD 0 ≤ b.2.holdExpiresAt.getD 0).map
    fun e => ⟨e.1, e.2.ticketTypeId, e.2.quantity⟩

theorem lapsedHolds_eq (d : Db) (cutoff : Time) (limit : Nat) :
    lapsedHolds d cutoff limit = (d.lapsed cutoff).take limit := List.map_take

/-- An order awaiting its payment, its hold over. -/
def Order.LapsedBy (o : Order) (cutoff : Time) : Prop :=
  o.status = .pendingPayment ∧ ∃ e, o.holdExpiresAt = some e ∧ e ≤ cutoff

theorem mem_lapsed : hold ∈ d.lapsed t ↔ ∃ o, d.orders.lookup hold.id = some o ∧ o.LapsedBy t ∧
    o.ticketTypeId = hold.ticketTypeId ∧ o.quantity = hold.quantity := by
  unfold Db.lapsed Order.LapsedBy
  simp only [List.mem_map, List.mem_insertionSort, List.mem_filter, Bool.and_eq_true, beq_iff_eq,
    Option.any_eq_true, decide_eq_true_eq]
  constructor
  · rintro ⟨e, ⟨he, hlapsed⟩, rfl⟩
    exact ⟨e.2, AList.mem_lookup_iff.2 he, hlapsed, rfl, rfl⟩
  · rintro ⟨o, ho, hlapsed, htype, hquantity⟩
    exact ⟨⟨hold.id, o⟩, ⟨AList.mem_lookup_iff.1 ho, hlapsed⟩, by rw [htype, hquantity]⟩

theorem lapsed_ids_nodup (d : Db) (t : Time) : ((d.lapsed t).map (·.id)).Nodup := by
  unfold Db.lapsed
  rw [List.map_map]
  refine ((List.perm_insertionSort _ _).map _).nodup_iff.2 ?_
  exact (List.filter_sublist.map _).nodup d.orders.nodupKeys

/-- What `holdLapsed` says of an order now is what the repository selects. -/
theorem holdLapsed_iff {o : Order} : holdLapsed o d.clock = true ↔
    o.LapsedBy (lapsedBefore d.clock) := by
  unfold holdLapsed Order.LapsedBy holdCutoff lapsedBefore
  simp only [Bool.and_eq_true, beq_iff_eq, Option.any_eq_true, decide_eq_true_eq]
  refine and_congr_right fun _ => exists_congr fun e => and_congr_right fun _ => ?_
  exact ⟨fun h => Int.le_sub_right_of_add_le h, fun h => Int.add_le_of_le_sub_right h⟩

end Lapsed

section One

def Order.expired (o : Order) : Order := { o with status := .expired }

@[simp] theorem expired_expired (o : Order) : o.expired.expired = o.expired := rfl

def TicketType.released (type : TicketType) (quantity : Int) : TicketType :=
  { type with quantityReserved := type.quantityReserved - quantity }

@[simp] theorem released_zero (type : TicketType) : type.released 0 = type := by
  simp [TicketType.released]

@[simp] theorem released_released (type : TicketType) (m n : Int) :
    (type.released m).released n = type.released (m + n) := by
  simp [TicketType.released, Int.sub_sub]

/-- What an expiry that goes through writes. -/
def expiryWrites (hold : LapsedHold) (o : Order) (type : TicketType) : List Write :=
  [.order hold.id o.expired, .ticketType hold.ticketTypeId (type.released hold.quantity),
    .orderEvent (expiredEvent hold)]

/-- An UPDATE of a ticket type: refused, no row, or the row as set. -/
theorem updateTicketType_alone (name : String) (id : Id) (cond : TicketType → Bool)
    (set : TicketType → TicketType) (caught : List String) (e : Err) (d : Db) (ws : List Write) :
    (∃ e', (exec (updateTicketType name id cond set caught e)).alone d ws = .error e') ∨
      (exec (updateTicketType name id cond set caught e)).alone d ws = .ok (false, ws) ∨
      ∃ type, (writeAll ws d).ticketTypes.lookup id = some type ∧
        (exec (updateTicketType name id cond set caught e)).alone d ws =
          .ok (true, ws ++ [.ticketType id (set type)]) := by
  rw [Tx.alone_change rfl]
  dsimp only
  rcases (writeAll ws d).ticketTypes.lookup id with _ | type
  · exact .inr (.inl rfl)
  dsimp only
  split_ifs with hcond
  · unfold setTicketType
    split
    · split_ifs <;> exact .inl ⟨_, rfl⟩
    · exact .inr (.inr ⟨type, rfl, rfl⟩)
  · exact .inr (.inl rfl)

theorem release_alone (id : Id) (quantity : Int) (d : Db) (ws : List Write) :
    (∃ e, (inventoryService.release id quantity).alone d ws = .error e) ∨
      ∃ type, (writeAll ws d).ticketTypes.lookup id = some type ∧
        (inventoryService.release id quantity).alone d ws =
          .ok ((), ws ++ [.ticketType id (type.released quantity)]) := by
  unfold inventoryService.release inventoryRepository.release
  rw [Tx.alone_bind]
  rcases assertQuantity quantity with e | _
  · exact .inl ⟨e, rfl⟩
  show (∃ e, Txn.Tx.alone d _ ws = .error e) ∨ ∃ type, _ ∧ Txn.Tx.alone d _ ws = _
  rw [Tx.alone_bind]
  rcases inventoryRepository.assertPositiveInteger quantity with e | _
  · exact .inl ⟨e, rfl⟩
  show (∃ e, Txn.Tx.alone d _ ws = .error e) ∨ ∃ type, _ ∧ Txn.Tx.alone d _ ws = _
  rw [Tx.alone_bind]
  rcases updateTicketType_alone "inventory.release" id (fun t => quantity ≤ t.quantityReserved)
    (fun t => { t with quantityReserved := t.quantityReserved - quantity })
    ["ticket_types_reserved_nonneg"] (.inventoryState id .release) d ws with
    ⟨e, he⟩ | hmiss | ⟨type, htype, hok⟩
  · rw [he]
    exact .inl ⟨e, rfl⟩
  · rw [hmiss]
    exact .inl ⟨_, rfl⟩
  · rw [hok]
    exact .inr ⟨type, htype, rfl⟩

/-- One expiry: it throws, or takes the order and its stock, and writes its one audit row. -/
theorem expireHoldTx_alone {o : Order} (ho : d.orders.lookup hold.id = some o)
    (hs : o.status = .pendingPayment) :
    (∃ e, (expireHoldTx hold).alone d [] = .error e) ∨
      ∃ type, d.ticketTypes.lookup hold.ticketTypeId = some type ∧
        (expireHoldTx hold).alone d [] = .ok (true, expiryWrites hold o type) := by
  have htransition : (exec (ordersRepository.transition hold.id [.pendingPayment] .expired
      {})).alone d [] = o.expired.broken.elim
        (.ok (some o.expired, [.order hold.id o.expired])) fun c => .error (.check c) := by
    have hpending : [OrderStatus.pendingPayment].contains o.status = true := by simp [hs]
    simp only [exec, Txn.Tx.ofStmt, Txn.Tx.alone, ordersRepository.transition, transitionOutcome,
      writeAll, List.foldl_nil, ho, hpending, OrderPatch.apply, OrderPatch.trxIds,
      OrderPatch.trxWrites]
    unfold Order.expired
    rcases Order.broken _ with _ | c <;> rfl
  unfold expireHoldTx
  rw [Tx.alone_bind, htransition]
  rcases o.expired.broken with _ | c
  swap
  · exact .inl ⟨_, rfl⟩
  show (∃ e, Txn.Tx.alone d _ _ = .error e) ∨ ∃ type, _ ∧ Txn.Tx.alone d _ _ = _
  rw [Tx.alone_bind]
  rcases release_alone hold.ticketTypeId hold.quantity d
    [.order hold.id o.expired] with ⟨e, he⟩ | ⟨type, htype, hok⟩
  · rw [he]
    exact .inl ⟨e, rfl⟩
  · rw [hok]
    exact .inr ⟨type, htype, rfl⟩

end One

section Queue

/-- The lapsed holds as a queue: an expiry that throws changes nothing. -/
def expiryQueue (cutoff : Time) : Drain.Queue Db LapsedHold where
  waiting d := d.lapsed cutoff
  attempt d hold :=
    match (expireHoldTx hold).alone d [] with
    | .ok (true, ws) => some (writeAll ws d)
    | _ => none

/-- The orders `holds` are expired and their stock is given back, and that is all. -/
structure ExpiryDone (d : Db) (holds : List LapsedHold) (d' : Db) : Prop where
  orders : ∀ id, d'.orders.lookup id =
    if id ∈ holds.map (·.id) then (d.orders.lookup id).map (·.expired) else d.orders.lookup id
  ticketTypes : ∀ id, d'.ticketTypes.lookup id = (d.ticketTypes.lookup id).map
    (·.released ((holds.filter (·.ticketTypeId == id)).map (·.quantity)).sum)
  orderEvents : d'.orderEvents = d.orderEvents ++ holds.map expiredEvent
  rest : d' = { d with
    orders := d'.orders, ticketTypes := d'.ticketTypes, orderEvents := d'.orderEvents }

theorem ExpiryDone.nil (d : Db) : ExpiryDone d [] d := by
  refine ⟨fun id => by simp, fun id => ?_, by simp, rfl⟩
  simp

theorem ExpiryDone.trans {d₁ : Db} {holds holds' : List LapsedHold} (h : ExpiryDone d holds d₁)
    (h' : ExpiryDone d₁ holds' d') : ExpiryDone d (holds ++ holds') d' := by
  refine ⟨fun id => ?_, fun id => ?_, ?_, ?_⟩
  · rw [h'.orders, h.orders]
    simp only [List.map_append, List.mem_append]
    by_cases hmem : id ∈ holds.map (·.id)
    · by_cases hmem' : id ∈ holds'.map (·.id) <;> simp [hmem, hmem', Function.comp_def]
    · simp only [hmem, false_or, if_false]
  · rw [h'.ticketTypes, h.ticketTypes, Option.map_map]
    refine congrArg (Option.map · _) (funext fun type => ?_)
    simp
  · rw [h'.orderEvents, h.orderEvents, List.map_append, List.append_assoc]
  · rw [h'.rest, h.rest]

theorem expiryWrites_done {o : Order} {type : TicketType} (ho : d.orders.lookup hold.id = some o)
    (htype : d.ticketTypes.lookup hold.ticketTypeId = some type) :
    ExpiryDone d [hold] (writeAll (expiryWrites hold o type) d) := by
  refine ⟨fun id => ?_, fun id => ?_, rfl, rfl⟩
  · show (d.orders.insert _ _).lookup id = _
    rw [Table.lookup_insert_eq]
    by_cases hid : id = hold.id
    · rw [if_pos hid, if_pos (by simp [hid]), hid, ho]
      rfl
    · rw [if_neg hid, if_neg (by simpa using hid)]
  · show (d.ticketTypes.insert _ _).lookup id = _
    rw [Table.lookup_insert_eq]
    by_cases hid : id = hold.ticketTypeId
    · rw [if_pos hid, hid, htype]
      simp
    · rw [if_neg hid]
      simp [Ne.symm hid]

/-- The turn of an order that waits: it is expired, or its expiry throws. -/
theorem attempt_cases (hwaits : hold ∈ d.lapsed t) :
    (∃ e, (expireHoldTx hold).alone d [] = .error e ∧ (expiryQueue t).attempt d hold = none) ∨
      ∃ ws, (expireHoldTx hold).alone d [] = .ok (true, ws) ∧
        (expiryQueue t).attempt d hold = some (writeAll ws d) ∧
        ExpiryDone d [hold] (writeAll ws d) := by
  obtain ⟨o, ho, hlapsed, -⟩ := mem_lapsed.1 hwaits
  unfold expiryQueue
  rcases expireHoldTx_alone ho hlapsed.1 with ⟨e, he⟩ | ⟨type, htype, hok⟩
  · exact .inl ⟨e, he, by simp only [he]⟩
  · exact .inr ⟨_, hok, by simp only [hok], expiryWrites_done ho htype⟩

theorem lapsed_ext {j : LapsedHold} (hj : j ∈ d.lapsed t) (hhold : hold ∈ d.lapsed t)
    (hid : j.id = hold.id) : j = hold :=
  List.inj_on_of_nodup_map (lapsed_ids_nodup d t) hj hhold hid

theorem expiryQueue_sound (t : Time) : (expiryQueue t).Sound where
  nodup d := (lapsed_ids_nodup d t).of_map
  taken {d d' hold} hwaits hd' j := by
    rcases attempt_cases hwaits with ⟨e, -, hnone⟩ | ⟨ws, -, hsome, hdone⟩
    · rw [hnone] at hd'
      cases hd'
    obtain rfl := Option.some.inj (hsome.symm.trans hd')
    show j ∈ (writeAll ws d).lapsed t ↔ j ∈ d.lapsed t ∧ j ≠ hold
    rw [mem_lapsed, hdone.orders]
    by_cases hid : j.id = hold.id
    · rw [if_pos (by simp [hid])]
      constructor
      · rintro ⟨o, ho, hlapsed, -⟩
        obtain ⟨o', -, rfl⟩ := Option.map_eq_some_iff.1 ho
        cases hlapsed.1
      · rintro ⟨hj, hne⟩
        exact absurd (lapsed_ext hj hwaits hid) hne
    · rw [if_neg (by simpa using hid), ← mem_lapsed]
      exact (and_iff_left fun heq => hid (congrArg _ heq)).symm

/-- The orders a run has expired, and the ones it has failed on. -/
def expiredOf (tried : List (LapsedHold × Bool)) : List LapsedHold := (tried.filter (·.2)).map (·.1)

def failedOf (tried : List (LapsedHold × Bool)) : List LapsedHold := (tried.filter (!·.2)).map (·.1)

theorem run_done (h : (expiryQueue t).Run d tried d') (hnodup : (tried.map (·.1)).Nodup)
    (hwaits : ∀ a ∈ tried, a.1 ∈ d.lapsed t) : ExpiryDone d (expiredOf tried) d' := by
  induction h with
  | nil => exact .nil _
  | @done d d₁ hold tried d' ok rest ih =>
    rw [List.map_cons, List.nodup_cons] at hnodup
    have hhold := hwaits _ List.mem_cons_self
    rcases attempt_cases hhold with ⟨e, -, hnone⟩ | ⟨ws, -, hsome, hdone⟩
    · rw [hnone] at ok
      cases ok
    obtain rfl := Option.some.inj (hsome.symm.trans ok)
    refine hdone.trans (ih hnodup.2 fun a ha => ?_)
    refine ((expiryQueue_sound t).taken hhold hsome a.1).2 ⟨hwaits a (List.mem_cons_of_mem _ ha), ?_⟩
    intro heq
    exact hnodup.1 (heq ▸ List.mem_map_of_mem ha)
  | failed error rest ih =>
    rw [List.map_cons, List.nodup_cons] at hnodup
    exact ih hnodup.2 fun a ha => hwaits a (List.mem_cons_of_mem _ ha)

end Queue

section Service

/-- The count after some attempts. -/
def ExpiryCount.after (n : ExpiryCount) (tried : List (LapsedHold × Bool)) : ExpiryCount :=
  ⟨n.expired + (expiredOf tried).length, n.failed + (failedOf tried).length⟩

theorem after_append (n : ExpiryCount) (tried tried' : List (LapsedHold × Bool)) :
    ExpiryCount.after (ExpiryCount.after n tried) tried' = ExpiryCount.after n (tried ++ tried') := by
  simp [ExpiryCount.after, expiredOf, failedOf, Nat.add_assoc]

theorem expireHolds_alone : ∀ {holds : List LapsedHold} {n : ExpiryCount} {skipped : List LapsedHold}
    {d : Db}, holds.Nodup → (∀ hold ∈ holds, hold ∈ d.lapsed t) →
      (expireHolds holds n (skipped.map (·.id))).alone d =
        (.ok (ExpiryCount.after n ((expiryQueue t).attemptAll holds d skipped).1,
          ((expiryQueue t).attemptAll holds d skipped).2.2.map (·.id)),
          ((expiryQueue t).attemptAll holds d skipped).2.1)
  | [], n, skipped, d, _, _ => rfl
  | hold :: holds, n, skipped, d, hnodup, hwaits => by
    rw [List.nodup_cons] at hnodup
    have hhold := hwaits hold List.mem_cons_self
    have hrest : ∀ h ∈ holds, h ∈ d.lapsed t := fun h hh => hwaits h (List.mem_cons_of_mem _ hh)
    unfold expireHolds Drain.Queue.attemptAll
    rcases attempt_cases hhold with ⟨e, he, hnone⟩ | ⟨ws, hws, hsome, -⟩
    · have ih := @expireHolds_alone holds { n with failed := n.failed + 1 } (hold :: skipped) d
        hnodup.2 hrest
      rw [Svc.alone_bind_ok (Svc.alone_attempt_error he), hnone]
      refine ih.trans ?_
      simp [ExpiryCount.after, expiredOf, failedOf, Nat.add_assoc, Nat.add_comm 1]
    · have hrest' : ∀ h ∈ holds, h ∈ (writeAll ws d).lapsed t := fun h hh =>
        ((expiryQueue_sound t).taken hhold hsome h).2
          ⟨hrest h hh, fun heq => hnodup.1 (heq ▸ hh)⟩
      rw [Svc.alone_bind_ok (Svc.alone_attempt_ok hws), hsome]
      show (Svc.say (.onOrderExpired hold.id) >>= fun _ => _).alone (writeAll ws d) = _
      rw [Svc.alone_bind_ok (Svc.alone_say _ _), expireHolds_alone hnodup.2 hrest']
      simp [ExpiryCount.after, expiredOf, failedOf, Nat.add_assoc, Nat.add_comm 1]

theorem expireBatches_alone : ∀ {rounds : Nat} {n : ExpiryCount} {skipped : List LapsedHold}
    {d : Db}, (expiryQueue (lapsedBefore t)).PassedOver d skipped →
      (expireBatches t rounds n (skipped.map (·.id))).alone d =
        (.ok (ExpiryCount.after n
          ((expiryQueue (lapsedBefore t)).drain expiryBatch rounds d skipped).1.flatten),
          ((expiryQueue (lapsedBefore t)).drain expiryBatch rounds d skipped).2)
  | 0, _, _, _, _ => rfl
  | rounds + 1, n, skipped, d, hskipped => by
    have hfresh : ∀ limit, ((d.lapsed (lapsedBefore t)).take limit).filter
        (fun h => !(skipped.map (·.id)).contains h.id) =
          ((d.lapsed (lapsedBefore t)).take limit).filter fun h => !skipped.contains h := by
      refine fun limit => List.filter_congr fun h hh => congrArg _ ?_
      rw [Bool.eq_iff_iff, List.contains_iff_mem, List.contains_iff_mem, List.mem_map]
      constructor
      · rintro ⟨j, hj, hid⟩
        exact lapsed_ext (hskipped.2 j hj) (List.mem_of_mem_take hh) hid ▸ hj
      · exact fun hmem => ⟨h, hmem, rfl⟩
    have hquery : ∀ limit, (Svc.query (ordersRepository.listLapsedHolds (lapsedBefore t) limit)).alone
        d = (.ok ((d.lapsed (lapsedBefore t)).take limit), d) := fun limit =>
      (Svc.alone_query _ _ d).trans (by rw [lapsedHolds_eq])
    have hwaiting : (expiryQueue (lapsedBefore t)).waiting d = d.lapsed (lapsedBefore t) := rfl
    unfold expireBatches Drain.Queue.drain
    dsimp only
    rw [List.length_map, Svc.alone_bind_ok (hquery _), hfresh, hwaiting]
    generalize hlimit : expiryBatch + skipped.length = limit
    generalize hfetch : (d.lapsed (lapsedBefore t)).take limit = fetched
    generalize hfilter : (fetched.filter fun h => !skipped.contains h) = fresh
    have hnodup : fresh.Nodup := by
      rw [← hfilter, ← hfetch]
      exact ((lapsed_ids_nodup d _).of_map.sublist (List.take_sublist _ _)).filter _
    have huntried : ∀ h ∈ fresh, (expiryQueue (lapsedBefore t)).Untried d skipped h := by
      intro h hh
      rw [← hfilter, List.mem_filter, ← hfetch] at hh
      exact ⟨List.mem_of_mem_take hh.1, by simpa using hh.2⟩
    obtain ⟨-, -, hpassed, -⟩ :=
      Drain.attemptAll_spec (expiryQueue_sound (lapsedBefore t)) hnodup huntried hskipped
    split_ifs with hnone hshort
    · rfl
    · rw [Svc.alone_bind_ok (expireHolds_alone hnodup fun h hh => (huntried h hh).1)]
      dsimp only
      rw [List.flatten_singleton]
      rfl
    · rw [Svc.alone_bind_ok (expireHolds_alone hnodup fun h hh => (huntried h hh).1)]
      dsimp only
      rw [expireBatches_alone hpassed, after_append, List.flatten_cons]

end Service

section Fairness

/-- Databases that expiring some of the lapsed holds leads to. -/
def ExpiringTo (d d' : Db) : Prop :=
  ∃ tried, (expiryQueue (lapsedBefore d.clock)).Run d tried d'

/-- The hold's expiry throws, whichever others have been expired before it. -/
def AlwaysThrows (d : Db) (hold : LapsedHold) : Prop :=
  ∀ d', ExpiringTo d d' → ∃ e, (expireHoldTx hold).alone d' [] = .error e

/-- While it waits it does not throw, whichever others have been expired before it. -/
def NeverThrows (d : Db) (hold : LapsedHold) : Prop :=
  ∀ d', ExpiringTo d d' → hold ∈ d'.lapsed (lapsedBefore d.clock) →
    ∀ e, (expireHoldTx hold).alone d' [] ≠ .error e

/-- From `d` to `d'` the lapsed holds are tried in batches, each hold with what came of it. -/
structure FairExpiry (d : Db) (batches : List (List (LapsedHold × Bool))) (d' : Db) : Prop where
  /-- Each batch is what `listLapsedHolds` gives when it is asked for, less what has failed. -/
  reads : (expiryQueue (lapsedBefore d.clock)).Reads expiryBatch d [] batches d'
  run : (expiryQueue (lapsedBefore d.clock)).Run d batches.flatten d'
  once : (batches.flatten.map (·.1.id)).Nodup
  lapsed : ∀ a ∈ batches.flatten, ∃ o, d.orders.lookup a.1.id = some o ∧ holdLapsed o d.clock = true
  bounded : batches.length ≤ expiryMaxBatches
  /-- Every batch that another follows has tried so many holds. -/
  full : ∀ b ∈ batches.dropLast, expiryBatch ≤ b.length
  /-- The batches end when every lapsed hold has been tried, or with the last of them full. -/
  enough : (∀ hold ∈ d.lapsed (lapsedBefore d.clock), hold ∈ batches.flatten.map (·.1)) ∨
    batches.length = expiryMaxBatches ∧ ∀ b ∈ batches, expiryBatch ≤ b.length
  all : (d.lapsed (lapsedBefore d.clock)).length ≤ expiryBatch * expiryMaxBatches →
    ∀ hold ∈ d.lapsed (lapsedBefore d.clock), hold ∈ batches.flatten.map (·.1)
  done : ExpiryDone d (expiredOf batches.flatten) d'
  throws : ∀ a ∈ batches.flatten, AlwaysThrows d a.1 → a.2 = false
  succeeds : ∀ a ∈ batches.flatten, NeverThrows d a.1 → a.2 = true

theorem drain_expiry (d : Db) :
    FairExpiry d ((expiryQueue (lapsedBefore d.clock)).drain expiryBatch expiryMaxBatches d []).1
      ((expiryQueue (lapsedBefore d.clock)).drain expiryBatch expiryMaxBatches d []).2 := by
  have hsound := expiryQueue_sound (lapsedBefore d.clock)
  have hfair := Drain.drain_fair hsound (show 0 < expiryBatch by decide) expiryMaxBatches d
  generalize (expiryQueue (lapsedBefore d.clock)).drain expiryBatch expiryMaxBatches d [] = r at hfair
  have hwaits : ∀ a ∈ r.1.flatten, a.1 ∈ d.lapsed (lapsedBefore d.clock) :=
    fun a ha => (hfair.untried a ha).1
  refine ⟨hfair.reads, hfair.reads.run, ?_, fun a ha => ?_, hfair.bounded, hfair.full,
    hfair.enough.imp_left fun h hold hmem => h hold ⟨hmem, by simp⟩, hfair.all,
    run_done hfair.reads.run hfair.once hwaits, fun a ha hthrows => ?_, fun a ha hnever => ?_⟩
  · have hids : r.1.flatten.map (·.1.id) = (r.1.flatten.map (·.1)).map (·.id) := by
      rw [List.map_map]
      rfl
    rw [hids]
    refine hfair.once.map_on fun i hi j hj hid => ?_
    obtain ⟨a, ha, rfl⟩ := List.mem_map.1 hi
    obtain ⟨b, hb, rfl⟩ := List.mem_map.1 hj
    exact lapsed_ext (hwaits a ha) (hwaits b hb) hid
  · obtain ⟨o, ho, hlapsed, -⟩ := mem_lapsed.1 (hwaits a ha)
    exact ⟨o, ho, holdLapsed_iff.2 hlapsed⟩
  · obtain ⟨before, d₁, hbefore, hmem, hturn⟩ := hfair.reads.run.turn hsound hfair.once hwaits ha
    rcases attempt_cases hmem with ⟨e, he, hnone⟩ | ⟨ws, hws, -⟩
    · rw [hnone] at hturn
      simpa using hturn
    · obtain ⟨e, he⟩ := hthrows d₁ ⟨before, hbefore⟩
      rw [hws] at he
      cases he
  · obtain ⟨before, d₁, hbefore, hmem, hturn⟩ := hfair.reads.run.turn hsound hfair.once hwaits ha
    rcases attempt_cases hmem with ⟨e, he, -⟩ | ⟨ws, -, hsome, -⟩
    · exact absurd he (hnever d₁ ⟨before, hbefore⟩ hmem e)
    · rw [hsome] at hturn
      simpa using hturn

/-- The expiry job alone ends, has tried the lapsed holds fairly, and tells how many of them it
expired and on how many it failed. -/
theorem expireLapsedHolds_fair (d : Db) :
    ∃ (batches : List (List (LapsedHold × Bool))) (d' : Db), FairExpiry d batches d' ∧
      expireLapsedHolds.alone d = (.ok {
        expired := (expiredOf batches.flatten).length
        failed := (failedOf batches.flatten).length }, d') := by
  refine ⟨_, _, drain_expiry d, ?_⟩
  unfold expireLapsedHolds
  rw [Svc.alone_bind_ok (Svc.alone_now d)]
  have hnone : (expiryQueue (lapsedBefore d.clock)).PassedOver d [] := ⟨.nil, by simp⟩
  refine (expireBatches_alone hnone).trans ?_
  simp [ExpiryCount.after]

end Fairness

end EchoAndAura
