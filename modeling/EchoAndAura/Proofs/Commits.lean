import EchoAndAura.Conduct
import EchoAndAura.Proofs.Interference

/-!
# What each transaction commits

Each transaction of the shop is walked once, statement by statement, with the rules below, and
its commits are found to be `Effect`s.
-/

namespace EchoAndAura

open Txn (Lock writeAll)

variable {β γ : Type} {R : List (Lock Row) → Db → Db → Prop} {d₀ d : Db}

section Writes

@[simp] theorem writeAll_nil : writeAll ([] : List Write) d = d := rfl

@[simp] theorem writeAll_cons (w : Write) (ws : List Write) :
    writeAll (w :: ws) d = writeAll ws (w.apply d) := rfl

/-- The trxID index after a transition. -/
def OrderPatch.reindex (p : OrderPatch) (id : Id) (o : Order) (t : Table String Id) :
    Table String Id :=
  match p.trxIds o with
  | [] => t
  | trxId :: old => old.foldl (fun t x => t.erase x) (t.insert trxId id)

theorem writeAll_trxWrites (p : OrderPatch) (id : Id) (o : Order) (d : Db) :
    writeAll (p.trxWrites id o) d = { d with orderTrxIds := p.reindex id o d.orderTrxIds } := by
  have free : ∀ (l : List String) (d : Db), writeAll (l.map Write.freeTrxId) d =
      { d with orderTrxIds := l.foldl (fun t x => t.erase x) d.orderTrxIds } := by
    intro l
    induction l with
    | nil => exact fun _ => rfl
    | cons x l ih =>
      intro d
      rw [List.map_cons, writeAll_cons, ih]
      rfl
  unfold OrderPatch.trxWrites OrderPatch.reindex
  cases p.trxIds o with
  | nil => rfl
  | cons t l =>
    simp only
    rw [writeAll_cons, free]
    rfl

theorem writeAll_insertWrites :
    ∀ (rows : List (Id × Ticket)) (d : Db), writeAll (ticketsRepository.insertWrites rows) d =
      { d with
        tickets := .insertAll rows d.tickets
        ticketCodes := .insertAll (rows.map fun r => (r.2.code, r.1)) d.ticketCodes
        ticketPositions :=
          .insertAll (rows.map fun r => ((r.2.orderId, r.2.position), r.1)) d.ticketPositions }
  | [], _ => rfl
  | r :: rows, d => by
    have ih := writeAll_insertWrites rows
    simp only [ticketsRepository.insertWrites, List.flatMap_cons, List.cons_append,
      List.nil_append, writeAll_cons] at ih ⊢
    rw [ih]
    rfl

def undoneRows (undone : List Undone) : List (Id × Ticket) :=
  undone.map fun u => (u.listed.id, { u.row with checkIn := none })

theorem writeAll_undoWrites (event : PassCheckIn → OrderEvent) :
    ∀ (undone : List Undone) (d : Db), writeAll (undoWrites event undone) d =
      { d with
        tickets := .insertAll (undoneRows undone) d.tickets
        orderEvents := d.orderEvents ++ undone.map fun u => event u.listed }
  | [], d => by simp [undoWrites, undoneRows, Table.insertAll]
  | u :: undone, d => by
    have ih := writeAll_undoWrites event undone
    simp only [undoWrites, List.flatMap_cons, List.cons_append, List.nil_append, writeAll_cons]
      at ih ⊢
    rw [ih]
    simp [Write.apply, undoneRows, Table.insertAll]

/-- What a batch of tickets may break depends on the tables of tickets alone. -/
theorem insertViolation_of_eq {d d' : Db} (h₁ : d.tickets = d'.tickets)
    (h₂ : d.ticketCodes = d'.ticketCodes) (h₃ : d.ticketPositions = d'.ticketPositions)
    (e : Err) (rows : List (Id × Ticket)) :
    ticketsRepository.insertViolation d e [] rows =
      ticketsRepository.insertViolation d' e [] rows := by
  refine ticketsRepository.insertViolation_congr [] fun x hx => ?_
  obtain ⟨r, -, hx⟩ := List.mem_flatMap.1 hx
  simp only [List.mem_cons, List.not_mem_nil, or_false] at hx
  rcases hx with rfl | rfl | rfl
  · exact congrArg _ h₁
  · exact congrArg _ h₂
  · exact congrArg _ h₃

end Writes

section Moves

variable {q : Request} {d' : Db}

theorem Request.moves_same (h : d'.orders = d.orders) : q.moves d d' := by
  refine ⟨fun {id o o'} ho ho' => ?_, fun {id o'} ho ho' => ?_⟩
  · rw [h, ho] at ho'
    exact .inl (Option.some.inj ho').symm
  · simp [h, ho] at ho'

/-- One order's change among unchanged others. -/
theorem Request.moves_insert {id : Id} {o₁ : Order} (h : d'.orders = d.orders.insert id o₁)
    (hm : ∀ o, d.orders.lookup id = some o → q.mayMove id o o₁)
    (hn : d.orders.lookup id = none → q.mayMake o₁) : q.moves d d' := by
  refine ⟨fun {id' o o'} ho ho' => ?_, fun {id' o'} ho ho' => ?_⟩
  all_goals
    rw [h, Table.lookup_insert_eq] at ho'
    split_ifs at ho' with hid
  · subst hid
    obtain rfl := Option.some.inj ho'
    exact .inr (hm o ho)
  · exact .inl (Option.some.inj (ho'.symm.trans ho))
  · subst hid
    obtain rfl := Option.some.inj ho'
    exact hn ho
  · simp [ho] at ho'

theorem Request.moves_row {id : Id} {o : Order} (o₁ : Order) (h : d'.orders = d.orders.insert id o₁)
    (ho : d.orders.lookup id = some o) (hm : q.mayMove id o o₁) : q.moves d d' := by
  refine Request.moves_insert h (fun o' ho' => ?_) fun hn => by simp [ho] at hn
  obtain rfl := Option.some.inj (ho.symm.trans ho')
  exact hm

theorem Request.moves_new {id : Id} (o₁ : Order) (h : d'.orders = d.orders.insert id o₁)
    (ho : d.orders.lookup id = none) (hm : q.mayMake o₁) : q.moves d d' :=
  Request.moves_insert h (fun o' ho' => by simp [ho] at ho') fun _ => hm

/-- An effect that leaves the orders as they are. -/
def Aside (K : List (Lock Row)) (d : Db) (ws : List Write) (undone : List (Id × CheckIn)) : Prop :=
  Effect K d ws undone ∧ (writeAll ws d).orders = d.orders

/-- An effect of the request `q`. -/
def EffectOf (q : Request) (K : List (Lock Row)) (d : Db) (ws : List Write) : Prop :=
  Effect K d ws [] ∧ q.moves d (writeAll ws d)

theorem Aside.of {K : List (Lock Row)} {ws : List Write} (h : Aside K d ws []) :
    EffectOf q K d ws :=
  ⟨h.1, Request.moves_same h.2⟩

theorem countIssued_pos {orderId : Id} : 0 < (d.tickets.rows.filter fun t =>
    t.orderId == orderId && t.status == .issued).length ↔ ∃ id, d.IssuedOf orderId id := by
  simp only [List.length_pos_iff_exists_mem, List.mem_filter, Table.mem_rows, Bool.and_eq_true,
    beq_iff_eq, Db.IssuedOf]
  constructor
  · rintro ⟨t, ⟨id, ht⟩, h⟩
    exact ⟨id, t, ht, h⟩
  · rintro ⟨id, t, ht, h⟩
    exact ⟨t, ⟨id, ht⟩, h⟩

/-- With one ticket cancelled, the others of an order stand as they did. -/
theorem issuedOf_cancel {orderId id id' : Id} {t : Ticket} {d' : Db}
    (h : d'.tickets = d.tickets.insert id { t with status := .cancelled }) :
    d'.IssuedOf orderId id' ↔ id' ≠ id ∧ d.IssuedOf orderId id' := by
  unfold Db.IssuedOf
  rw [h, Table.lookup_insert_eq]
  split_ifs with hid
  · simp [hid]
  · simp [hid]

end Moves

section Rules

variable {Q : β → Db → List (Lock Row) → List Write → Prop} {K : List (Lock Row)} {ws : List Write}

theorem commits_throw (e : Err) (k : γ → Tx β) :
    Txn.Tx.commits R d Q ((Txn.Tx.throw e : Tx γ) >>= k) d₀ K ws :=
  trivial

theorem commits_ofExcept {r : Except Err γ} {k : γ → Tx β}
    (h : ∀ a, r = .ok a → Txn.Tx.commits R d Q (k a) d₀ K ws) :
    Txn.Tx.commits R d Q (Tx.ofExcept r >>= k) d₀ K ws := by
  cases r with
  | ok a => exact h a rfl
  | error e => trivial

theorem commits_reads {ρ : Type} {name : String} {f : Db → ρ} {k : ρ → Tx β}
    (h : ∀ d₁, R [] d₀ d₁ → R K d₁ d →
      Txn.Tx.commits R d Q (k (f (writeAll ws d₁))) d₁ K ws) :
    Txn.Tx.commits R d Q (exec (.reads name f) >>= k) d₀ K ws := by
  refine ⟨fun d₁ r h₀ h₁ he => ?_, fun _ _ _ he => nomatch he⟩
  cases he
  exact h d₁ h₀ h₁

theorem commits_append {name : String} {w : Write} {ρ : Type} {r : ρ}
    {hw : Txn.Rows.row Db w = none} {k : ρ → Tx β}
    (h : Txn.Tx.commits R d Q (k r) d₀ K (ws ++ [w])) :
    Txn.Tx.commits R d Q (exec (.append name w r hw) >>= k) d₀ K ws := by
  refine ⟨fun _ _ _ _ he => (nomatch he), fun K' ws' r' he => ?_⟩
  cases he
  exact h

theorem commits_insert {name : String} {keys : List Row} {violation : Db → Option Err}
    {new : List Write} {ρ : Type} {r : ρ} {hv hws} {k : ρ → Tx β}
    (h : violation (writeAll ws d) = none →
      Txn.Tx.commits R d Q (k r) d₀ (keys.map (fun x => (x, .excl)) ++ K) (ws ++ new)) :
    Txn.Tx.commits R d Q (exec (.insert name keys violation new r hv hws) >>= k) d₀ K ws := by
  refine ⟨fun d₁ r' _ _ he => ?_, fun K' ws' r' he => ?_⟩
  · simp only [Txn.Stmt.insert] at he
    split at he <;> cases he
  · simp only [Txn.Stmt.insert] at he
    split at he <;> cases he
    exact h ‹_›

/-- A statement about one row: whatever it may have missed, and what it locks and writes at the
commit. -/
theorem commits_onRow {name : String} {x : Row} {cell ρ : Type} {g : Db → cell}
    {f : cell → Change ρ} {hg hf} {k : ρ → Tx β}
    (miss : ∀ d₁ r, R [] d₀ d₁ → R K d₁ d → f (g (writeAll ws d₁)) = .miss r →
      Txn.Tx.commits R d Q (k r) d₁ K ws)
    (lock : ∀ r, f (g (writeAll ws d)) = .lock r →
      Txn.Tx.commits R d Q (k r) d₀ ((x, .excl) :: K) ws)
    (share : ∀ r, f (g (writeAll ws d)) = .share r →
      Txn.Tx.commits R d Q (k r) d₀ ((x, .share) :: K) ws)
    (write : ∀ w r, f (g (writeAll ws d)) = .write w r →
      Txn.Tx.commits R d Q (k r) d₀ ((x, .excl) :: K) (ws ++ [w])) :
    Txn.Tx.commits R d Q (exec (.onRow name x g f hg hf) >>= k) d₀ K ws := by
  have hx : ∀ d, (Txn.Stmt.onRow name x g f hg hf).exec d = (f (g d)).outcome x := fun _ => rfl
  refine ⟨fun d₁ r h₀ h₁ he => ?_, fun K' ws' r he => ?_⟩
  · rw [hx] at he
    rcases hc : f (g (writeAll ws d₁)) with a | a | a | ⟨w, a⟩ | e <;> rw [hc] at he <;> cases he
    exact miss d₁ r h₀ h₁ hc
  · rw [hx] at he
    rcases hc : f (g (writeAll ws d)) with a | a | a | ⟨w, a⟩ | e <;> rw [hc] at he <;> cases he
    · rw [List.append_nil]
      exact share r hc
    · rw [List.append_nil]
      exact lock r hc
    · exact write w r hc

theorem updateTicketType_miss {id : Id} {cond : TicketType → Bool} {set : TicketType → TicketType}
    {caught : List String} {e : Err} (c : Option TicketType) {r : Bool}
    (hc : (match c with
      | some t => if cond t then setTicketType id (set t) caught e true else .miss false
      | none => .miss false : Change Bool) = .miss r) : r = false := by
  split at hc
  · split_ifs at hc
    · simp only [setTicketType] at hc
      split at hc
      · split_ifs at hc
      · cases hc
    · cases hc
      rfl
  · cases hc
    rfl

theorem commits_updateTicketType {name : String} {id : Id} {cond : TicketType → Bool}
    {set : TicketType → TicketType} {caught : List String} {e : Err} {k : Bool → Tx β}
    (miss : ∀ d₁, Txn.Tx.commits R d Q (k false) d₁ K ws)
    (write : ∀ t, (writeAll ws d).ticketTypes.lookup id = some t → cond t = true →
      (set t).broken = none →
      Txn.Tx.commits R d Q (k true) d₀ ((.ticketType id, .excl) :: K) (ws ++ [.ticketType id (set t)])) :
    Txn.Tx.commits R d Q (exec (updateTicketType name id cond set caught e) >>= k) d₀ K ws := by
  refine commits_onRow (fun d₁ r _ _ hc => ?_) (fun r hc => ?_) (fun r hc => ?_) fun w r hc => ?_
  · obtain rfl := updateTicketType_miss _ hc
    exact miss d₁
  · split at hc
    · split_ifs at hc
      simp only [setTicketType] at hc
      split at hc
      · split_ifs at hc
      · cases hc
    · cases hc
  · split at hc
    · split_ifs at hc
      simp only [setTicketType] at hc
      split at hc
      · split_ifs at hc
      · cases hc
    · cases hc
  · split at hc
    · rename_i t ht
      split_ifs at hc with hcond
      simp only [setTicketType] at hc
      split at hc
      · split_ifs at hc
      · cases hc
        exact write t ht hcond ‹_›
    · cases hc

theorem commits_hold {id : Id} {quantity : Int} {k : Bool → Tx β}
    (miss : ∀ d₁, Txn.Tx.commits R d Q (k false) d₁ K ws)
    (write : ∀ t, (writeAll ws d).ticketTypes.lookup id = some t → quantity ≤ t.available →
      0 < quantity → Txn.Tx.commits R d Q (k true) d₀ ((.ticketType id, .excl) :: K)
        (ws ++ [.ticketType id (t.reserve quantity)])) :
    Txn.Tx.commits R d Q (inventoryService.hold id quantity >>= k) d₀ K ws := by
  refine Txn.Tx.commits_bind (commits_ofExcept fun _ _ => commits_ofExcept fun _ hq => ?_)
  have hq : 0 < quantity := by
    simp only [inventoryRepository.assertPositiveInteger] at hq
    split_ifs at hq with h
    omega
  refine commits_updateTicketType (k := pure) miss fun t ht hc _ => ?_
  exact write t ht (by simpa using hc) hq

theorem commits_release {id : Id} {quantity : Int} {k : Unit → Tx β}
    (write : ∀ t, (writeAll ws d).ticketTypes.lookup id = some t → quantity ≤ t.quantityReserved →
      0 < quantity → Txn.Tx.commits R d Q (k ()) d₀ ((.ticketType id, .excl) :: K)
        (ws ++ [.ticketType id (t.release quantity)])) :
    Txn.Tx.commits R d Q (inventoryService.release id quantity >>= k) d₀ K ws := by
  refine Txn.Tx.commits_bind (commits_ofExcept fun _ _ => commits_ofExcept fun _ hq => ?_)
  have hq : 0 < quantity := by
    simp only [inventoryRepository.assertPositiveInteger] at hq
    split_ifs at hq with h
    omega
  refine commits_updateTicketType (fun _ => trivial) fun t ht hc _ => ?_
  exact write t ht (by simpa using hc) hq

theorem commits_convertToSold {id : Id} {quantity : Int} {k : Unit → Tx β}
    (write : ∀ t, (writeAll ws d).ticketTypes.lookup id = some t → quantity ≤ t.quantityReserved →
      0 < quantity → Txn.Tx.commits R d Q (k ()) d₀ ((.ticketType id, .excl) :: K)
        (ws ++ [.ticketType id (t.convertToSold quantity)])) :
    Txn.Tx.commits R d Q (inventoryService.convertToSold id quantity >>= k) d₀ K ws := by
  refine Txn.Tx.commits_bind (commits_ofExcept fun _ _ => commits_ofExcept fun _ hq => ?_)
  have hq : 0 < quantity := by
    simp only [inventoryRepository.assertPositiveInteger] at hq
    split_ifs at hq with h
    omega
  refine commits_updateTicketType (fun _ => trivial) fun t ht hc _ => ?_
  exact write t ht (by simpa using hc) hq

theorem commits_releaseSold {id : Id} {quantity : Int} {k : Unit → Tx β}
    (write : ∀ t, (writeAll ws d).ticketTypes.lookup id = some t → quantity ≤ t.quantitySold →
      Txn.Tx.commits R d Q (k ()) d₀ ((.ticketType id, .excl) :: K)
        (ws ++ [.ticketType id (t.releaseSold quantity)])) :
    Txn.Tx.commits R d Q (inventoryService.releaseSold id quantity >>= k) d₀ K ws := by
  refine Txn.Tx.commits_bind (commits_ofExcept fun _ _ => commits_ofExcept fun _ _ => ?_)
  refine commits_updateTicketType (fun _ => trivial) fun t ht hc _ => ?_
  exact write t ht (by simpa using hc)

theorem commits_transition {id : Id} {fromStatuses : List OrderStatus} {toStatus : OrderStatus}
    {patch : OrderPatch} {k : Option Order → Tx β}
    (miss : ∀ d₁, Txn.Tx.commits R d Q (k none) d₁ K ws)
    (write : ∀ o, (writeAll ws d).orders.lookup id = some o → o.status ∈ fromStatuses →
      (patch.apply toStatus o).broken = none →
      (∀ t, (patch.trxIds o).head? = some t → (writeAll ws d).orderTrxIds.lookup t = none) → ∀ K',
      Txn.Tx.commits R d Q (k (some (patch.apply toStatus o))) d₀ (K' ++ K)
        (ws ++ .order id (patch.apply toStatus o) :: patch.trxWrites id o)) :
    Txn.Tx.commits R d Q (exec (ordersRepository.transition id fromStatuses toStatus patch) >>= k)
      d₀ K ws := by
  refine ⟨fun d₁ r _ _ he => ?_, fun K' ws' r he => ?_⟩
  · obtain rfl : r = none := by
      simp only [ordersRepository.transition, transitionOutcome] at he
      split at he
      · cases he
        rfl
      · split_ifs at he
        · cases he
          rfl
        all_goals split at he <;> cases he
    exact miss d₁
  · obtain ⟨o, ho, hs, hb, ht, rfl, rfl, rfl⟩ := transitionOutcome_hit he
    exact write o ho hs hb ht _

theorem commits_orderForUpdate {id : Id} {k : Option Order → Tx β}
    (miss : ∀ d₁, Txn.Tx.commits R d Q (k none) d₁ K ws)
    (lock : ∀ o, (writeAll ws d).orders.lookup id = some o →
      Txn.Tx.commits R d Q (k (some o)) d₀ ((.order id, .excl) :: K) ws) :
    Txn.Tx.commits R d Q (exec (ordersRepository.findByIdForUpdate id) >>= k) d₀ K ws := by
  refine commits_onRow (fun d₁ r _ _ hc => ?_) (fun r hc => ?_) (fun r hc => ?_) fun w r hc => ?_ <;>
    split at hc <;> cases hc
  · exact miss d₁
  · exact lock _ ‹_›

theorem commits_ticketForUpdate {id : Id} {k : Option Ticket → Tx β}
    (miss : ∀ d₁, Txn.Tx.commits R d Q (k none) d₁ K ws)
    (lock : ∀ t, (writeAll ws d).tickets.lookup id = some t →
      Txn.Tx.commits R d Q (k (some t)) d₀ ((.ticket id, .excl) :: K) ws) :
    Txn.Tx.commits R d Q (exec (ticketsRepository.findByIdForUpdate id) >>= k) d₀ K ws := by
  refine commits_onRow (fun d₁ r _ _ hc => ?_) (fun r hc => ?_) (fun r hc => ?_) fun w r hc => ?_ <;>
    split at hc <;> cases hc
  · exact miss d₁
  · exact lock _ ‹_›

theorem commits_updateTicket {name : String} {id : Id} {cond : Ticket → Bool}
    {set : Ticket → Ticket} {k : Option Ticket → Tx β}
    (miss : ∀ d₁, R [] d₀ d₁ → R K d₁ d →
      (∀ t, (writeAll ws d₁).tickets.lookup id = some t → cond t = false) →
      Txn.Tx.commits R d Q (k none) d₁ K ws)
    (write : ∀ t, (writeAll ws d).tickets.lookup id = some t → cond t = true →
      (set t).broken = none →
      Txn.Tx.commits R d Q (k (some (set t))) d₀ ((.ticket id, .excl) :: K)
        (ws ++ [.ticket id (set t)])) :
    Txn.Tx.commits R d Q (exec (ticketsRepository.updateTicket name id cond set) >>= k) d₀ K ws := by
  refine commits_onRow (fun d₁ r h₀ h₁ hc => ?_) (fun r hc => ?_) (fun r hc => ?_) fun w r hc => ?_
  · split at hc
    · rename_i t ht
      split_ifs at hc with hcond
      · split at hc <;> cases hc
      · cases hc
        refine miss d₁ h₀ h₁ fun t' ht' => ?_
        obtain rfl := Option.some.inj (ht'.symm.trans ht)
        simpa using hcond
    · rename_i ht
      cases hc
      exact miss d₁ h₀ h₁ fun t' ht' => by simp [ht] at ht'
  · split at hc
    · split_ifs at hc
      split at hc <;> cases hc
    · cases hc
  · split at hc
    · split_ifs at hc
      split at hc <;> cases hc
    · cases hc
  · split at hc
    · rename_i t ht
      split_ifs at hc with hcond
      split at hc <;> cases hc
      exact write t ht hcond ‹_›
    · cases hc

theorem commits_undoCheckIn {id scanId : Id} {k : Option Ticket → Tx β}
    (miss : ∀ d₁, R [] d₀ d₁ → R K d₁ d →
      (∀ c, (writeAll ws d₁).checkIn id = some c → c.checkedInScanId ≠ scanId) →
      Txn.Tx.commits R d Q (k none) d₁ K ws)
    (write : ∀ t c, (writeAll ws d).tickets.lookup id = some t → t.checkIn = some c →
      c.checkedInScanId = scanId →
      Txn.Tx.commits R d Q (k (some { t with checkIn := none })) d₀ ((.ticket id, .excl) :: K)
        (ws ++ [.ticket id { t with checkIn := none }])) :
    Txn.Tx.commits R d Q (exec (ticketsRepository.undoCheckIn id scanId) >>= k) d₀ K ws := by
  refine commits_updateTicket (fun d₁ h₀ h₁ hcond => miss d₁ h₀ h₁ fun c hc hs => ?_)
    fun t ht hcond _ => ?_
  · obtain ⟨t, ht, hc⟩ := Option.bind_eq_some_iff.1 hc
    simpa [hc, hs] using hcond t ht
  · obtain ⟨c, hc, hs⟩ := Option.any_eq_true _ _ |>.1 hcond
    exact write t c ht hc (by simpa using hs)

theorem commits_insertOrder {id : Id} {o : Order} {k : Order → Tx β}
    (write : o.broken = none → (writeAll ws d).orders.lookup id = none →
      (writeAll ws d).orderReferences.lookup o.reference = none → ∀ K',
      Txn.Tx.commits R d Q (k o) d₀ (K' ++ K) (ws ++ [.order id o, .reference o.reference id])) :
    Txn.Tx.commits R d Q (exec (ordersRepository.insert id o) >>= k) d₀ K ws := by
  refine commits_insert fun hv => ?_
  simp only [ordersRepository.insertViolation] at hv
  split at hv
  · cases hv
  split_ifs at hv with h₁ h₂
  exact write ‹_› (by simpa using h₁) (by simpa using h₂) _

theorem commits_insertMany {rows : List (Id × Ticket)} {k : List (Id × Ticket) → Tx β}
    (write : ∀ e, ticketsRepository.insertViolation (writeAll ws d) e [] rows = none → ∀ K',
      Txn.Tx.commits R d Q (k rows) d₀ (K' ++ K) (ws ++ ticketsRepository.insertWrites rows)) :
    Txn.Tx.commits R d Q (ticketsRepository.insertMany rows >>= k) d₀ K ws := by
  unfold ticketsRepository.insertMany
  split_ifs with he
  · obtain rfl := List.isEmpty_iff.1 he
    have := write .lost rfl []
    rwa [ticketsRepository.insertWrites, List.flatMap_nil, List.append_nil, List.nil_append] at this
  · exact commits_insert fun hv => write _ hv _

theorem commits_now {k : Time → Tx β} (h : ∀ t d₁, Txn.Tx.commits R d Q (k t) d₁ K ws) :
    Txn.Tx.commits R d Q (exec now >>= k) d₀ K ws :=
  commits_reads fun d₁ _ _ => h _ d₁

theorem commits_checkIn {id scanId : Id} {gate : String} {at_ : Option Time}
    {k : Option Ticket → Tx β}
    (miss : ∀ d₁, Txn.Tx.commits R d Q (k none) d₁ K ws)
    (write : ∀ t time d₁, (writeAll ws d).tickets.lookup id = some t → t.status = .issued →
      t.checkIn = none →
      Txn.Tx.commits R d Q (k (some { t with checkIn := some ⟨time, gate, scanId⟩ })) d₁
        ((.ticket id, .excl) :: K)
        (ws ++ [.ticket id { t with checkIn := some ⟨time, gate, scanId⟩ }])) :
    Txn.Tx.commits R d Q (ticketsRepository.checkIn id gate scanId at_ >>= k) d₀ K ws := by
  have set : ∀ time d₁, Txn.Tx.commits R d
      (fun r d₁ K ws => Txn.Tx.commits R d Q (k r) d₁ K ws)
      (exec (ticketsRepository.checkInStmt id ⟨time, gate, scanId⟩)) d₁ K ws := fun time d₁ => by
    refine commits_updateTicket (k := pure) (fun d₂ _ _ _ => miss d₂) fun t ht hc _ => ?_
    simp only [Bool.and_eq_true, beq_iff_eq, Option.isNone_iff_eq_none] at hc
    exact write t time d₁ ht hc.1 hc.2
  refine Txn.Tx.commits_bind ?_
  cases at_ with
  | some time => exact set time d₀
  | none => exact commits_now set

theorem commits_insertScan {scanId : Id} {s : Time → DoorScan} {k : Unit → Tx β}
    (write : ∀ t d₁, (writeAll ws d).doorScans.lookup scanId = none →
      Txn.Tx.commits R d Q (k ()) d₁ ((.scan scanId, .excl) :: K) (ws ++ [.scan scanId (s t)])) :
    Txn.Tx.commits R d Q (doorRepository.insertScan scanId s >>= k) d₀ K ws := by
  refine Txn.Tx.commits_bind (commits_now fun t d₁ => commits_insert (k := pure) fun hv => ?_)
  simp only [doorRepository.insertScanViolation] at hv
  split at hv
  · cases hv
  split_ifs at hv with h
  exact write t d₁ (by simpa using h)

theorem commits_lockActivePass {id : Id} {k : Bool → Tx β}
    (miss : ∀ d₁, Txn.Tx.commits R d Q (k false) d₁ K ws)
    (share : ∀ p, (writeAll ws d).doorPasses.lookup id = some p → p.revokedAt = none →
      Txn.Tx.commits R d Q (k true) d₀ ((.pass id, .share) :: K) ws) :
    Txn.Tx.commits R d Q (exec (doorRepository.lockActivePass id) >>= k) d₀ K ws := by
  refine commits_onRow (fun d₁ r _ _ hc => ?_) (fun r hc => ?_) (fun r hc => ?_) fun w r hc => ?_
  · obtain rfl : r = false := by
      split at hc
      · split_ifs at hc
        cases hc
        rfl
      · cases hc
        rfl
    exact miss d₁
  all_goals
    split at hc
    · split_ifs at hc with h
      try cases hc
      try exact share _ ‹_› (by simpa using h)
    · cases hc

end Rules

section Orders

open ordersService fulfilmentService

/-- The orders of a buyer on an event that are open, as `countOpenForBuyer` counts them. -/
def Db.openOrders (d : Db) (eventId : Id) (phone : String) (t : Time) : List Order :=
  d.orders.rows.filter fun o =>
    o.eventId == eventId && o.buyerPhone == some phone && ordersRepository.isOpenAt o t

/-- Under the buyer's lock there was room for one more open order, in a database that leads from
`d₀` to `d`. -/
def CountedFrom (R : List (Lock Row) → Db → Db → Prop) (eventId : Id) (phone : String) (t : Time)
    (d₀ d : Db) : Prop :=
  ∃ d₁, R [] d₀ d₁ ∧ R [(.buyer eventId phone, .excl)] d₁ d ∧
    (d₁.openOrders eventId phone t).length < maxOpenOrdersPerBuyer

theorem createOrderTx_commits {input : CreateOrderInput} {c : Checked} {draw : OrderDraw}
    (hq : c.totals.quantity = input.quantity) :
    (createOrderTx input c draw).commits R d
      (fun _ _ K ws => Effect K d ws [] ∧
        (∀ draw, (Request.createOrder input draw).moves d (writeAll ws d)) ∧
        CountedFrom R c.eventId input.buyerPhone (lapsedBefore c.requestedAt) d₀ d ∧
        ∀ id o, d.orders.lookup id = none →
        (writeAll ws d).orders.lookup id = some o → o = newOrder input c draw) d₀ [] [] := by
  refine commits_onRow (fun _ _ _ _ h => nomatch h) (fun _ _ => ?_) (fun _ h => nomatch h)
    fun _ _ h => nomatch h
  refine commits_reads fun d₁ h₀ h₁ => ?_
  dsimp only
  split
  · exact commits_throw _ _
  rename_i hopen
  refine commits_hold (fun _ => trivial) fun t ht ha _ => ?_
  refine commits_insertOrder fun hb hn hr K' => commits_append ?_
  rw [← hq] at ha ⊢
  refine ⟨.hold (o := newOrder input c draw) hn hr ht ha hb rfl rfl rfl (by simp [newOrder])
    ⟨rfl, rfl, rfl, rfl⟩, fun _ => Request.moves_new _ rfl hn rfl, ⟨d₁, h₀, h₁, not_le.1 hopen⟩,
    fun id o h₀ h₁ => ?_⟩
  simp only [List.nil_append, List.cons_append, writeAll_cons, writeAll_nil,
    Write.apply, Table.lookup_insert_eq, h₀] at h₁
  split_ifs at h₁
  exact (Option.some.inj h₁).symm

theorem submitPaymentTx_commits {orderId : Id} {trxId sender : String}
    {input : SubmitPaymentInput} : (submitPaymentTx orderId trxId sender).commits R d
      (fun _ _ K ws => EffectOf (.submitPayment orderId input) K d ws) d₀ [] [] := by
  refine commits_orderForUpdate (fun _ => trivial) fun o ho => ?_
  dsimp only
  split
  · exact commits_throw _ _
  refine commits_now fun t _ => ?_
  split
  · exact commits_throw _ _
  split
  on_goal 1 => refine commits_ofExcept fun _ _ => ?_
  all_goals
    refine commits_transition (fun _ => trivial) fun o' ho' hs hb hf K' => commits_append ?_
    obtain rfl : o' = o := Option.some.inj (ho'.symm.trans ho)
    refine ⟨.submit ho (by simpa [submittable] using hs) rfl hb hf ⟨_, ?_, rfl, rfl, rfl, rfl⟩,
      Request.moves_row (OrderPatch.apply { bkash := some (trxId, sender) }
        .pendingVerification o') ?_ ho ⟨rfl, rfl⟩⟩
    · simp only [submittedEvent]
      split_ifs
      all_goals simp
    · simp [Txn.writeAll_append, writeAll_trxWrites, Write.apply]

/-- The order a lapsed hold was listed from. -/
def LapsedFrom (hold : ordersRepository.LapsedHold) (d : Db) : Prop :=
  ∃ o, d.orders.lookup hold.id = some o ∧ o.ticketTypeId = hold.ticketTypeId ∧
    o.quantity = hold.quantity

theorem expireHoldTx_commits {hold : ordersRepository.LapsedHold} (hd : LapsedFrom hold d) :
    (expireHoldTx hold).commits R d (fun done _ K ws => EffectOf .expireLapsedHolds K d ws ∧
      if done then Expires hold.id d (writeAll ws d) else ws = []) d₀ [] [] := by
  obtain ⟨o, ho, hty, hqu⟩ := hd
  refine commits_transition (fun _ => ⟨⟨.nothing, Request.moves_same rfl⟩, rfl⟩)
    fun o' ho' hs _ _ K' => ?_
  obtain rfl : o' = o := Option.some.inj (ho'.symm.trans ho)
  have hs : o'.status = .pendingPayment := by simpa using hs
  refine commits_release fun t ht ha hp => commits_append ?_
  rw [← hqu] at ha hp ⊢
  rw [← hty] at ht ⊢
  refine ⟨⟨@Effect.release _ _ _ _ _ _ {} _ ho (.inl ⟨hs, rfl⟩) rfl ht ha hp
    ⟨.orderExpired, by simp, rfl, rfl, by rw [hs]; rfl, rfl⟩,
    Request.moves_row _ rfl ho ⟨hs, rfl⟩⟩, ?_⟩
  exact ⟨⟨o', ho, hs, rfl⟩, _, ⟨rfl, rfl, rfl, rfl⟩, rfl⟩

theorem rejectOrderTx_commits {orderId : Id} {actor : String} {reason : RejectionReason}
    {note : Option String} {input : RejectInput} :
    (rejectOrderTx orderId actor reason note).commits R d
      (fun _ _ K ws => EffectOf (.rejectOrder orderId input) K d ws) d₀ [] [] := by
  refine commits_orderForUpdate (fun _ => trivial) fun o ho => ?_
  dsimp only
  split
  · exact commits_throw _ _
  refine commits_ofExcept fun _ _ => commits_transition (fun _ => trivial) fun o' ho' hs _ _ K' => ?_
  obtain rfl : o' = o := Option.some.inj (ho'.symm.trans ho)
  have hs : o'.status = .pendingVerification := by simpa using hs
  refine commits_release fun t ht ha hp => commits_append ?_
  exact ⟨@Effect.release _ _ _ _ _ _ { rejection := some (reason, note) } _ ho (.inr ⟨hs, rfl⟩) rfl
    ht ha hp ⟨.paymentRejected, by simp, rfl, rfl, by rw [hs]; rfl, rfl⟩,
    Request.moves_row _ rfl ho ⟨rfl, hs, rfl⟩⟩

theorem approveOrderTx_commits {orderId : Id} {input : ApproveInput} {draw : TicketDraw}
    {draws : Nat → TicketDraw} : (approveOrderTx orderId input draw).commits R d
      (fun _ _ K ws => EffectOf (.approveOrder orderId input draws) K d ws) d₀ [] [] := by
  refine commits_orderForUpdate (fun _ => trivial) fun o ho => ?_
  dsimp only
  split
  · exact commits_throw _ _
  split
  · exact commits_throw _ _
  rename_i htrx
  refine commits_ofExcept fun _ _ => commits_ofExcept fun _ _ => ?_
  refine commits_transition (fun _ => trivial) fun o' ho' hs _ _ K' => commits_append ?_
  obtain rfl : o' = o := Option.some.inj (ho'.symm.trans ho)
  have hs : o'.status = .pendingVerification := by simpa using hs
  refine commits_convertToSold fun t ht ha hp => ?_
  split
  · exact commits_throw _ _
  rename_i hn
  refine commits_insertMany fun e hv K' => ?_
  refine commits_transition (fun _ => trivial) fun o₂ ho₂ _ _ _ K' => commits_append ?_
  obtain rfl : o₂ = { o' with status := .paid } := by
    simp only [Txn.writeAll_append, writeAll_insertWrites] at ho₂
    simpa [Write.apply, OrderPatch.trxWrites, OrderPatch.trxIds, OrderPatch.apply, eq_comm]
      using ho₂
  have hv : ticketsRepository.insertViolation d e [] (newTickets orderId o' draw) = none := by
    rw [← hv]
    refine insertViolation_of_eq ?_ ?_ ?_ e _ <;> rfl
  refine ⟨.approve ho hs (by simp) ht ha hp ⟨⟨draw, rfl⟩, by simpa using hn, e, hv⟩
    ⟨rfl, rfl, rfl, rfl⟩ ⟨rfl, rfl, rfl, rfl⟩,
    Request.moves_row { o' with status := .issued } ?_ ho
      ⟨rfl, hs, by simpa using htrx, rfl⟩⟩
  simp only [Txn.writeAll_append, writeAll_insertWrites, writeAll_cons, writeAll_nil, Write.apply,
    OrderPatch.trxWrites, OrderPatch.trxIds, OrderPatch.apply, AList.insert_insert]

theorem issueComplimentaryTx_commits {input : ComplimentaryInput} {t : TicketType}
    {totals : OrderTotals} {draws : Nat → CompDraw} {draw : CompDraw}
    (hq : totals.quantity = input.quantity) :
    (issueComplimentaryTx input t totals draw).commits R d
      (fun _ _ K ws => EffectOf (.issueComplimentaryTickets input draws) K d ws) d₀ [] [] := by
  refine commits_hold (fun _ => trivial) fun t₁ ht₁ ha hp => ?_
  refine commits_convertToSold fun t₂ ht₂ _ _ => ?_
  obtain rfl : t₂ = t₁.reserve input.quantity := by simpa [Write.apply, eq_comm] using ht₂
  refine commits_insertOrder fun _ hn hr K' => ?_
  dsimp only
  split
  · exact commits_throw _ _
  rename_i hnames
  refine commits_insertMany fun e hv K' => commits_append ?_
  have hv : ticketsRepository.insertViolation d e []
      (newTickets draw.order.orderId (compOrder input t totals draw.order) draw.tickets) = none := by
    rw [← hv]
    refine insertViolation_of_eq ?_ ?_ ?_ e _ <;> rfl
  rw [← hq] at ha hp ⊢
  refine ⟨.comp (o := compOrder input t totals draw.order) hn hr ht₁ ha hp rfl rfl rfl
    ⟨⟨draw.tickets, rfl⟩, by simpa using hnames, e, hv⟩ ⟨rfl, rfl, rfl, rfl⟩,
    Request.moves_new (compOrder input t totals draw.order) ?_ hn rfl⟩
  simp [Txn.writeAll_append, writeAll_insertWrites, Write.apply]

theorem cancelTicketTx_commits {ticketId : Id} {input : CancelTicketInput}
    (hR : ∀ K d₁ o id, (Row.order input.orderId, Txn.Mode.excl) ∈ K → R K d₁ d →
      d.orders.lookup input.orderId = some o →
      (d₁.IssuedOf input.orderId id ↔ d.IssuedOf input.orderId id)) :
    (cancelTicketTx ticketId input).commits R d
      (fun _ _ K ws => EffectOf (.cancelTicket ticketId input) K d ws) d₀ [] [] := by
  refine commits_orderForUpdate (fun _ => trivial) fun o ho => ?_
  dsimp only
  split
  · exact commits_throw _ _
  rename_i hs
  refine commits_ticketForUpdate (fun _ => trivial) fun t ht => ?_
  dsimp only
  split
  · exact commits_throw _ _
  rename_i hoid
  obtain hoid : t.orderId = input.orderId := by simpa using hoid
  split
  · exact commits_throw _ _
  split
  · exact commits_throw _ _
  rename_i hout
  refine commits_updateTicket (fun _ _ _ _ => trivial) fun t' ht' hc _ => ?_
  obtain rfl : t' = t := Option.some.inj (ht'.symm.trans ht)
  have hc : t'.status = .issued ∧ t'.checkIn = none := by simpa using hc
  refine commits_releaseSold fun ty hty hsold => commits_append (commits_reads fun d₁ _ h₁ => ?_)
  have hs : o.status = .issued := by simpa using hs
  have hlive : (0 < (List.filter (fun t => t.orderId == input.orderId && t.status == .issued)
      (writeAll [.ticket ticketId { t' with status := .cancelled },
        .ticketType t'.ticketTypeId (ty.releaseSold 1),
        .orderEvent (ticketCancelledEvent input t')] d₁).tickets.rows).length) ↔
      ∃ id ≠ ticketId, d.IssuedOf t'.orderId id := by
    rw [countIssued_pos]
    refine exists_congr fun id =>
      (@issuedOf_cancel d₁ input.orderId ticketId id t' _ rfl).trans (and_congr_right fun _ => ?_)
    rw [hoid]
    exact hR _ d₁ o id (by simp) h₁ ho
  rw [← hoid] at ho
  split
  · rename_i hpos
    refine ⟨@Effect.cancelTicket _ _ _ _ _ _ none ht hc.1 hc.2 hty hsold (by simp [hoid])
      (by simpa using hlive.1 hpos) ⟨o, ho, hs⟩ ⟨hoid.symm, rfl, rfl, rfl⟩ (by simp),
      Request.moves_same rfl⟩
  rename_i hpos
  refine commits_ofExcept fun _ _ => ?_
  refine commits_transition (fun _ => trivial) fun o' ho' _ _ _ K' => commits_append ?_
  rw [← hoid] at ho' ⊢
  obtain rfl : o' = o := Option.some.inj (ho'.symm.trans ho)
  refine ⟨@Effect.cancelTicket _ _ _ _ _ _ (some (o', orderCancelledEvent input o')) ht hc.1 hc.2 hty
    hsold (by simp [hoid]) ?_ ⟨o', ho, hs⟩ ⟨hoid.symm, rfl, rfl, rfl⟩ fun l hl => ?_,
    Request.moves_row _ rfl ho ⟨hoid, hs, rfl⟩⟩
  · simpa using fun id hid h => hpos (hlive.2 ⟨id, hid, h⟩)
  · obtain rfl := Option.mem_some_iff.1 hl
    exact ⟨ho, hs, hoid.symm, rfl, rfl, rfl⟩

theorem renameAttendeeTx_commits {id : Id} {t : Ticket} {code name : String} {q : Request}
    (hid : ∀ t', d.tickets.lookup id = some t' → t'.orderId = t.orderId) :
    (ticketsService.renameAttendeeTx id t code name).commits R d
      (fun _ _ K ws => EffectOf q K d ws) d₀ [] [] := by
  refine commits_orderForUpdate (fun _ => trivial) fun o ho => ?_
  refine commits_updateTicket (fun _ _ _ _ => trivial) fun t' ht' hc _ => commits_append ?_
  have hc : t'.status = .issued ∧ t'.attendeeName = t.attendeeName := by simpa using hc
  exact ⟨.rename ht' hc.1 ⟨(hid t' ht').symm, rfl, rfl, rfl⟩, Request.moves_same rfl⟩

theorem updateTicketType_commits {id : Id} {patch : ticketTypesRepository.Patch} :
    (exec (ticketTypesRepository.update id patch)).commits R d (fun _ _ K ws => Aside K d ws [])
      d₀ [] [] := by
  refine commits_updateTicketType (k := pure) (fun _ => ⟨.nothing, rfl⟩) fun t ht _ hb => ?_
  exact ⟨.edit ht hb rfl rfl rfl, rfl⟩

theorem setClock_commits {t : Time} :
    (exec (setClock t)).commits R d (fun _ _ K ws => Aside K d ws []) d₀ [] [] := by
  refine commits_onRow (k := pure) (fun _ _ _ _ h => nomatch h) (fun _ h => nomatch h)
    (fun _ h => nomatch h) fun w r h => ?_
  cases h
  exact ⟨.tick t, rfl⟩

end Orders

section Gate

open doorService

theorem insertScan_commits {scanId : Id} {s : Time → DoorScan} (hs : ∀ t, (s t).result ≠ .admitted)
    (hp : ∀ t, (d.doorPasses.lookup (s t).passId).isSome)
    (hn : ∀ t id, (s t).ticketId = some id → d.HasTicket id (s t).input) :
    (doorRepository.insertScan scanId s).commits R d (fun _ _ K ws => Aside K d ws []) d₀ [] [] :=
  commits_insertScan (k := pure) fun t _ h => ⟨.log h (hs t) (hp t) (hn t), rfl⟩

/-- What is fixed of the ticket and the pass a scan read before its transaction. -/
structure doorService.Attempt.Reads (a : Attempt) (t : DoorTicket) (d : Db) : Prop where
  ticket : ∀ r, d.tickets.lookup t.id = some r → r.orderId = t.orderId ∧ r.code = t.code
  pass : ∀ p, d.doorPasses.lookup a.ctx.passId = some p → p.label = a.ctx.pass.label
  names : d.HasTicket t.id a.input

theorem doorService.Attempt.Reads.logs {a : Attempt} {t : DoorTicket} (h : a.Reads t d)
    (result : ScanResultKind) (prior : Option CheckIn) (time : Time) (id : Id)
    (hid : (a.log (some t.id) result prior time).ticketId = some id) :
    d.HasTicket id (a.log (some t.id) result prior time).input := by
  obtain rfl := Option.some.inj hid
  exact h.names

/-- An admission, as the scan that made it reports it. -/
def doorService.Attempt.Reports (a : Attempt) (t : DoorTicket) (b : ScanResult) (d d' : Db) : Prop :=
  b.result = .logged .admitted → ∃ c : CheckIn, d.checkIn t.id = none ∧ d'.checkIn t.id = some c ∧
    b.at_ = some c.checkedInAt ∧ c.checkedInBy = a.ctx.pass.label

theorem turnAway_commits {a : Attempt} {t : DoorTicket} {latest : Option DoorTicket}
    {K : List (Lock Row)} (hr : a.Reads t d) (hp : (d.doorPasses.lookup a.ctx.passId).isSome) :
    (turnAway a t latest).commits R d
      (fun b _ K ws => Aside K d ws [] ∧ b.result ≠ .logged .admitted) d₀ K [] := by
  unfold turnAway
  rcases latest with _ | latest
  · exact commits_insertScan fun _ _ h =>
      ⟨⟨.log h (by simp [Attempt.log]) hp (hr.logs _ _ _), rfl⟩, by
        simp [ScanResult.describe, Attempt.answer]⟩
  dsimp only
  split_ifs
  · exact commits_insertScan fun _ _ h =>
      ⟨⟨.log h (by simp [Attempt.log]) hp (hr.logs _ _ _), rfl⟩, by
        simp [ScanResult.describe, Attempt.answer]⟩
  refine commits_insertScan fun time _ h => ?_
  have hlog : ∀ K, Aside K d [.scan a.item.scanId
      (a.log (some t.id) .alreadyIn latest.checkIn time)] [] := fun K =>
    ⟨.log h (by simp [Attempt.log]) hp (hr.logs _ _ _), rfl⟩
  split
  · exact commits_now fun _ _ => ⟨hlog _, by simp [ScanResult.describe, Attempt.answer]⟩
  · exact ⟨hlog _, by simp [ScanResult.describe, Attempt.answer]⟩

theorem letIn_commits {a : Attempt} {t : DoorTicket} {row : Ticket} {p : DoorPass} {time : Time}
    {K : List (Lock Row)} (h : a.Reads t d) (ht : d.tickets.lookup t.id = some row)
    (status : row.status = .issued) (out : row.checkIn = none)
    (hp : d.doorPasses.lookup a.ctx.passId = some p) (active : p.revokedAt = none)
    (lock : (Row.pass a.ctx.passId, .share) ∈ K) :
    (letIn a t { row with checkIn := some ⟨time, a.ctx.pass.label, a.item.scanId⟩ }).commits R d
      (fun b _ K ws => Aside K d ws [] ∧ a.Reports t b d (writeAll ws d)) d₀ K
      [.ticket t.id { row with checkIn := some ⟨time, a.ctx.pass.label, a.item.scanId⟩ }] := by
  refine commits_append (commits_insertScan fun received _ hs => ⟨?_, fun _ => ?_⟩)
  · obtain ⟨ho, hc⟩ := h.ticket row ht
    refine ⟨.letIn (s := a.log (some t.id) .admitted none received)
      ⟨ht, status, out, hs, rfl, rfl, ⟨p, hp, active, h.pass p hp⟩, List.mem_cons_of_mem _ lock⟩
      ⟨ho.symm, rfl, rfl, rfl⟩ ?_ h.names, rfl⟩
    simp only [checkedInEvent, Attempt.log, hc]
    split_ifs with h₁ h₂ <;> simp_all
  · exact ⟨_, by simp [Db.checkIn, ht, out], by simp [Db.checkIn, Write.apply], rfl, rfl⟩

theorem readAgain_commits {a : Attempt} {t : DoorTicket} (current : Option DoorTicket) {d₁ : Db}
    {K : List (Lock Row)} (hr : a.Reads t d) (hp : (d.doorPasses.lookup a.ctx.passId).isSome) :
    Txn.Tx.commits R d (fun b _ K ws => Aside K d ws [] ∧ a.Reports t b d (writeAll ws d)) (do
      let latest ← match current with
        | some c => pure (some c)
        | none => exec (doorRepository.findTicket (.id t.id))
      turnAway a t latest) d₁ K [] := by
  have lost : ∀ latest d₁, (turnAway a t latest).commits R d
      (fun b _ K ws => Aside K d ws [] ∧ a.Reports t b d (writeAll ws d)) d₁ K [] :=
    fun latest d₁ => Txn.Tx.commits_mono (fun b _ K ws hb => ⟨hb.1, fun h => absurd h hb.2⟩)
      (turnAway_commits hr hp)
  rcases current with _ | latest
  · exact commits_reads fun _ _ _ => lost _ _
  · exact lost (some latest) d₁

theorem scanTx_commits {a : Attempt} {t : DoorTicket} (h : a.Reads t d) :
    (scanTx a t).commits R d
      (fun b _ K ws => Aside K d ws [] ∧ a.Reports t b d (writeAll ws d)) d₀ [] [] := by
  refine commits_lockActivePass (fun _ => trivial) fun p hp active => Txn.Tx.commits_bind ?_
  have won : ∀ row time d₁ K, d.tickets.lookup t.id = some row → row.status = .issued →
      row.checkIn = none → (Row.pass a.ctx.passId, Txn.Mode.share) ∈ K →
      (letIn a t { row with checkIn := some ⟨time, a.ctx.pass.label, a.item.scanId⟩ }).commits R d
        (fun b _ K ws => Aside K d ws [] ∧ a.Reports t b d (writeAll ws d)) d₁ K
        [.ticket t.id { row with checkIn := some ⟨time, a.ctx.pass.label, a.item.scanId⟩ }] :=
    fun row time d₁ K ht hs ho hK => letIn_commits h ht hs ho hp active hK
  have hpass : (d.doorPasses.lookup a.ctx.passId).isSome := Option.isSome_iff_exists.2 ⟨p, hp⟩
  unfold tryCheckIn
  refine commits_checkIn (fun d₁ => ?_) fun row time d₁ ht hs ho => won row time d₁ _ ht hs ho (by simp)
  refine commits_reads fun d₂ _ _ => ?_
  split_ifs
  · refine commits_checkIn (fun d₃ => ?_)
      fun row time d₃ ht hs ho => won row time d₃ _ ht hs ho (by simp)
    exact readAgain_commits none h hpass
  · exact readAgain_commits _ h hpass

end Gate

end EchoAndAura
