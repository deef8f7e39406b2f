import EchoAndAura.Effects
import EchoAndAura.Tellings

/-!
# Moves

What the shop has to tell the world: the buyer is written to when an order is made, issued,
rejected or given up, and the relay hears of each check-in and of each undo.
-/

namespace EchoAndAura

def Db.status (d : Db) (orderId : Id) : Option OrderStatus :=
  (d.orders.lookup orderId).map (·.status)

inductive Move
  | order (orderId : Id) (status : OrderStatus)
  | checkedIn (ticketId : Id)
  | undone (ticketId : Id)
  deriving DecidableEq, Repr

/-- The statuses a mail goes out for. -/
def mailedStatuses : List OrderStatus := [.pendingPayment, .issued, .rejected, .expired]

def Move.made (d d' : Db) : Move → Prop
  | .order id s => s ∈ mailedStatuses ∧ d.status id ≠ some s ∧ d'.status id = some s
  | .checkedIn id => d.checkIn id = none ∧ (d'.checkIn id).isSome
  | .undone id => (d.checkIn id).isSome ∧ d'.checkIn id = none

/-- The moves that must be told: an undo at the door is told with the time it read beside the
ticket's type, order and event, so where the event is missing it is not. -/
def Move.due (d d' : Db) : Move → Prop
  | .undone id => (Move.undone id).made d d' ∧
      ∃ t, d.tickets.lookup id = some t ∧ (d.events.lookup t.eventId).isSome
  | m => m.made d d'

/-- The move an announcement or an enqueued mail is of. -/
def Say.move : Say → Option Move
  | .onOrderCreated id => some (.order id .pendingPayment)
  | .onOrderExpired id => some (.order id .expired)
  | .onTicketsIssued id => some (.order id .issued)
  | .onOrderRejected id => some (.order id .rejected)
  | .announce _ (.checkedIn id _ _) => some (.checkedIn id)
  | .announce _ (.undo id _) => some (.undone id)
  | .announce _ (.revoke _ _) => none

def telling : Txn.Telling Db Say Move where
  makes m d d' := m.made d d'
  due m d d' := m.due d d'
  about o := o.move
  due_makes {m d d'} h := by
    cases m with
    | undone => exact h.1
    | order | checkedIn => exact h
  idle m d h := by
    cases m with
    | order => exact h.2.1 h.2.2
    | checkedIn =>
      obtain ⟨hout, hin⟩ := h
      rw [hout] at hin
      cases hin
    | undone =>
      obtain ⟨hin, hout⟩ := h
      rw [hout] at hin
      cases hin

end EchoAndAura
