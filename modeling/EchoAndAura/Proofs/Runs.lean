import EchoAndAura.Proofs.History
import EchoAndAura.Proofs.Undos

/-!
# Runs of the shop

Whatever the schedule, the record of a run is a history of good conduct: every commit of every
request is an effect on the database it commits to.
-/

namespace EchoAndAura

open Txn (Lock writeAll)

variable {d : Db}

section Requests

/-- Requests of which nothing is asked beyond their effects. -/
def Request.isPlain : Request → Bool
  | .updateTicketType .. | .scans .. | .revokePass .. | .tick .. => true
  | _ => false

theorem Request.plain {q : Request} (h : q.isPlain = true) : q.Plain := by
  constructor <;> intros <;> cases q <;> trivial

theorem tick_safe {q : Request} {t : Time} {τ : List Obs} (hq : q.Plain) :
    (Request.tick t).handler.safe q τ d :=
  Svc.wp_bind (Svc.wp_effect hq
    (fun _ _ => Txn.Tx.commits_mono (fun _ _ _ _ => Aside.of) setClock_commits)
    (fun _ _ _ _ => trivial) fun _ _ _ => Svc.wp_pure fun _ _ => trivial)

theorem plain_safe {q : Request} (h : q.isPlain = true) (hd : Logged d) :
    q.handler.safe q [] d := by
  have hq := Request.plain h
  cases q with
  | updateTicketType =>
    exact Svc.wp_bind (Svc.wp_mono (fun _ _ _ _ => Svc.wp_pure fun _ _ => trivial)
      (fun _ _ _ _ => trivial) (updateTicketType_safe hq))
  | scans => exact scansRoute_safe hq hd
  | revokePass =>
    exact Svc.wp_bind (Svc.wp_mono (fun _ _ _ _ => Svc.wp_pure fun _ _ => trivial)
      (fun _ _ _ _ => trivial) (revokePass_safe hq))
  | tick => exact tick_safe hq
  | _ => cases h

/-- A sale that fails has changed nothing, whatever it answers otherwise. -/
theorem answers_of_calm {β : Type} {q : Request} {s : Svc β} {f : β → Answer}
    (hok : ∀ τ b, q.mayAnswer τ (.ok (f b))) (herr : ∀ τ e, Quiet τ → q.mayAnswer τ (.error e))
    (h : s.calm q [] d) : (f <$> s).answers q [] d :=
  Svc.wp_map (Svc.wp_mono (fun _ _ _ _ _ _ => hok _ _) (fun _ _ _ hτ => herr _ _ hτ) h)

theorem handler_answers (q : Request) (hd : Logged d) : q.handler.answers q [] d := by
  have plain : q.isPlain = true → (∀ τ a, q.mayAnswer τ a) → q.handler.answers q [] d :=
    fun h ha => Svc.wp_mono (fun _ _ _ _ => ha _ _) (fun _ _ _ _ => ha _ _) (plain_safe h hd)
  cases q with
  | createOrder =>
    exact Svc.wp_mono (fun _ _ _ _ => trivial) (fun _ _ _ h => h) (createOrder_wp quiet_nil)
  | submitPayment =>
    exact answers_of_calm (fun _ _ => trivial) (fun _ _ h => h) (submitPayment_calm quiet_nil)
  | expireLapsedHolds =>
    exact Svc.wp_map (Svc.wp_mono (fun _ _ _ h _ _ => h.2) (fun _ _ _ h => h)
      (expireLapsedHolds_wp hd))
  | issueComplimentaryTickets =>
    exact answers_of_calm (fun _ _ => trivial) (fun _ _ h => h)
      (issueComplimentaryTickets_calm quiet_nil)
  | approveOrder =>
    exact answers_of_calm (fun _ _ => trivial) (fun _ _ h => h) (approveOrder_calm quiet_nil)
  | rejectOrder =>
    exact answers_of_calm (fun _ _ => trivial) (fun _ _ h => h) (rejectOrder_calm quiet_nil)
  | cancelTicket =>
    exact answers_of_calm (fun _ _ => trivial) (fun _ _ h => h) (cancelTicket_calm quiet_nil)
  | renameAttendee =>
    exact answers_of_calm (fun _ _ => trivial) (fun _ _ h => h) (renameAttendee_calm quiet_nil)
  | undoScan => exact undoRoute_answers quiet_nil
  | undoCheckIn => exact undoCheckInAction_answers hd quiet_nil
  | revokeAndUndo => exact revokeAndUndo_answers hd
  | _ => exact plain rfl fun _ _ => trivial

end Requests

/-- Every run of the shop is a history of good commits, announcements and answers. -/
theorem shop_history (hd : Logged d) (sched : List Action) :
    Txn.History Good d (run d sched).log (run d sched).db :=
  Txn.History.of_run (I := Logged) (fun _ _ _ _ _ hg => hg.logged)
    (fun q _ hd => Svc.wp_run (handler_answers q hd)) hd sched

end EchoAndAura
