import EchoAndAura.Announcements
import EchoAndAura.Proofs.Admissions
import EchoAndAura.Proofs.Room

/-!
# The room against the database

What the server's messages make of one ticket's row is a small machine (`Heard`), which the room
implements (`deliverAll_heard`).  A ticket's history in the database is check-ins and undos in turn
(`inStep_of_history`).  Told in commit order, the room ends with what the database has unless the
last check-in is not later than the one before it (`room_refines_db`); told in any order, it does
when the last check-in it hears of is settled (`room_converges`).
-/

namespace EchoAndAura

open room

section Machine

/-- What the server's messages have told of a ticket: nothing, a check-in, or an undo of one. -/
inductive Heard
  | nothing
  | in_ (t : Time)
  | out (t : Time)
  deriving DecidableEq, Repr

/-- A check-in with this time is heard. -/
def Heard.hearIn (t : Time) : Heard → Heard
  | .nothing => .in_ t
  | .in_ _ => .in_ t
  | .out a => if t ≤ a then .out a else .in_ t

/-- An undo of the check-in with this time is heard. -/
def Heard.hearUndo (t : Time) : Heard → Heard
  | .nothing => .out t
  | .in_ a => if a = t then .out t else .in_ a
  | .out _ => .out t

/-- The row the room keeps for it. -/
def Heard.Row : Heard → Option StoredCheckIn → Prop
  | .nothing, row => row = none
  | .in_ t, row => ∃ r, row = some r ∧ r.removed = none ∧ r.confirmed = true ∧ r.atMs = t
  | .out t, row => ∃ r, row = some r ∧ r.removed = some .server ∧ r.atMs = t

variable {s : RoomStore} {ticketId : String} {h : Heard} {t : Time}

theorem serverIn_heard (gate : Option String) (hs : h.Row (s.get ticketId)) :
    (h.hearIn t).Row ((serverIn ticketId t gate s).2.get ticketId) := by
  have put : ∀ {a : Heard}, a = .in_ t →
      a.Row ((s.put ⟨ticketId, t, gate.filter (· ≠ ""), none, true, s.nextSeq, none⟩ rfl).get
        ticketId) := by
    rintro _ rfl
    rw [RoomStore.get_put, if_pos rfl]
    exact ⟨_, rfl, rfl, rfl, rfl⟩
  cases h with
  | nothing =>
    have hget : s.get ticketId = none := hs
    simp only [serverIn, hget, standing, Option.filter_none, Option.any_none, Bool.false_eq_true,
      if_false]
    exact put rfl
  | in_ a =>
    obtain ⟨r, hget, hstands, hconf, hat⟩ := hs
    have hst : standing (some r) = some r := standing_eq_some.2 ⟨rfl, hstands⟩
    simp only [serverIn, hget, hst, Option.any_some, hconf, hat, hstands, Int.cast_inj,
      Bool.true_and, decide_eq_true_eq]
    split_ifs with ha hb
    · exact ⟨r, hget, hstands, hconf, by rw [hat, ha]⟩
    · simp at hb
    · exact put rfl
  | out a =>
    obtain ⟨r, hget, hgone, hat⟩ := hs
    have hst : standing (some r) = none := standing_eq_none.2 (by simp [hgone])
    simp only [serverIn, hget, hst, Option.any_none, Option.any_some, hgone, hat, Int.cast_le,
      Bool.false_eq_true, if_false, beq_self_eq_true, Bool.true_and, decide_eq_true_eq, Heard.hearIn]
    split_ifs with ha
    · exact ⟨r, hget, hgone, hat⟩
    · exact put rfl

theorem serverUndo_heard (hs : h.Row (s.get ticketId)) :
    (h.hearUndo t).Row ((serverUndo ticketId t s).2.get ticketId) := by
  have put : ∀ {a : Heard} {gate : Option String}, a = .out t →
      a.Row ((s.put ⟨ticketId, t, gate, none, true, s.nextSeq, some .server⟩ rfl).get
        ticketId) := by
    rintro _ gate rfl
    rw [RoomStore.get_put, if_pos rfl]
    exact ⟨_, rfl, rfl, rfl⟩
  cases h with
  | nothing =>
    have hget : s.get ticketId = none := hs
    simp only [serverUndo, hget, standing, Option.filter_none, Option.any_none, Bool.false_eq_true,
      if_false]
    exact put rfl
  | in_ a =>
    obtain ⟨r, hget, hstands, hconf, hat⟩ := hs
    have hst : standing (some r) = some r := standing_eq_some.2 ⟨rfl, hstands⟩
    simp only [serverUndo, hget, hst, Option.any_some, hconf, hat, if_true, ne_eq, Int.cast_inj,
      decide_eq_true_eq, Heard.hearUndo]
    by_cases ha : a = t
    · rw [if_neg (not_not.2 ha), if_pos ha]
      exact put rfl
    · rw [if_pos ha, if_neg ha]
      exact ⟨r, hget, hstands, hconf, hat⟩
  | out a =>
    obtain ⟨r, hget, hgone, hat⟩ := hs
    have hst : standing (some r) = none := standing_eq_none.2 (by simp [hgone])
    simp only [serverUndo, hget, hst, Option.any_none, Bool.false_eq_true, if_false]
    exact put rfl

/-- The check-in time the room shows of a row like this. -/
def Heard.shown : Heard → Option ℚ
  | .in_ t => some t
  | _ => none

theorem Heard.Row.confirmedAt (hs : h.Row (s.get ticketId)) : s.confirmedAt ticketId = h.shown := by
  unfold RoomStore.confirmedAt
  cases h with
  | nothing =>
    have hget : s.get ticketId = none := hs
    rw [hget]
    rfl
  | in_ a =>
    obtain ⟨r, hget, hstands, hconf, hat⟩ := hs
    have hst : standing (some r) = some r := standing_eq_some.2 ⟨rfl, hstands⟩
    rw [hget, hst, Option.filter_some, if_pos hconf]
    simp [shown, hat]
  | out a =>
    obtain ⟨r, hget, hgone, hat⟩ := hs
    have hst : standing (some r) = none := standing_eq_none.2 (by simp [hgone])
    rw [hget, hst]
    rfl

/-- An announcement is heard. -/
def Heard.hear (h : Heard) : Announcement → Heard
  | .checkedIn _ t _ => h.hearIn t
  | .undo _ t => h.hearUndo t
  | .revoke .. => h

def Heard.hearAll (h : Heard) (as : List Announcement) : Heard := as.foldl Heard.hear h

end Machine

section Delivery

variable {w : Wire} {s : RoomStore} {h : Heard} {id : Id}

/-- The announcement is of a check-in of this ticket or of its undo. -/
def Announcement.Of (id : Id) : Announcement → Prop
  | .checkedIn id' _ _ => id' = id
  | .undo id' _ => id' = id
  | .revoke .. => False

theorem uuid_wire (w : Wire) (id : Id) : uuid? (some (.string (w.uuid id))) = some (w.uuid id) := by
  show (some (w.uuid id)).filter isUuid = _
  rw [Option.filter_some, if_pos (w.valid id)]

theorem deliver_checkedIn (w : Wire) (s : RoomStore) (id : Id) (t : Time) (gate : String) :
    deliver w s (.checkedIn id t gate) = (serverIn (w.uuid id) t (some gate) s).2 := by
  have hfrom : fromServer (Announcement.body w (.checkedIn id t gate)) s =
      (uuid? (some (.string (w.uuid id)))).bind fun i => some (serverIn i t (some gate) s) := rfl
  rw [uuid_wire] at hfrom
  simp only [deliver, take, hfrom, Option.bind_some]

theorem deliver_undo (w : Wire) (s : RoomStore) (id : Id) (t : Time) :
    deliver w s (.undo id t) = (serverUndo (w.uuid id) t s).2 := by
  have hfrom : fromServer (Announcement.body w (.undo id t)) s =
      (uuid? (some (.string (w.uuid id)))).bind fun i => some (serverUndo i t s) := rfl
  rw [uuid_wire] at hfrom
  simp only [deliver, take, hfrom, Option.bind_some]

theorem deliver_heard {a : Announcement} (ha : a.Of id) (hs : h.Row (s.get (w.uuid id))) :
    (h.hear a).Row ((deliver w s a).get (w.uuid id)) := by
  cases a with
  | checkedIn id' t gate =>
    obtain rfl : id' = id := ha
    rw [deliver_checkedIn]
    exact serverIn_heard _ hs
  | undo id' t =>
    obtain rfl : id' = id := ha
    rw [deliver_undo]
    exact serverUndo_heard hs
  | revoke => exact ha.elim

/-- The room implements the machine. -/
theorem deliverAll_heard :
    ∀ {as : List Announcement} {h : Heard} {s : RoomStore}, (∀ a ∈ as, a.Of id) →
      h.Row (s.get (w.uuid id)) → (h.hearAll as).Row ((deliverAll w s as).get (w.uuid id))
  | [], _, _, _, hs => hs
  | a :: as, h, s, ha, hs => by
    have hone := deliver_heard (ha a (by simp)) hs
    exact @deliverAll_heard as _ _ (fun a' ha' => ha a' (by simp [ha'])) hone

end Delivery

section Story

variable {K : List (Txn.Lock Row)} {d₀ d d' : Db} {l : List Entry} {id : Id}

def Announcement.cameIn : Announcement → Option Time
  | .checkedIn _ t _ => some t
  | _ => none

/-- The check-in times of a ticket, in the order of their commits. -/
def comings (id : Id) (l : List Entry) : List Time := (announcements id l).filterMap (·.cameIn)

/-- A commit leaves a ticket's check-in as it is, makes one or takes it back. -/
theorem Good.checkIn_cases {q : Request} {τ : List Obs} (h : Good q τ (.commit K d d')) (id : Id) :
    d'.checkIn id = d.checkIn id ∨ (∃ c, d.checkIn id = none ∧ d'.checkIn id = some c) ∨
      ∃ c, d.checkIn id = some c ∧ d'.checkIn id = none := by
  obtain ⟨undone, hm⟩ := h.gate
  cases hm with
  | other _ _ _ checkIn => exact .inl (checkIn id)
  | @admitted id' t c _ _ row out _ _ _ _ _ checkIn =>
    rw [checkIn]
    split_ifs with hid
    · subst hid
      exact .inr (.inl ⟨c, by rw [Db.checkIn_of_lookup row, out], rfl⟩)
    · exact .inl rfl
  | undone _ _ _ stood _ checkIn =>
    rw [checkIn]
    split_ifs with hid
    · obtain ⟨u, hu, rfl⟩ := List.mem_map.1 hid
      exact .inr (.inr ⟨u.2, stood u hu, rfl⟩)
    · exact .inl rfl

theorem announced_of (id : Id) (d d' : Db) : ∀ a ∈ announced id d d', a.Of id := by
  intro a ha
  unfold announced at ha
  split at ha <;> simp only [List.mem_singleton, List.not_mem_nil] at ha
  all_goals
    subst ha
    exact rfl

theorem announcements_of (id : Id) (l : List Entry) : ∀ a ∈ announcements id l, a.Of id := by
  intro a ha
  obtain ⟨e, -, ha⟩ := List.mem_flatMap.1 ha
  unfold announcedBy at ha
  split at ha
  · exact announced_of id _ _ a ha
  · simp at ha

theorem announcements_concat (id : Id) (l : List Entry) (e : Entry) :
    announcements id (l ++ [e]) = announcements id l ++ announcedBy id e.obs := by
  simp [announcements]

theorem Heard.hearAll_append (h : Heard) (as as' : List Announcement) :
    h.hearAll (as ++ as') = (h.hearAll as).hearAll as' := List.foldl_append

/-- What is heard once the last of these check-ins is undone. -/
def Heard.after (ts : List Time) : Heard :=
  match ts.getLast? with
  | none => .nothing
  | some t => .out t

theorem Heard.after_concat (ts : List Time) (t : Time) : Heard.after (ts ++ [t]) = .out t := by
  simp [after]

theorem Heard.hearUndo_hearIn (ts : List Time) (t : Time) :
    ((Heard.after ts).hearIn t).hearUndo t = .out t := by
  unfold after
  split
  · simp [hearIn, hearUndo]
  · unfold hearIn
    simp only
    split_ifs <;> simp [hearUndo]

/-- The machine, fed the announcements in commit order, has the last check-in but for its time; and
every undo is of an earlier one. -/
structure InStep (id : Id) (l : List Entry) (d : Db) : Prop where
  out : d.checkIn id = none →
    Heard.nothing.hearAll (announcements id l) = Heard.after (comings id l) ∧
      ∀ t, .undo id t ∈ announcements id l → t ∈ comings id l
  inside : ∀ c, d.checkIn id = some c → ∃ ts, comings id l = ts ++ [c.checkedInAt] ∧
    Heard.nothing.hearAll (announcements id l) = (Heard.after ts).hearIn c.checkedInAt ∧
      ∀ t, .undo id t ∈ announcements id l → t ∈ ts

theorem InStep.silent (h : InStep id l d) {e : Entry} (he : announcedBy id e.obs = [])
    (hd : d'.checkIn id = d.checkIn id) : InStep id (l ++ [e]) d' := by
  have hl : announcements id (l ++ [e]) = announcements id l := by
    rw [announcements_concat, he, List.append_nil]
  have hc : comings id (l ++ [e]) = comings id l := by rw [comings, hl, comings]
  refine ⟨fun hout => ?_, fun c hin => ?_⟩
  · rw [hl, hc]
    exact h.out (hd ▸ hout)
  · rw [hl, hc]
    exact h.inside c (hd ▸ hin)

theorem InStep.commit (h : InStep id l d) {q : Request} {τ : List Obs} (pid : Nat)
    (hg : Good q τ (.commit K d d')) : InStep id (l ++ [⟨pid, q, .commit K d d'⟩]) d' := by
  have hl := announcements_concat id l ⟨pid, q, .commit K d d'⟩
  rcases hg.checkIn_cases id with heq | ⟨c, hout, hin⟩ | ⟨c, hin, hout⟩
  · refine h.silent ?_ heq
    simp only [announcedBy, announced, heq]
    cases d.checkIn id <;> rfl
  · have ha : announced id d d' = [.checkedIn id c.checkedInAt c.checkedInBy] := by
      simp only [announced, hout, hin]
    obtain ⟨hheard, hundos⟩ := h.out hout
    simp only [announcedBy, ha] at hl
    refine ⟨fun hn => by simp [hin] at hn, fun c' hc' => ?_⟩
    obtain rfl := Option.some.inj (hin.symm.trans hc')
    refine ⟨comings id l, ?_, ?_, ?_⟩
    · simp [comings, hl, Announcement.cameIn]
    · rw [hl, Heard.hearAll_append, hheard]
      rfl
    · intro t ht
      exact hundos t (by simpa [hl] using ht)
  · have ha : announced id d d' = [.undo id c.checkedInAt] := by
      simp only [announced, hout, hin]
    simp only [announcedBy, ha] at hl
    refine ⟨fun _ => ?_, fun c' hc' => by simp [hout] at hc'⟩
    obtain ⟨ts, hts, hheard, hundos⟩ := h.inside c hin
    have hcame : comings id (l ++ [⟨pid, q, .commit K d d'⟩]) = ts ++ [c.checkedInAt] := by
      rw [← hts]
      simp [comings, hl, Announcement.cameIn]
    refine ⟨?_, fun t ht => ?_⟩
    · rw [hcame, Heard.after_concat, hl, Heard.hearAll_append, hheard]
      exact Heard.hearUndo_hearIn ts _
    · rw [hcame]
      rw [hl, List.mem_append, List.mem_singleton] at ht
      rcases ht with ht | ht
      · exact List.mem_append_left _ (hundos t ht)
      · cases ht
        simp

/-- A ticket's history in the database is check-ins and undos in turn. -/
theorem inStep_of_history (h₀ : d₀.checkIn id = none) (h : Txn.History Good d₀ l d) :
    InStep id l d := by
  induction h with
  | nil => exact ⟨fun _ => ⟨rfl, fun _ ht => by simp [announcements] at ht⟩,
      fun c hc => by simp [h₀] at hc⟩
  | read _ _ _ _ _ ih => exact ih.silent rfl rfl
  | commit _ hg ih => exact ih.commit _ hg
  | say _ _ ih => exact ih.silent rfl rfl
  | done _ _ ih => exact ih.silent rfl rfl

end Story

section InOrder

variable {d : Db} {id : Id}

/-- Told in commit order, the room has what the database has, unless the ticket is in by a check-in
that is not later than the one before it. -/
theorem room_refines_db (hd : Logged d) (h₀ : d.checkIn id = none) (w : Wire) (s : RoomStore)
    (hs : s.get (w.uuid id) = none) (sched : List Action) :
    Agrees w id (deliverAll w s (announcements id (run d sched).log)) (run d sched).db ↔
      (((run d sched).db.checkIn id).isSome →
        ∀ ts p t, comings id (run d sched).log = ts ++ [p, t] → p < t) := by
  have hstep := inStep_of_history h₀ (shop_history hd sched)
  have hrow : Heard.nothing.Row (s.get (w.uuid id)) := hs
  have hshown := (deliverAll_heard (announcements_of id (run d sched).log) hrow).confirmedAt
  rw [Agrees, hshown]
  rcases hc : (run d sched).db.checkIn id with _ | c
  · rw [(hstep.out hc).1]
    unfold Heard.after
    split <;> simp [Heard.shown]
  · obtain ⟨ts, hts, hheard, -⟩ := hstep.inside c hc
    rw [hheard, hts]
    simp only [Option.map_some, Option.isSome_some, forall_const]
    rcases List.eq_nil_or_concat ts with rfl | ⟨ts', p, rfl⟩
    · simp only [Heard.after, List.getLast?_nil, Heard.hearIn, Heard.shown, List.nil_append, true_iff]
      intro ts p t heq
      have := congrArg List.length heq
      simp at this
    · rw [List.concat_eq_append, Heard.after_concat]
      unfold Heard.hearIn
      simp only
      split_ifs with hle
      · simp only [Heard.shown, reduceCtorEq, false_iff, not_forall]
        exact ⟨ts', p, c.checkedInAt, by simp, not_lt.2 hle⟩
      · simp only [Heard.shown, true_iff]
        intro ts'' p' t' heq
        have hlast : ts' ++ [p, c.checkedInAt] = ts'' ++ [p', t'] := by simpa using heq
        obtain ⟨-, hpt⟩ := List.append_inj' hlast rfl
        simp only [List.cons.injEq, and_true] at hpt
        obtain ⟨rfl, rfl⟩ := hpt
        exact not_le.1 hle

/-- Every ticket under the one uuid there is here. -/
def oneUuid : Wire where
  uuid _ := "11111111-1111-4111-8111-111111111111"
  iso _ := ""
  valid _ := by decide

/-- Let in at two, taken back, and let in again an hour later. -/
def laterReadmission : List Action :=
  alone 0 (scanOf 7 1) 30 ++ alone 1 (.undoScan "K7QM4XPDR2TW" 7 .misTap) 30 ++
    alone 2 (.tick (3 * hourMs)) 5 ++ alone 3 (scanOf 8 1) 30

theorem room_refines_db_laterReadmission :
    comings 1 (run openingNight laterReadmission).log = [2 * hourMs, 3 * hourMs] ∧
    (Agrees oneUuid 1 (deliverAll oneUuid (.empty "epoch-1" [])
        (announcements 1 (run openingNight laterReadmission).log))
        (run openingNight laterReadmission).db ↔
      (((run openingNight laterReadmission).db.checkIn 1).isSome →
        ∀ ts p t, comings 1 (run openingNight laterReadmission).log = ts ++ [p, t] → p < t)) :=
  ⟨by decide +kernel, room_refines_db openingNight_gated.logged rfl oneUuid _ rfl laterReadmission⟩

/-- Let in at two, taken back, and then the other phone syncs that it let them in at half past
one. -/
def backdatedSync : List Action :=
  alone 0 (scanOf 7 1) 30 ++ alone 1 (.undoScan "K7QM4XPDR2TW" 7 .misTap) 30 ++
    alone 2 (.scans "K7QM4XPDR2TW" [{
      scanId := 8, input := none, ticketId := some 1, phoneLast3 := none, method := .qr
      scannedAt := some (90 * minuteMs)
      offline := some { verdict := .admitted, supersedesScanId := none } }]) 30

/-- The database has them in, the room has them undone. -/
theorem room_forgets_backdated : ¬ ∀ (d : Db) (id : Id) (w : Wire) (s : RoomStore)
    (sched : List Action), d.Gated → d.checkIn id = none → s.get (w.uuid id) = none →
      Agrees w id (deliverAll w s (announcements id (run d sched).log)) (run d sched).db := by
  intro h
  have hrun := h openingNight 1 oneUuid (.empty "epoch-1" []) backdatedSync openingNight_gated rfl rfl
  unfold Agrees at hrun
  exact absurd hrun (by decide +kernel)

end InOrder

section AnyOrder

variable {d : Db} {id : Id} {ds : List Announcement} {t a : Time}

theorem Heard.hearAll_out : ∀ {ds : List Announcement} {a : Time},
    (∀ m ∈ ds, m.cameIn = none) → ∃ b, (Heard.out a).hearAll ds = .out b
  | [], a, _ => ⟨a, rfl⟩
  | m :: ds, a, h => by
    have hds : ∀ m' ∈ ds, m'.cameIn = none := fun m' hm' => h m' (by simp [hm'])
    cases m with
    | checkedIn i t' gate => cases h (.checkedIn i t' gate) (by simp)
    | undo i t' =>
      show ∃ b, (Heard.out t').hearAll ds = .out b
      exact hearAll_out hds
    | revoke p t' =>
      show ∃ b, (Heard.out a).hearAll ds = .out b
      exact hearAll_out hds

theorem Heard.hearAll_in : ∀ {ds : List Announcement}, (∀ m ∈ ds, m.cameIn = none) →
    (∀ m ∈ ds, m.Of id) →
      if .undo id t ∈ ds then ∃ b, (Heard.in_ t).hearAll ds = .out b
      else (Heard.in_ t).hearAll ds = .in_ t
  | [], _, _ => by simp [hearAll]
  | m :: ds, h, ho => by
    have hds : ∀ m' ∈ ds, m'.cameIn = none := fun m' hm' => h m' (by simp [hm'])
    have hods : ∀ m' ∈ ds, m'.Of id := fun m' hm' => ho m' (by simp [hm'])
    cases m with
    | checkedIn i t' gate => cases h (.checkedIn i t' gate) (by simp)
    | revoke p t' => exact False.elim (ho (.revoke p t') (by simp))
    | undo id' t' =>
      obtain rfl : id = id' := (ho (.undo id' t') (by simp) : id' = id).symm
      by_cases ht : t = t'
      · subst ht
        rw [if_pos (by simp)]
        show ∃ b, ((Heard.in_ t).hearUndo t).hearAll ds = .out b
        rw [hearUndo, if_pos rfl]
        exact hearAll_out hds
      · have hmem : .undo id t ∈ Announcement.undo id t' :: ds ↔ .undo id t ∈ ds := by simp [ht]
        have hone : (Heard.in_ t).hearAll (.undo id t' :: ds) = (Heard.in_ t).hearAll ds := by
          show ((Heard.in_ t).hearUndo t').hearAll ds = _
          rw [hearUndo, if_neg ht]
        simp only [hmem, hone]
        exact hearAll_in hds hods

/-- Where a check-in is told at all, there is a last one. -/
theorem exists_lastIn : ∀ {ds : List Announcement} {m : Announcement}, m ∈ ds → m.cameIn ≠ none →
    ∃ ds₁ id t gate ds₂, ds = ds₁ ++ .checkedIn id t gate :: ds₂ ∧ ∀ m ∈ ds₂, m.cameIn = none
  | m' :: ds, m, hm, hin => by
    by_cases hds : ∃ m ∈ ds, m.cameIn ≠ none
    · obtain ⟨m, hm, hin⟩ := hds
      obtain ⟨ds₁, i, t, gate, ds₂, rfl, hlast⟩ := exists_lastIn hm hin
      exact ⟨m' :: ds₁, i, t, gate, ds₂, rfl, hlast⟩
    · have hnone : ∀ m ∈ ds, m.cameIn = none := fun m hm => by
        by_contra hne
        exact hds ⟨m, hm, hne⟩
      rcases List.mem_cons.1 hm with rfl | hm
      · cases m with
        | checkedIn id t gate => exact ⟨[], id, t, gate, ds, rfl, hnone⟩
        | undo => simp [Announcement.cameIn] at hin
        | revoke => simp [Announcement.cameIn] at hin
      · exact absurd (hnone m hm) hin

/-- Without a check-in told, none is shown. -/
theorem Heard.hearAll_nothing : ∀ {ds : List Announcement}, (∀ m ∈ ds, m.cameIn = none) →
    (Heard.nothing.hearAll ds).shown = none
  | [], _ => rfl
  | m :: ds, h => by
    have hds : ∀ m' ∈ ds, m'.cameIn = none := fun m' hm' => h m' (by simp [hm'])
    cases m with
    | checkedIn i t' gate => cases h (.checkedIn i t' gate) (by simp)
    | undo i t' =>
      obtain ⟨b, hb⟩ := hearAll_out (a := t') hds
      show ((Heard.out t').hearAll ds).shown = none
      rw [hb]
      rfl
    | revoke p t' =>
      show (Heard.nothing.hearAll ds).shown = none
      exact hearAll_nothing hds

/-- No tombstone as late as `t`. -/
def Heard.Before (t : Time) : Heard → Prop
  | .out a => a < t
  | _ => True

theorem Heard.Before.hearAll : ∀ {ds : List Announcement} {h : Heard}, h.Before t →
    (∀ m ∈ ds, m.Of id) → (∀ a, .undo id a ∈ ds → a < t) → (h.hearAll ds).Before t
  | [], _, hb, _, _ => hb
  | m :: ds, h, hb, ho, hu => by
    have hods : ∀ m' ∈ ds, m'.Of id := fun m' hm' => ho m' (by simp [hm'])
    have huds : ∀ a, .undo id a ∈ ds → a < t := fun a ha => hu a (by simp [ha])
    refine @Heard.Before.hearAll ds (h.hear m) ?_ hods huds
    cases m with
    | revoke p t' => exact False.elim (ho (.revoke p t') (by simp))
    | checkedIn id' a gate =>
      cases h with
      | nothing => trivial
      | in_ => trivial
      | out b =>
        show (Heard.hearIn a (.out b)).Before t
        rw [hearIn]
        split_ifs
        · exact hb
        · trivial
    | undo id' a =>
      obtain rfl : id' = id := ho (.undo id' a) (by simp)
      have ha : a < t := hu a (by simp)
      cases h with
      | nothing => exact ha
      | in_ b =>
        show (Heard.hearUndo a (.in_ b)).Before t
        rw [hearUndo]
        split_ifs
        · exact ha
        · trivial
      | out b => exact ha

/-- The room has a server's tombstone of the ticket that is no older than `t`. -/
def RoomStore.undoneSince (s : RoomStore) (ticketId : String) (t : Time) : Bool :=
  (s.get ticketId).any fun r => r.removed == some .server && decide ((t : ℚ) ≤ r.atMs)

def Heard.undoneSince (t : Time) : Heard → Bool
  | .out a => t ≤ a
  | _ => false

theorem Heard.Before.not_undoneSince {h : Heard} (hb : h.Before t) : ¬h.undoneSince t = true := by
  cases h with
  | out a => simpa [Heard.undoneSince, Heard.Before] using hb
  | nothing | in_ => simp [Heard.undoneSince]

theorem Heard.Row.undoneSince {s : RoomStore} {ticketId : String} {h : Heard}
    (hs : h.Row (s.get ticketId)) : s.undoneSince ticketId t = h.undoneSince t := by
  unfold RoomStore.undoneSince
  cases h with
  | nothing =>
    have hget : s.get ticketId = none := hs
    rw [hget]
    rfl
  | in_ a =>
    obtain ⟨r, hget, hstands, -, -⟩ := hs
    simp [hget, hstands, Heard.undoneSince]
  | out a =>
    obtain ⟨r, hget, hgone, hat⟩ := hs
    simp [hget, hgone, hat, Heard.undoneSince]

/-- The last check-in told is the one that stands; and when none stands, its undo is told after it
or the room, when it hears of it, knows of an undo no older. -/
def SettledLast (w : Wire) (id : Id) (s : RoomStore) (ds : List Announcement) (d : Db) : Prop :=
  ∀ ds₁ t gate ds₂, ds = ds₁ ++ .checkedIn id t gate :: ds₂ → (∀ m ∈ ds₂, m.cameIn = none) →
    match d.checkIn id with
    | some c => t = c.checkedInAt
    | none => .undo id t ∈ ds₂ ∨ (deliverAll w s ds₁).undoneSince (w.uuid id) t = true

/-- After the last check-in told, only its own undo counts. -/
theorem Heard.hearAll_last {h : Heard} {ds₁ ds₂ : List Announcement} {gate : String}
    (ho : ∀ m ∈ ds₂, m.Of id) (hlast : ∀ m ∈ ds₂, m.cameIn = none) :
    (h.hearAll (ds₁ ++ .checkedIn id t gate :: ds₂)).shown =
      if .undo id t ∈ ds₂ ∨ (h.hearAll ds₁).undoneSince t = true then none else some (t : ℚ) := by
  have here : ((Heard.in_ t).hearAll ds₂).shown =
      if .undo id t ∈ ds₂ then none else some (t : ℚ) := by
    have hin := hearAll_in (t := t) hlast ho
    split_ifs at hin ⊢ with hmem
    · obtain ⟨b, hb⟩ := hin
      rw [hb]
      rfl
    · rw [hin]
      rfl
  rw [hearAll_append]
  show ((hearIn t (h.hearAll ds₁)).hearAll ds₂).shown = _
  cases h.hearAll ds₁ with
  | nothing => simpa [hearIn, undoneSince] using here
  | in_ a => simpa [hearIn, undoneSince] using here
  | out a =>
    by_cases hle : t ≤ a
    · obtain ⟨b, hb⟩ := hearAll_out (a := a) hlast
      rw [hearIn, if_pos hle, hb]
      simp [undoneSince, hle, shown]
    · rw [hearIn, if_neg hle, here]
      simp [undoneSince, hle]

/-- There is one last check-in told. -/
theorem lastIn_unique {ds₁ ds₂ ds₁' ds₂' : List Announcement} {id' : Id} {t' : Time}
    {gate gate' : String} (hlast : ∀ m ∈ ds₂, m.cameIn = none) (hlast' : ∀ m ∈ ds₂', m.cameIn = none)
    (h : ds₁ ++ .checkedIn id t gate :: ds₂ = ds₁' ++ .checkedIn id' t' gate' :: ds₂') :
    ds₁ = ds₁' ∧ t = t' ∧ ds₂ = ds₂' := by
  rcases List.append_eq_append_iff.1 h with ⟨_ | ⟨m, l⟩, h₁, h₂⟩ | ⟨_ | ⟨m, l⟩, h₁, h₂⟩
  · simp_all
  · simp only [List.cons_append, List.cons.injEq] at h₂
    obtain ⟨-, rfl⟩ := h₂
    cases hlast (.checkedIn id' t' gate') (by simp)
  · simp_all
  · simp only [List.cons_append, List.cons.injEq] at h₂
    obtain ⟨-, rfl⟩ := h₂
    cases hlast' (.checkedIn id t gate) (by simp)

/-- Told in any order, each thing once or more, the room ends with what the database has if and
only if the last check-in it is told of is settled. -/
theorem room_converges (hd : Logged d) (h₀ : d.checkIn id = none) (w : Wire) (s : RoomStore)
    (hs : s.get (w.uuid id) = none) (sched : List Action)
    (hmono : (comings id (run d sched).log).Pairwise (· < ·)) (ds : List Announcement)
    (hds : ∀ m, m ∈ ds ↔ m ∈ announcements id (run d sched).log) :
    Agrees w id (deliverAll w s ds) (run d sched).db ↔
      SettledLast w id s ds (run d sched).db := by
  have hstep := inStep_of_history h₀ (shop_history hd sched)
  have hrow : Heard.nothing.Row (s.get (w.uuid id)) := hs
  have ho : ∀ m ∈ ds, m.Of id := fun m hm => announcements_of id _ m ((hds m).1 hm)
  have hshown := (deliverAll_heard ho hrow).confirmedAt
  rw [Agrees, hshown]
  -- A check-in the database has was announced, so one is told.
  by_cases hnone : ∀ m ∈ ds, m.cameIn = none
  · have hset : SettledLast w id s ds (run d sched).db := by
      rintro ds₁ t gate ds₂ rfl -
      cases hnone (.checkedIn id t gate) (by simp)
    have hout : (run d sched).db.checkIn id = none := by
      rcases hc : (run d sched).db.checkIn id with _ | c
      · rfl
      · obtain ⟨ts, hts, -⟩ := hstep.inside c hc
        have hmem : c.checkedInAt ∈ comings id (run d sched).log := by simp [hts]
        obtain ⟨m, hm, hin⟩ := List.mem_filterMap.1 hmem
        rw [hnone m ((hds m).2 hm)] at hin
        cases hin
    rw [Heard.hearAll_nothing hnone, hout]
    simpa using hset
  · simp only [not_forall] at hnone
    obtain ⟨m, hm, hin⟩ := hnone
    obtain ⟨ds₁, id', t, gate, ds₂, rfl, hlast⟩ := exists_lastIn hm hin
    obtain rfl : id = id' := (ho (.checkedIn id' t gate) (by simp) : id' = id).symm
    have ho₁ : ∀ m ∈ ds₁, m.Of id := fun m hm => ho m (by simp [hm])
    have hset : SettledLast w id s (ds₁ ++ .checkedIn id t gate :: ds₂) (run d sched).db ↔
        match (run d sched).db.checkIn id with
        | some c => t = c.checkedInAt
        | none => .undo id t ∈ ds₂ ∨ (deliverAll w s ds₁).undoneSince (w.uuid id) t = true := by
      refine ⟨fun h => h ds₁ t gate ds₂ rfl hlast, fun h ds₁' t' gate' ds₂' heq hlast' => ?_⟩
      obtain ⟨rfl, rfl, rfl⟩ := lastIn_unique hlast hlast' heq
      exact h
    have ho₂ : ∀ m ∈ ds₂, m.Of id := fun m hm => ho m (by simp [hm])
    rw [hset, Heard.hearAll_last ho₂ hlast, (deliverAll_heard ho₁ hrow).undoneSince]
    rcases hc : (run d sched).db.checkIn id with _ | c
    · simp only [Option.map_none]
      split_ifs with hundone <;> simp [hundone]
    · obtain ⟨ts, hts, -, hundos⟩ := hstep.inside c hc
      have hbefore : ∀ a ∈ ts, a < c.checkedInAt := by
        rw [hts, List.pairwise_append] at hmono
        exact fun a ha => hmono.2.2 a ha _ (by simp)
      have hlate : ∀ a, .undo id a ∈ ds₁ ++ .checkedIn id t gate :: ds₂ → a < c.checkedInAt :=
        fun a ha => hbefore a (hundos a ((hds _).1 ha))
      have hb : (Heard.nothing.hearAll ds₁).Before c.checkedInAt :=
        Heard.Before.hearAll (h := .nothing) trivial ho₁ fun a ha => hlate a (by simp [ha])
      split_ifs with hundone
      · simp only [Option.map_some, reduceCtorEq, false_iff]
        rintro rfl
        rcases hundone with hmem | hsince
        · exact lt_irrefl _ (hlate _ (by simp [hmem]))
        · exact hb.not_undoneSince hsince
      · simp

/-- What the later readmission announces. -/
def readmissionTold : List Announcement :=
  [.checkedIn 1 (2 * hourMs) "Gate A", .undo 1 (2 * hourMs), .checkedIn 1 (3 * hourMs) "Gate A"]

theorem laterReadmission_announcements :
    announcements 1 (run openingNight laterReadmission).log = readmissionTold := by decide +kernel

theorem laterReadmission_pairwise :
    (comings 1 (run openingNight laterReadmission).log).Pairwise (· < ·) := by
  rw [comings, laterReadmission_announcements]
  decide

/-- The first check-in is told late and twice, the second one again after it. -/
def toldTwice : List Announcement :=
  [.undo 1 (2 * hourMs), .checkedIn 1 (2 * hourMs) "Gate A", .checkedIn 1 (3 * hourMs) "Gate A",
    .checkedIn 1 (2 * hourMs) "Gate A", .checkedIn 1 (3 * hourMs) "Gate A"]

theorem room_converges_toldTwice :
    Agrees oneUuid 1 (deliverAll oneUuid (.empty "epoch-1" []) toldTwice)
        (run openingNight laterReadmission).db ↔
      SettledLast oneUuid 1 (.empty "epoch-1" []) toldTwice (run openingNight laterReadmission).db :=
  room_converges openingNight_gated.logged rfl oneUuid _ rfl laterReadmission
    laterReadmission_pairwise toldTwice (by
      intro m
      rw [laterReadmission_announcements]
      simp only [toldTwice, readmissionTold, List.mem_cons, List.not_mem_nil]
      tauto)

/-- The second check-in is told first, then the first one and its undo: the room ends with nobody
in. -/
theorem room_diverges_late : ¬ ∀ (d : Db) (id : Id) (w : Wire) (s : RoomStore)
    (sched : List Action) (ds : List Announcement), d.Gated → d.checkIn id = none →
      s.get (w.uuid id) = none → (comings id (run d sched).log).Pairwise (· < ·) →
      (∀ m, m ∈ ds ↔ m ∈ announcements id (run d sched).log) →
      Agrees w id (deliverAll w s ds) (run d sched).db := by
  intro h
  have hrun := h openingNight 1 oneUuid (.empty "epoch-1" []) laterReadmission
    [.checkedIn 1 (3 * hourMs) "Gate A", .checkedIn 1 (2 * hourMs) "Gate A", .undo 1 (2 * hourMs)]
    openingNight_gated rfl rfl laterReadmission_pairwise (by
      intro m
      rw [laterReadmission_announcements]
      simp only [readmissionTold, List.mem_cons, List.not_mem_nil]
      tauto)
  unfold Agrees at hrun
  exact absurd hrun (by decide +kernel)

end AnyOrder

end EchoAndAura
