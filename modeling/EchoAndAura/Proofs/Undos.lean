import EchoAndAura.Proofs.Scans

/-!
# Undos among others

An undo reads the ticket without a lock and then clears it only if it is still in by the scan it
names.  A scan in the log checks nobody in again (`Grows.checkIn`), so what was read is the very
check-in that is cleared.  A revocation holds its pass, or finds it revoked: in between nobody is
let in with it, so every check-in by it is on its list.
-/

namespace EchoAndAura

open Txn (Lock writeAll Rely)

variable {α : Type} {q : Request} {τ : List Obs} {d d' : Db}

open doorService

section Transactions

/-- What an undo of one check-in commits, and the time it goes on to announce. -/
def UndoneOne (ticketId scanId : Id) (at_ : Option Time) (undone : List (Id × CheckIn))
    (d d' : Db) : Prop :=
  ∃ c : CheckIn, undone = [(ticketId, c)] ∧ c.checkedInScanId = scanId ∧ TakesBack undone d d' ∧
    (∀ t, at_ = some t → t = c.checkedInAt) ∧ d'.orders = d.orders

theorem checkIn_read {ticketId : Id} {t : DoorTicket} {c : CheckIn} {s : DoorScan} {d₀ : Db}
    (ht : d₀.doorTicket ticketId = some t) (hs : d₀.doorScans.lookup c.checkedInScanId = some s)
    (hg : Grows d₀ d) (hc : d.checkIn ticketId = some c) : t.checkIn = some c := by
  obtain ⟨-, r, hr, -, -, hrc⟩ := doorTicket_row ht
  rw [← hrc, ← Db.checkIn_of_lookup hr]
  exact hg.checkIn hc hs

theorem undoOwnAdmitTx_commits {passId ticketId scanId : Id} {label : String}
    {reason : DoorUndoReason} {s : DoorScan} (hs : d.doorScans.lookup scanId = some s) :
    (undoOwnAdmitTx passId label ticketId scanId reason).commits (Rely Good) d'
      (fun at_ _ K ws => ∃ undone, Effect K d' ws undone ∧
        UndoneOne ticketId scanId at_ undone d' (writeAll ws d')) d [] [] := by
  refine commits_lockActivePass (fun _ => trivial) fun p _ _ => commits_reads fun d₀ h₀ h₁ => ?_
  refine commits_undoCheckIn (fun _ _ _ _ => trivial) fun t c ht hc hscan => commits_append ?_
  have audit : (undoneAtDoorEvent { t with checkIn := none } label reason).Is t.orderId
      .ticketCheckInUndone none none := ⟨rfl, rfl, rfl, rfl⟩
  refine ⟨_, .undo ht hc audit (.inl ⟨reason, rfl⟩), c, rfl, hscan, .one ht hc audit rfl,
    fun time htime => ?_, rfl⟩
  simp only [Option.map_eq_some_iff, Option.bind_eq_some_iff] at htime
  obtain ⟨c', ⟨before, hb, hc'⟩, rfl⟩ := htime
  have := checkIn_read hb (hscan ▸ (grows_of_rely h₀).scan hs) (grows_of_rely h₁)
    (Db.checkIn_eq_some.2 ⟨t, ht, hc⟩)
  rw [Option.some.inj (hc'.symm.trans this)]

theorem undoCheckInAsAdminTx_commits {ticketId orderId scanId : Id} {reason actor : String}
    {s : DoorScan} (hs : d.doorScans.lookup scanId = some s) :
    (undoCheckInAsAdminTx ticketId orderId scanId reason actor).commits (Rely Good) d'
      (fun out _ K ws => ∃ undone, Effect K d' ws undone ∧
        UndoneOne ticketId scanId out.at_ undone d' (writeAll ws d')) d [] [] := by
  refine commits_reads fun d₀ h₀ h₁ => ?_
  split
  swap
  · trivial
  rename_i before hb
  dsimp only
  split
  · exact commits_throw _ _
  refine commits_undoCheckIn (fun _ _ _ _ => trivial) fun t c ht hc hscan => commits_append ?_
  have hbefore : before.checkIn = some c :=
    checkIn_read hb (hscan ▸ (grows_of_rely h₀).scan hs) (grows_of_rely h₁)
      (Db.checkIn_eq_some.2 ⟨t, ht, hc⟩)
  have audit : (undoneByAdminEvent { t with checkIn := none } before.checkIn reason actor).Is
      t.orderId .ticketCheckInUndone none none := ⟨rfl, rfl, rfl, rfl⟩
  have note : (undoneByAdminEvent { t with checkIn := none } before.checkIn reason actor).note =
      .undoneByAdmin t.code (some (c.checkedInAt, c.checkedInBy)) reason := by
    rw [hbefore]
    rfl
  refine ⟨_, .undo ht hc audit (.inr ⟨reason, note⟩), c, rfl, hscan,
    .one ht hc audit (by rw [note]; exact ⟨rfl, rfl⟩), fun time htime => ?_, rfl⟩
  rw [hbefore] at htime
  exact (Option.some.inj htime).symm

end Transactions

section Revocation

/-- A check-in as the revocation listed it. -/
structure PassCheckIn.Of (t : PassCheckIn) (passId : Id) (d : Db) : Prop where
  row : ∃ r c, d.tickets.lookup t.id = some r ∧ r.orderId = t.orderId ∧ r.code = t.code ∧
    r.checkIn = some c ∧ c.checkedInScanId = t.checkedInScanId ∧ c.checkedInAt = t.checkedInAt
  scan : ∃ s, d.doorScans.lookup t.checkedInScanId = some s ∧ s.passId = passId

theorem passCheckIn_eq_some {passId : Id} {e : Sigma fun _ : Id => Ticket} {t : PassCheckIn}
    (h : d.passCheckIn passId e = some t) :
    t.id = e.1 ∧ (d.tickets.lookup e.1 = some e.2 → t.Of passId d) := by
  unfold Db.passCheckIn at h
  split at h
  · cases h
  rename_i c hc
  split_ifs at h with hs
  cases h
  obtain ⟨s, hs, hp⟩ := (Option.any_eq_true _ _).1 hs
  exact ⟨rfl, fun he => ⟨⟨e.2, c, he, rfl, rfl, hc, rfl, rfl⟩, s, hs, by simpa using hp⟩⟩

theorem listed_of {passId : Id} {t : PassCheckIn}
    (h : t ∈ d.tickets.entries.filterMap (d.passCheckIn passId)) : t.Of passId d := by
  obtain ⟨e, he, ht⟩ := List.mem_filterMap.1 h
  exact (passCheckIn_eq_some ht).2 (AList.mem_lookup_iff.2 he)

theorem listed_nodup (d : Db) (passId : Id) :
    ((d.tickets.entries.filterMap (d.passCheckIn passId)).map (·.id)).Nodup := by
  have hk := d.tickets.nodupKeys
  rw [List.NodupKeys, List.keys, List.Nodup, List.pairwise_map] at hk
  rw [List.Nodup, List.pairwise_map, List.pairwise_filterMap]
  refine hk.imp fun hne t ht t' ht' heq => hne ?_
  rw [← (passCheckIn_eq_some ht).1, ← (passCheckIn_eq_some ht').1, heq]

theorem listed_all {passId id : Id} {c : CheckIn} (hc : d.checkIn id = some c)
    (hp : d.scanPass c.checkedInScanId = some passId) :
    ∃ t ∈ d.tickets.entries.filterMap (d.passCheckIn passId),
      t.id = id ∧ t.checkedInScanId = c.checkedInScanId := by
  obtain ⟨r, hr, hrc⟩ := Db.checkIn_eq_some.1 hc
  obtain ⟨s, hs, rfl⟩ := Option.map_eq_some_iff.1 hp
  exact ⟨_, List.mem_filterMap.2 ⟨⟨id, r⟩, AList.mem_lookup_iff.1 hr, by
    simp only [Db.passCheckIn, hrc, hs, Option.any_some, beq_self_eq_true, if_true]
    rfl⟩, rfl, rfl⟩

/-- What a listed check-in still says at the commit. -/
theorem PassCheckIn.Of.later {t : PassCheckIn} {passId : Id} (h : t.Of passId d) (hg : Grows d d')
    {r : Ticket} {c : CheckIn} (hr : d'.tickets.lookup t.id = some r) (hc : r.checkIn = some c)
    (hs : c.checkedInScanId = t.checkedInScanId) :
    r.orderId = t.orderId ∧ r.code = t.code ∧ c.checkedInAt = t.checkedInAt := by
  obtain ⟨r₀, c₀, hr₀, ho, hcode, hc₀, -, hat⟩ := h.row
  obtain ⟨s, hs₀, -⟩ := h.scan
  obtain ⟨r', hr', ho', -, hcode'⟩ := hg.ticket hr₀
  obtain rfl := Option.some.inj (hr'.symm.trans hr)
  have := hg.checkIn (Db.checkIn_eq_some.2 ⟨_, hr, hc⟩) (hs ▸ hs₀)
  obtain rfl : c₀ = c := by simpa [Db.checkIn, hr₀, hc₀] using this
  exact ⟨ho'.trans ho, hcode'.trans hcode, hat⟩

/-- How far a revocation has got: the listed check-ins in `done` undone, `standing` yet to come. -/
structure Undoing (d : Db) (done : List Undone) (standing : List PassCheckIn) : Prop where
  stands : Standing d done
  nodup : (done.map (·.listed.id) ++ standing.map (·.id)).Nodup

theorem Undoing.skip {done : List Undone} {t : PassCheckIn} {standing : List PassCheckIn}
    (h : Undoing d done (t :: standing)) : Undoing d done standing where
  stands := h.stands
  nodup := h.nodup.sublist
    (List.Sublist.append_left (by simp) _)

theorem Undoing.step {done : List Undone} {t : PassCheckIn} {standing : List PassCheckIn}
    {r : Ticket} {c : CheckIn} (h : Undoing d done (t :: standing))
    (hr : d.tickets.lookup t.id = some r) (hc : r.checkIn = some c)
    (hs : c.checkedInScanId = t.checkedInScanId) : Undoing d (done ++ [⟨t, r, c⟩]) standing where
  stands := by
    have hn := h.nodup
    rw [List.map_cons, ← List.singleton_append, ← List.append_assoc] at hn
    refine ⟨by simpa using (List.nodup_append.1 hn).1, ?_, ?_, ?_⟩ <;>
      simp only [List.mem_append, List.mem_singleton] <;> rintro u (hu | rfl)
    · exact h.stands.row u hu
    · exact hr
    · exact h.stands.checkIn u hu
    · exact hc
    · exact h.stands.scan u hu
    · exact hs
  nodup := by simpa using h.nodup

/-- Writes that touch passes alone. -/
def PassesOnly (ws : List Write) : Prop :=
  ∀ d : Db, ∃ passes, writeAll ws d = { d with doorPasses := passes }

theorem PassesOnly.undo {ws : List Write} (hws : PassesOnly ws) (event : PassCheckIn → OrderEvent)
    (undone : List Undone) (d : Db) : writeAll (ws ++ undoWrites event undone) d =
      { writeAll ws d with
        tickets := .insertAll (undoneRows undone) d.tickets
        orderEvents := d.orderEvents ++ undone.map fun u => event u.listed } := by
  obtain ⟨passes, hd⟩ := hws d
  rw [Txn.writeAll_append, writeAll_undoWrites, hd]

/-- The next ticket on the list is not yet touched. -/
theorem Undoing.next {done : List Undone} {t : PassCheckIn} {standing : List PassCheckIn}
    {ws : List Write} {event : PassCheckIn → OrderEvent} (hws : PassesOnly ws)
    (h : Undoing d done (t :: standing)) (d₁ : Db) :
    (writeAll (ws ++ undoWrites event done) d₁).tickets.lookup t.id = d₁.tickets.lookup t.id := by
  rw [hws.undo]
  refine lookup_undone_of_notMem (fun hm => ?_) _
  exact (List.nodup_append.1 h.nodup).2.2 _ hm _ (by simp) rfl

/-- What `undoStanding` makes of a list: `more` undone, and of the others none stands. -/
structure Undid (d : Db) (done : List Undone) (standing : List PassCheckIn) (more : List Undone) :
    Prop where
  stands : Standing d (done ++ more)
  listed : ∀ u ∈ more, u.listed ∈ standing
  rest : ∀ t ∈ standing, (∃ u ∈ more, u.listed = t) ∨
    ∀ c, d.checkIn t.id = some c → c.checkedInScanId ≠ t.checkedInScanId

theorem undoStanding_commits {passId : Id} {label reason actor : String} {ws : List Write}
    (hws : PassesOnly ws) :
    ∀ {standing : List PassCheckIn} {done : List Undone} {d₁ : Db} {K : List (Lock Row)},
      (∀ t ∈ standing, t.Of passId d) → Grows d d₁ → Undoing d' done standing →
      (undoStanding label reason actor standing).commits (Rely Good) d'
        (fun undone _ K' ws' => ∃ more, undone = more.map (·.listed) ∧ (∀ l ∈ K, l ∈ K') ∧
          ws' = ws ++ undoWrites (revokedEvent · label reason actor) (done ++ more) ∧
          Undid d' done standing more)
        d₁ K (ws ++ undoWrites (revokedEvent · label reason actor) done) := by
  intro standing
  induction standing with
  | nil =>
    intro done d₁ K _ _ h
    exact ⟨[], rfl, fun _ hl => hl, by simp, by simpa using h.stands, by simp, by simp⟩
  | cons t standing ih =>
    intro done d₁ K hof hg h
    have rest := fun s hs => hof s (List.mem_cons_of_mem t hs)
    refine commits_undoCheckIn (fun d₂ h₀ h₁ hmiss => ?_) fun r c hr hc hs => ?_
    · have hg₂ : Grows d d₂ := hg.trans (grows_of_rely h₀)
      refine Txn.Tx.commits_mono (fun undone _ K' ws' done => ?_)
        (ih rest hg₂ h.skip)
      obtain ⟨more, hu, hK, hw, hm⟩ := done
      refine ⟨more, hu, hK, hw, hm.stands, fun u hu => List.mem_cons_of_mem t (hm.listed u hu), ?_⟩
      -- A scan in the log checks nobody in any more, so what was missed then is not there now.
      have hgone : ∀ c, d'.checkIn t.id = some c → c.checkedInScanId ≠ t.checkedInScanId := by
        intro c hc hs
        obtain ⟨s, hs₀, -⟩ := (hof t (by simp)).scan
        refine hmiss c ?_ hs
        rw [Db.checkIn, h.next hws, ← Db.checkIn]
        exact (grows_of_rely h₁).checkIn hc (hs ▸ hg₂.scan hs₀)
      rintro t' ht'
      rcases List.mem_cons.1 ht' with rfl | ht'
      · exact .inr hgone
      · exact hm.rest t' ht'
    · rw [h.next hws] at hr
      have hw : ws ++ undoWrites (revokedEvent · label reason actor) done ++
          [.ticket t.id { r with checkIn := none }] ++
            [.orderEvent (revokedEvent t label reason actor)] =
          ws ++ undoWrites (revokedEvent · label reason actor) (done ++ [⟨t, r, c⟩]) := by
        simp [undoWrites]
      refine commits_append (Txn.Tx.commits_bind ?_)
      rw [hw]
      refine Txn.Tx.commits_mono (fun undone _ K' ws' done => ?_)
        (ih rest hg (h.step hr hc hs))
      obtain ⟨more, hu, hK, hw, hm⟩ := done
      refine ⟨⟨t, r, c⟩ :: more, by rw [hu]; rfl, fun l hl => hK l (List.mem_cons_of_mem _ hl),
        by simpa using hw, by simpa using hm.stands, fun u hu => ?_, fun t' ht' => ?_⟩
      · rcases List.mem_cons.1 hu with rfl | hu
        · exact List.mem_cons_self
        · exact List.mem_cons_of_mem t (hm.listed u hu)
      · rcases List.mem_cons.1 ht' with rfl | ht'
        · exact .inl ⟨_, List.mem_cons_self, rfl⟩
        · rcases hm.rest t' ht' with he | he
          · obtain ⟨u, hu, he⟩ := he
            exact .inl ⟨u, List.mem_cons_of_mem _ hu, he⟩
          · exact .inr he

theorem commits_revokePass {β : Type} {Q : β → Db → List (Lock Row) → List Write → Prop} {id : Id}
    {k : Option DoorPass → Tx β} {d₀ d : Db} {K : List (Lock Row)} {ws : List Write}
    (miss : ∀ d₁, Later d₀ d₁ → Rely Good K d₁ d →
      (∀ p, (writeAll ws d₁).doorPasses.lookup id = some p → p.revokedAt.isSome) →
      Txn.Tx.commits (Rely Good) d Q (k none) d₁ K ws)
    (write : ∀ p time d₁, Later d₀ d₁ → (writeAll ws d).doorPasses.lookup id = some p →
      p.revokedAt = none →
      Txn.Tx.commits (Rely Good) d Q (k (some { p with revokedAt := some time })) d₁
        ((.pass id, .excl) :: K) (ws ++ [.pass id { p with revokedAt := some time }])) :
    Txn.Tx.commits (Rely Good) d Q (doorRepository.revokePass id >>= k) d₀ K ws := by
  refine Txn.Tx.commits_bind (commits_reads fun d₁ h₀ _ => ?_)
  refine commits_onRow (k := pure) (fun d₂ r h₁ h₂ hc => ?_) (fun r hc => ?_) (fun r hc => ?_)
    fun w r hc => ?_
  · split at hc
    · rename_i p hp
      split_ifs at hc with ha
      cases hc
      refine miss d₂ (h₀.trans h₁) h₂ fun p' hp' => ?_
      obtain rfl := Option.some.inj (hp'.symm.trans hp)
      simpa [Option.isSome_iff_ne_none] using ha
    · rename_i hp
      cases hc
      exact miss d₂ (h₀.trans h₁) h₂ fun p' hp' => by simp [hp] at hp'
  · split at hc
    · split_ifs at hc
    · cases hc
  · split at hc
    · split_ifs at hc
    · cases hc
  · split at hc
    · rename_i p hp
      split_ifs at hc with ha
      cases hc
      exact write p _ d₁ h₀ hp (by simpa using ha)
    · cases hc

/-- Nobody can be let in with the pass: it is revoked, or its row is held for the revocation. -/
def Shut (passId : Id) (K : List (Lock Row)) (d : Db) : Prop :=
  (Row.pass passId, .excl) ∈ K ∨
    ∃ p, d.doorPasses.lookup passId = some p ∧ p.revokedAt.isSome

/-- While nobody can be let in with a pass, its check-ins only grow fewer. -/
theorem checkIn_of_shut {passId : Id} {K : List (Lock Row)} (hs : Shut passId K d) (hd : Logged d)
    (h : Rely Good K d d') : ∀ id c, d'.checkIn id = some c →
      d'.scanPass c.checkedInScanId = some passId → d.checkIn id = some c := by
  suffices hI : Shut passId K d' ∧ Logged d' ∧ ∀ id c, d'.checkIn id = some c →
      d'.scanPass c.checkedInScanId = some passId → d.checkIn id = some c from hI.2.2
  refine Rely.preserves_beside (I := fun d' => Shut passId K d' ∧ Logged d' ∧ ∀ id c,
    d'.checkIn id = some c → d'.scanPass c.checkedInScanId = some passId → d.checkIn id = some c)
    (fun q τ L d₁ d₂ hg hfree _ hI => ?_) h ⟨hs, hd, fun _ _ h _ => h⟩
  obtain ⟨hs, hd, hI⟩ := hI
  refine ⟨?_, hg.logged hd, fun id c hc hp => ?_⟩
  · rcases hs with hK | ⟨p, hp, hr⟩
    · exact .inl hK
    · obtain ⟨p', hp', -, heq⟩ := hg.grows.pass hp
      exact .inr ⟨p', hp', heq hr ▸ hr⟩
  obtain ⟨ws, undone, he, rfl, -⟩ := hg
  rcases (he.ticket id).checkIn hc with hc | ⟨t, s, admission, hl⟩
  · obtain ⟨s, hl, -⟩ := hd id c hc
    refine hI id c hc ?_
    simpa only [Db.scanPass, he.grows.scan hl, hl] using hp
  · obtain rfl : s.passId = passId := by simpa [Db.scanPass, hl] using hp
    rcases hs with hK | ⟨p, hp, hr⟩
    · exact absurd ⟨rfl, by simp⟩ (hfree _ hK _ admission.lock)
    · obtain ⟨p', hp', active, -⟩ := admission.pass
      obtain rfl := Option.some.inj (hp.symm.trans hp')
      simp [active] at hr

/-- What a revocation commits: the check-ins it lists are all there were by the pass. -/
structure Revoked (passId : Id) (listed : List PassCheckIn) (undone : List (Id × CheckIn))
    (d d' : Db) : Prop where
  takes : TakesBack undone d d'
  listed : undone.map (fun u => (u.1, u.2.checkedInAt)) =
    listed.map fun t => (t.id, t.checkedInAt)
  byPass : ∀ u ∈ undone, d.scanPass u.2.checkedInScanId = some passId
  shut : Sealed passId d'
  orders : d'.orders = d.orders

/-- A revocation between its list, read at `d`, and its commit to `d'`. -/
structure Revoking (passId : Id) (d d' : Db) (more : List Undone) : Prop where
  grows : Grows d d'
  logged : Logged d
  undid : Undid d' [] (d.tickets.entries.filterMap (d.passCheckIn passId)) more
  since : ∀ id c, d'.checkIn id = some c → d'.scanPass c.checkedInScanId = some passId →
    d.checkIn id = some c

variable {passId : Id} {more : List Undone} {label reason actor : String}

theorem Revoking.standing (h : Revoking passId d d' more) : Standing d' more := by
  simpa using h.undid.stands

theorem Revoking.later (h : Revoking passId d d' more) {u : Undone} (hu : u ∈ more) :
    u.row.orderId = u.listed.orderId ∧ u.row.code = u.listed.code ∧
      u.checkIn.checkedInAt = u.listed.checkedInAt :=
  (listed_of (h.undid.listed u hu)).later h.grows (h.standing.row u hu) (h.standing.checkIn u hu)
    (h.standing.scan u hu)

theorem Revoking.audit (h : Revoking passId d d' more) {u : Undone} (hu : u ∈ more) :
    (revokedEvent u.listed label reason actor).Is u.row.orderId .ticketCheckInUndone none none ∧
      ∃ label' reason', (revokedEvent u.listed label reason actor).note =
        .undoneByRevoke u.row.code label' reason' := by
  obtain ⟨ho, hc, -⟩ := h.later hu
  exact ⟨⟨ho.symm, rfl, rfl, rfl⟩, label, reason, by rw [hc]; rfl⟩

theorem Revoking.out (h : Revoking passId d d' more) {id : Id} {c : CheckIn}
    (hc : d'.checkIn id = some c) (hp : d'.scanPass c.checkedInScanId = some passId) :
    id ∈ more.map (·.listed.id) := by
  have hc₀ := h.since id c hc hp
  obtain ⟨s, hs, -⟩ := h.logged id c hc₀
  have hp₀ : d.scanPass c.checkedInScanId = some passId := by
    simpa only [Db.scanPass, h.grows.scan hs, hs] using hp
  obtain ⟨t, ht, rfl, hts⟩ := listed_all hc₀ hp₀
  rcases h.undid.rest t ht with ⟨u, hu, rfl⟩ | hgone
  · exact List.mem_map.2 ⟨u, hu, rfl⟩
  · exact absurd hts.symm (hgone c hc)

theorem Revoking.revoked {ws : List Write} (h : Revoking passId d d' more) (hws : PassesOnly ws)
    (hp : ∃ p, (writeAll ws d').doorPasses.lookup passId = some p ∧ p.revokedAt.isSome) :
    Revoked passId (more.map (·.listed)) (more.map fun u => (u.listed.id, u.checkIn)) d'
      (writeAll (ws ++ undoWrites (revokedEvent · label reason actor) more) d') := by
  obtain ⟨hscans, horders⟩ : (writeAll ws d').doorScans = d'.doorScans ∧
      (writeAll ws d').orders = d'.orders := by
    obtain ⟨passes, hd⟩ := hws d'
    rw [hd]
    exact ⟨rfl, rfl⟩
  rw [hws.undo]
  have audit : ∀ u ∈ more,
      (revokedEvent u.listed label reason actor).Is u.row.orderId .ticketCheckInUndone none none ∧
        ∃ label' reason', (revokedEvent u.listed label reason actor).note =
          .undoneByRevoke u.row.code label' reason' := fun u hu => h.audit hu
  refine ⟨@Standing.takesBack _ _ _ (revokedEvent · label reason actor) h.standing audit rfl
    hscans rfl, ?_, fun v hv => ?_, ⟨hp, fun id c hc hby => ?_⟩, horders⟩
  · rw [List.map_map, List.map_map]
    exact List.map_congr_left fun u hu => by simp [(h.later hu).2.2]
  · obtain ⟨u, hu, rfl⟩ := List.mem_map.1 hv
    obtain ⟨s, hs, hby⟩ := (listed_of (h.undid.listed u hu)).scan
    have hs' : d'.doorScans.lookup u.checkIn.checkedInScanId = some s :=
      (h.standing.scan u hu).symm ▸ h.grows.scan hs
    simp only [Db.scanPass, hs', Option.map_some, hby]
  · simp only [Db.scanPass, hscans] at hby
    by_cases hm : id ∈ more.map (·.listed.id)
    · obtain ⟨u, hu, rfl⟩ := List.mem_map.1 hm
      simp [Db.checkIn, h.standing.lookup hu] at hc
    · refine hm (h.out (c := c) ?_ hby)
      simpa only [Db.checkIn, lookup_undone_of_notMem hm] using hc

/-- The list is read when nobody can be let in with the pass any more. -/
theorem undoAll_commits {ws : List Write} {K : List (Lock Row)} {d₁ : Db} (hws : PassesOnly ws)
    (hd : Logged d₁) (hs : ∀ d₂, Later d₁ d₂ → Shut passId K d₂)
    (hp : ∃ p, (writeAll ws d').doorPasses.lookup passId = some p ∧ p.revokedAt.isSome)
    (heffect : ∀ {K' undone}, (∀ l ∈ K, l ∈ K') → Standing d' undone →
      (∀ u ∈ undone,
        (revokedEvent u.listed label reason actor).Is u.row.orderId .ticketCheckInUndone none none ∧
          ∃ label' reason', (revokedEvent u.listed label reason actor).note =
            .undoneByRevoke u.row.code label' reason') →
      Effect K' d' (ws ++ undoWrites (revokedEvent · label reason actor) undone)
        (undone.map fun u => (u.listed.id, u.checkIn))) :
    Txn.Tx.commits (Rely Good) d' (fun listed _ K ws => ∃ undone, Effect K d' ws undone ∧
      Revoked passId listed undone d' (writeAll ws d')) (do
        let standing ← exec (doorRepository.ticketsCheckedInByPass passId)
        undoStanding label reason actor standing) d₁ K ws := by
  refine commits_reads fun d₂ h₁ h₂ => ?_
  obtain ⟨passes, hd₂⟩ := hws d₂
  have hstart : Undoing d' [] (d₂.tickets.entries.filterMap (d₂.passCheckIn passId)) :=
    ⟨⟨.nil, by simp, by simp, by simp⟩, by simpa using listed_nodup d₂ passId⟩
  have hloop := @undoStanding_commits _ _ passId label reason actor ws hws _ _ _ K
    (fun t ht => listed_of ht) (.refl d₂) hstart
  rw [undoWrites, List.flatMap_nil, List.append_nil] at hloop
  rw [hd₂]
  refine Txn.Tx.commits_mono (fun listed _ K' ws' done => ?_) hloop
  obtain ⟨more, hl, hK, hw, hm⟩ := done
  have h : Revoking passId d₂ d' more := ⟨grows_of_rely h₂, logged_of_rely h₁ hd, hm,
    checkIn_of_shut (hs d₂ h₁) (logged_of_rely h₁ hd) h₂⟩
  subst hl hw
  exact ⟨_, heffect hK h.standing fun u hu => h.audit hu, h.revoked hws hp⟩

theorem revokeAndUndoTx_commits {p : DoorPass} (hp : d.doorPasses.lookup passId = some p)
    (hd : Logged d) :
    (revokeAndUndoTx passId label reason actor).commits (Rely Good) d'
      (fun listed _ K ws => ∃ undone, Effect K d' ws undone ∧
        Revoked passId listed undone d' (writeAll ws d')) d [] [] := by
  refine commits_revokePass (fun d₁ h₀ h₁ hrev => ?_) fun p' time d₁ h₀ hp' active => ?_
  · obtain ⟨p₁, hp₁, -⟩ := (grows_of_rely h₀).pass hp
    obtain ⟨p', hp', -, heq⟩ := (grows_of_rely h₁).pass hp₁
    refine undoAll_commits (fun d => ⟨d.doorPasses, rfl⟩) (logged_of_rely h₀ hd)
      (fun d₂ h₂ => .inr ?_) ⟨p', hp', heq (hrev p₁ hp₁) ▸ hrev p₁ hp₁⟩
      fun _ standing audit => List.nil_append _ ▸ .undoAll standing audit
    obtain ⟨p₂, hp₂, -, heq⟩ := (grows_of_rely h₂).pass hp₁
    exact ⟨p₂, hp₂, heq (hrev p₁ hp₁) ▸ hrev p₁ hp₁⟩
  · refine undoAll_commits (fun d => ⟨_, rfl⟩) (logged_of_rely h₀ hd)
      (fun _ _ => .inl (by simp)) ⟨_, AList.lookup_insert _, rfl⟩
      fun hK standing audit => .revokeAndUndo hp' active (hK _ (by simp)) standing audit

end Revocation

section Handlers

theorem quiet_say {o : Say} : Quiet [.say o] := by
  intro K d d' hm
  simp at hm

theorem Idled.say (τ : List Obs) (d : Db) (o : Say) : Idled τ d (τ ++ [.say o]) d :=
  ⟨⟨_, rfl, quiet_say⟩, .refl⟩

theorem Idled.committed_le {τ' : List Obs} (h : Idled τ d τ' d') : committed τ ≤ committed τ' := by
  obtain ⟨⟨rs, rfl, -⟩, -⟩ := h
  rw [committed_append]
  omega

theorem Idled.onlyCommit {P : List Obs → Db → Db → Prop} {τ' : List Obs} {K : List (Lock Row)}
    {d₁ d₂ : Db} (hi : Idled (τ ++ [.commit K d₁ d₂]) d τ' d') (hτ : Quiet τ) (h : P τ d₁ d₂) :
    OnlyCommit τ' P := by
  obtain ⟨⟨rs, rfl, hrs⟩, -⟩ := hi
  exact ⟨τ, K, d₁, d₂, rs, by simp, hτ, hrs, h⟩

/-- What an undo announces is the check-in it took back. -/
theorem TakesBack.told {undone : List (Id × CheckIn)} {K : List (Lock Row)} {d₁ d₂ : Db}
    (h : TakesBack undone d₁ d₂) (hm : .commit K d₁ d₂ ∈ τ) {u : Id × CheckIn} (hu : u ∈ undone)
    (eventId : Id) : Told τ (.announce eventId (.undo u.1 u.2.checkedInAt)) := by
  obtain ⟨t, ht, hc, ht'⟩ := h.cleared u hu
  exact ⟨K, d₁, d₂, u.2, hm, by rw [Db.checkIn_of_lookup ht, hc], by rw [Db.checkIn_of_lookup ht'],
    rfl⟩

section One

variable {ticketId scanId : Id} {at_ : Option Time} {undone : List (Id × CheckIn)}

theorem UndoneOne.takesBack (h : UndoneOne ticketId scanId at_ undone d d') :
    TakesBack undone d d' := by
  obtain ⟨c, rfl, -, h, -⟩ := h
  exact h

theorem UndoneOne.scan (h : UndoneOne ticketId scanId at_ undone d d') :
    ∀ u ∈ undone, u.2.checkedInScanId = scanId := by
  obtain ⟨c, rfl, hs, -⟩ := h
  simpa using hs

theorem UndoneOne.moves (h : UndoneOne ticketId scanId at_ undone d d') : q.moves d d' := by
  obtain ⟨c, -, -, -, -, horders⟩ := h
  exact Request.moves_same horders

theorem UndoneOne.shown {c : CheckIn} {s : DoorScan} {d₁ : Db}
    (h : UndoneOne ticketId c.checkedInScanId at_ undone d d')
    (hc : d₁.checkIn ticketId = some c) (hs : d₁.doorScans.lookup c.checkedInScanId = some s)
    (hg : Grows d₁ d) : undone = [(ticketId, c)] := by
  obtain ⟨c', rfl, hscan, h, -⟩ := h
  obtain ⟨t, ht, htc, -⟩ := h.cleared _ (List.mem_singleton_self _)
  have := hg.checkIn (Db.checkIn_eq_some.2 ⟨t, ht, htc⟩) (hscan ▸ hs)
  rw [Option.some.inj (hc.symm.trans this)]

theorem UndoneOne.tookBack (h : UndoneOne ticketId scanId at_ undone d d')
    (hn : ∀ u ∈ undone, q.names τ d u) : q.tookBack 1 τ d d' := by
  obtain ⟨c, rfl, -, h, -⟩ := h
  exact ⟨_, h, rfl, hn⟩

theorem UndoneOne.told {t : Time} {K : List (Lock Row)} {eventId : Id}
    (h : UndoneOne ticketId scanId (some t) undone d d') :
    Told (τ ++ [.commit K d d']) (.announce eventId (.undo ticketId t)) := by
  obtain ⟨c, rfl, -, h, hat, -⟩ := h
  obtain rfl := hat t rfl
  exact h.told (K := K) (u := (ticketId, c)) (by simp) (by simp) eventId

end One

/-- A request that answers as it may. -/
abbrev Svc.answers (q : Request) (s : Svc Answer) (τ : List Obs) (d : Db) : Prop :=
  s.wp q (fun a τ _ => q.mayAnswer τ (.ok a)) (fun e τ _ => q.mayAnswer τ (.error e)) τ d

theorem undoRoute_answers {passCode : String} {scanId : Id} {reason : DoorUndoReason}
    (hτ : Quiet τ) : (undoRoute passCode scanId reason).answers
      (.undoScan passCode scanId reason) τ d := by
  refine Svc.wp_bind (authenticate_wp (fun _ => trivial) (fun _ _ _ hi => hi.quiet hτ)
    (fun _ _ hi => Svc.wp_pure fun _ _ => hi.quiet hτ) fun ctx τ₁ e₁ i₁ _ => ?_)
  refine Svc.wp_bind (Svc.wp_bind (Svc.wp_query trivial (fun _ _ _ hi => (i₁.trans hi).quiet hτ)
    fun d₂ τ₂ e₂ h₂ h₂' _ i₂ => ?_))
  have hq := (i₁.trans i₂).quiet hτ
  split
  swap
  · exact Svc.wp_throw fun _ _ => hq
  rename_i scan hscan
  split
  swap
  · exact Svc.wp_throw fun _ _ => hq
  rename_i ticketId _
  refine Svc.wp_ite (fun _ => Svc.wp_throw_bind fun _ _ => hq) fun _ => ?_
  refine Svc.wp_ite (fun _ => Svc.wp_throw_bind fun _ _ => hq) fun _ => ?_
  refine Svc.wp_bind (Svc.wp_now fun d₃ τ₃ e₃ _ i₃ => ?_)
  have hi := i₁.trans (i₂.trans i₃)
  refine Svc.wp_ite (fun _ => Svc.wp_throw_bind fun _ _ => hi.quiet hτ) fun _ => ?_
  refine Svc.wp_bind (Svc.wp_transaction (UndoneOne ticketId scanId)
    (fun d' _ => undoOwnAdmitTx_commits ((grows_of_rely (h₂'.trans i₃.later)).scan hscan))
    (fun rs d' at_ undone d'' _ _ hu => ⟨⟨hu.takesBack, hu.scan⟩, hu.moves⟩)
    (fun e rs d' hrs h' => (hi.trans (.reads hrs h')).quiet hτ)
    fun rs d' K at_ undone d₄ d'' hrs h' _ hu _ => ?_)
  have done : ∀ {τ' e'}, Idled (τ₃ ++ rs ++ [.commit K d' d₄]) d'' τ' e' →
      (pure Answer.ok : Svc Answer).answers (.undoScan passCode scanId reason) τ' e' :=
    fun hi' => Svc.wp_pure fun _ _ => hi'.onlyCommit ((hi.trans (.reads hrs h')).quiet hτ)
      (hu.tookBack hu.scan)
  split
  · exact Svc.wp_say hu.told fun _ h => done ((Idled.say _ _ _).trans (.wait h))
  · exact Svc.wp_pure fun _ h => done (.wait h)

theorem shown_checkIn {orderId ticketId : Id} {t : Id × Ticket} {c : CheckIn}
    (ht : ((d.tickets.entries.filter fun e => e.2.orderId == orderId).map fun e =>
      (e.1, e.2)).find? (fun t => t.1 == ticketId) = some t) (hc : t.2.checkIn = some c) :
    d.checkIn ticketId = some c := by
  obtain ⟨e, he, rfl⟩ := List.mem_map.1 (List.mem_of_find?_eq_some ht)
  obtain rfl : e.1 = ticketId := by simpa using List.find?_some ht
  exact Db.checkIn_eq_some.2 ⟨e.2, AList.mem_lookup_iff.2 (List.mem_filter.1 he).1, hc⟩

theorem undoCheckInAction_answers {form : UndoForm} (hd : Logged d) (hτ : Quiet τ) :
    (undoCheckInAction form).answers (.undoCheckIn form) τ d := by
  refine Svc.wp_bind (Svc.wp_query trivial (fun _ _ _ hi => hi.quiet hτ)
    fun d₁ τ₁ e₁ h₁ h₁' m₁ i₁ => ?_)
  have hq := i₁.quiet hτ
  split
  swap
  · exact Svc.wp_pure fun _ _ => hq
  rename_i t ht
  split
  swap
  · exact Svc.wp_pure fun _ _ => hq
  rename_i shown hshown
  have hpage := shown_checkIn ht hshown
  obtain ⟨s, hs, -⟩ := logged_of_rely h₁ hd _ _ hpage
  have names : ∀ {rs d' d'' out undone}, Later e₁ d' →
      UndoneOne form.ticketId shown.checkedInScanId out undone d' d'' →
      ∀ u ∈ undone, (Request.undoCheckIn form).names (τ₁ ++ rs) d' u := by
    intro rs d' d'' out undone h' hu
    obtain rfl := hu.shown hpage hs (grows_of_rely (h₁'.trans h'))
    rintro u hu
    obtain rfl := List.mem_singleton.1 hu
    exact ⟨rfl, d₁, List.mem_append_left _ m₁, hpage⟩
  refine Svc.wp_bind (Svc.wp_bind (Svc.wp_transaction
    (fun out => UndoneOne form.ticketId shown.checkedInScanId out.at_)
    (fun d' _ => undoCheckInAsAdminTx_commits ((grows_of_rely h₁').scan hs))
    (fun rs d' out undone d'' _ h' hu => ⟨⟨hu.takesBack, names h' hu⟩, hu.moves⟩)
    (fun e rs d' hrs h' => (i₁.trans (.reads hrs h')).quiet hτ)
    fun rs d' K out undone d₄ d'' hrs h' _ hu _ => ?_))
  have done : ∀ {τ' e' code}, Idled (τ₁ ++ rs ++ [.commit K d' d₄]) d'' τ' e' →
      (pure (Answer.undone code) : Svc Answer).answers (.undoCheckIn form) τ' e' :=
    fun hi' => Svc.wp_pure fun _ h => (hi'.trans (.wait h)).onlyCommit
      ((i₁.trans (.reads hrs h')).quiet hτ) (hu.tookBack (names h' hu))
  obtain ⟨code, eventId, at_⟩ := out
  dsimp only at hu ⊢
  split
  · exact Svc.wp_say_bind hu.told (Svc.wp_pure fun _ h => done ((Idled.say _ _ _).trans (.wait h)))
  · exact Svc.wp_pure fun _ h => done (.wait h)

section Revoke

variable {eventId passId : Id} {reason actor : String}

theorem passOfEvent_wp {Q : DoorPass → List Obs → Db → Prop} {E : Err → List Obs → Db → Prop}
    (hq : q.closed τ) (lost : ∀ e rs d', Quiet rs → E e (τ ++ rs) d')
    (ok : ∀ p rs d', Quiet rs → committed rs = 1 → Later d d' →
      (∃ p', d'.doorPasses.lookup passId = some p') → Q p (τ ++ rs) d') :
    (passOfEvent eventId passId).wp q Q E τ d := by
  refine Svc.wp_bind (Svc.wp_query_trace hq (fun e rs d' hrs _ => lost e rs d' (quiet_of_reads hrs))
    fun d₁ d₂ d' h₁ h₂ h' => ?_)
  have h₁' : Later d₁ d' := h₂.trans h'
  split
  swap
  · exact Svc.wp_throw fun _ _ => lost _ _ _ quiet_query
  rename_i p hp
  refine Svc.wp_ite (fun _ => Svc.wp_throw_bind fun _ _ => lost _ _ _ quiet_query) fun _ => ?_
  refine Svc.wp_pure fun d'' h'' => ok p _ _ quiet_query rfl (h₁.trans (h₁'.trans h'')) ?_
  obtain ⟨p', hp', -⟩ := (grows_of_rely (h₁'.trans h'')).pass hp
  exact ⟨p', hp'⟩

theorem announceRevoke_wp {Q : Unit → List Obs → Db → Prop} {E : Err → List Obs → Db → Prop}
    (hq : ∀ τ' d', Idled τ d τ' d' → q.closed τ') (ok : ∀ τ' d', Idled τ d τ' d' → Q () τ' d') :
    (announceRevoke eventId passId).wp q Q E τ d := by
  refine Svc.wp_bind (Svc.wp_now fun d₁ τ₁ e₁ _ i₁ => ?_)
  have rest : ∀ {o τ₂ e₂}, Idled τ₁ e₁ τ₂ e₂ → Told τ₂ o → (Svc.say o).wp q Q E τ₂ e₂ :=
    fun i₂ ht => Svc.wp_say ht fun _ h =>
      ok _ _ (i₁.trans (i₂.trans ((Idled.say _ _ _).trans (.wait h))))
  refine Svc.wp_bind (Svc.wp_tryCatch (Svc.wp_query (hq _ _ i₁) (fun e τ₂ e₂ i₂ => ?_)
    fun _ τ₂ e₂ _ _ _ i₂ d' h' => ?_))
  · exact Svc.wp_pure fun d' h' => rest (i₂.trans (.wait h')) trivial
  · exact rest (i₂.trans (.wait h')) trivial

theorem revokePass_safe (hq : q.Plain) : (revokePass eventId passId).safe q τ d := by
  refine Svc.wp_bind (passOfEvent_wp (hq.closed _) (fun _ _ _ _ => trivial) fun _ _ _ _ _ _ _ => ?_)
  refine Svc.wp_bind (Svc.wp_transaction (fun _ undone d d' => undone = [] ∧ q.moves d d')
    (fun d' _ => commits_effect (Txn.Tx.commits_mono (fun _ _ _ _ => Aside.of) ?_))
    (fun _ _ _ _ _ _ _ hu => ⟨hu.1 ▸ hq.commit _ _ _, hu.2⟩)
    (fun _ _ _ _ _ => trivial) fun _ _ _ _ _ _ _ _ _ _ _ _ =>
      announceRevoke_wp (fun _ _ _ => hq.closed _) fun _ _ _ => trivial)
  exact commits_revokePass (k := pure) (fun _ _ _ _ => ⟨.nothing, rfl⟩)
    fun p time d₁ _ hp active => ⟨.revoke hp active (by simp), rfl⟩

theorem announceUndone_wp {Q : Unit → List Obs → Db → Prop} {E : Err → List Obs → Db → Prop} :
    ∀ {undone : List PassCheckIn} {τ : List Obs} {d : Db},
      (∀ t ∈ undone, Told τ (.announce eventId (.undo t.id t.checkedInAt))) →
      (∀ τ' d', Idled τ d τ' d' → Q () τ' d') → (announceUndone eventId undone).wp q Q E τ d
  | [], τ, d, _, ok => Svc.wp_pure fun d' h' => ok _ _ (.wait h')
  | t :: undone, τ, d, ht, ok => by
    refine Svc.wp_say_bind (ht t (by simp)) (announceUndone_wp (fun u hu => ?_) fun τ' d' hi =>
      ok _ _ ((Idled.say _ _ _).trans hi))
    obtain ⟨K, d₁, d₂, c, hm, h⟩ := ht u (by simp [hu])
    exact ⟨K, d₁, d₂, c, by simp [hm], h⟩

theorem Revoked.told {listed : List PassCheckIn} {undone : List (Id × CheckIn)}
    {K : List (Lock Row)} (h : Revoked passId listed undone d d') (hm : .commit K d d' ∈ τ)
    {t : PassCheckIn} (ht : t ∈ listed) :
    Told τ (.announce eventId (.undo t.id t.checkedInAt)) := by
  have := List.mem_map_of_mem (f := fun t => (t.id, t.checkedInAt)) ht
  rw [← h.listed] at this
  obtain ⟨u, hu, heq⟩ := List.mem_map.1 this
  obtain ⟨hid, hat⟩ := Prod.mk.inj heq
  rw [← hid, ← hat]
  exact h.takes.told hm hu eventId

theorem revokeAndUndo_answers (hd : Logged d) :
    (Answer.revoked <$> revokeAndUndo eventId passId reason actor).answers
      (.revokeAndUndo eventId passId reason actor) [] d := by
  refine Svc.wp_map (Svc.wp_bind (passOfEvent_wp (by simp [Request.closed, committed])
    (fun e rs d' hrs => hrs) fun p τ₁ e₁ hτ₁ hone h₁ ⟨p', hp'⟩ => ?_))
  have hone' : ∀ {rs : List Obs}, (∀ o ∈ rs, o.isRead) → committed (τ₁ ++ rs) = 1 := fun hrs => by
    rw [committed_append, committed_of_reads hrs, hone]
  refine Svc.wp_bind (Svc.wp_transaction (Revoked passId)
    (fun d' _ => revokeAndUndoTx_commits hp' (logged_of_rely h₁ hd))
    (fun rs d' listed undone d'' _ _ h =>
      ⟨⟨h.takes, h.byPass, fun _ => h.shut⟩, Request.moves_same h.orders⟩)
    (fun e rs d' hrs _ => quiet_append.2 ⟨hτ₁, quiet_of_reads hrs⟩)
    fun rs d' K listed undone d₂ d'' hrs _ _ h _ => ?_)
  have hτ : Quiet (τ₁ ++ rs) := quiet_append.2 ⟨hτ₁, quiet_of_reads hrs⟩
  refine Svc.wp_bind (announceRevoke_wp (fun τ' e' hi => ?_) fun τ' e' hi => ?_)
  · have := hi.committed_le
    rw [committed_append] at this
    simp only [List.nil_append, hone' hrs] at this
    change committed τ' ≠ 1
    rintro heq
    rw [heq] at this
    simp [committed] at this
  refine Svc.wp_bind (announceUndone_wp (fun t ht => h.told (K := K) (hi.mem (by simp)) ht)
    fun τ'' e'' hi' => Svc.wp_pure fun d₃ h₃ d₄ h₄ => ?_)
  refine (hi.trans (hi'.trans (.wait (h₃.trans h₄)))).onlyCommit hτ
    ⟨hone' hrs, undone, h.takes, ?_, h.byPass⟩
  simpa using congrArg List.length h.listed

end Revoke

end Handlers

end EchoAndAura
