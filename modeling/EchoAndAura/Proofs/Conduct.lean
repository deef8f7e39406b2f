import EchoAndAura.Conduct
import EchoAndAura.Proofs.Rows

/-!
# What others may do in between

Every good commit grows the database, keeps each check-in in the scan log, and keeps a sealed pass
sealed.
-/

namespace EchoAndAura

open Txn (Lock writeAll Rely)

variable {K : List (Lock Row)} {d d' : Db} {ws : List Write} {undone : List (Id × CheckIn)}

/-- Every check-in is one its scan was logged for, at the gate the ticket names. -/
def Logged (d : Db) : Prop :=
  ∀ id c, d.checkIn id = some c → ∃ s, d.doorScans.lookup c.checkedInScanId = some s ∧
    s.result = .admitted ∧ s.ticketId = some id ∧
    ∃ p, d.doorPasses.lookup s.passId = some p ∧ p.label = c.checkedInBy

theorem Effect.logged (h : Effect K d ws undone) (hd : Logged d) : Logged (writeAll ws d) := by
  intro id c hc
  have pass : ∀ {passId p}, d.doorPasses.lookup passId = some p → p.label = c.checkedInBy →
      ∃ p, (writeAll ws d).doorPasses.lookup passId = some p ∧ p.label = c.checkedInBy := by
    intro passId p hp hl
    obtain ⟨p', hp', hl', -⟩ := h.grows.pass hp
    exact ⟨p', hp', hl'.trans hl⟩
  rcases (h.ticket id).checkIn hc with hc | ⟨t, s, admission, hs⟩
  · obtain ⟨s, hs, hr, ht, p, hp, hl⟩ := hd id c hc
    exact ⟨s, h.grows.scan hs, hr, ht, pass hp hl⟩
  · obtain ⟨p, hp, -, hl⟩ := admission.pass
    exact ⟨s, hs, admission.result, admission.ticket, pass hp hl⟩

/-- A revoked pass admits nobody, so a pass once sealed stays sealed. -/
theorem Effect.sealed {passId : Id} (h : Effect K d ws undone) (hd : Logged d)
    (hs : Sealed passId d) : Sealed passId (writeAll ws d) where
  revoked := by
    obtain ⟨p, hp, hr⟩ := hs.revoked
    obtain ⟨p', hp', -, heq⟩ := h.grows.pass hp
    exact ⟨p', hp', heq hr ▸ hr⟩
  out id c hc := by
    rcases (h.ticket id).checkIn hc with hc | ⟨t, s, admission, hl⟩
    · obtain ⟨s, hl, -⟩ := hd id c hc
      have := hs.out id c hc
      simpa only [Db.scanPass, h.grows.scan hl, hl] using this
    · obtain ⟨p, hp, hr⟩ := hs.revoked
      obtain ⟨p', hp', active, -⟩ := admission.pass
      simp only [Db.scanPass, hl, Option.map_some, ne_eq, Option.some.injEq]
      rintro rfl
      obtain rfl := Option.some.inj (hp.symm.trans hp')
      simp [active] at hr

section Later

/-- Other requests commit, one after another. -/
abbrev Later : Db → Db → Prop := Rely Good []

theorem Good.grows {q : Request} {τ : List Obs} (h : Good q τ (.commit K d d')) : Grows d d' := by
  obtain ⟨ws, undone, he, rfl, -⟩ := h
  exact he.grows

theorem Good.logged {q : Request} {τ : List Obs} (h : Good q τ (.commit K d d')) (hd : Logged d) :
    Logged d' := by
  obtain ⟨ws, undone, he, rfl, -⟩ := h
  exact he.logged hd

theorem Good.sealed {q : Request} {τ : List Obs} {passId : Id} (h : Good q τ (.commit K d d'))
    (hd : Logged d) (hs : Sealed passId d) : Sealed passId d' := by
  obtain ⟨ws, undone, he, rfl, -⟩ := h
  exact he.sealed hd hs

theorem grows_of_rely (h : Rely Good K d d') : Grows d d' := by
  induction h with
  | refl => exact .refl _
  | tail _ h ih =>
    obtain ⟨⟨q, τ, L, hg, -⟩, -⟩ := h
    exact ih.trans hg.grows

theorem logged_of_rely (h : Rely Good K d d') (hd : Logged d) : Logged d' :=
  h.preserves (fun _ _ _ _ _ hg => hg.logged) hd

end Later

section TakesBack

theorem TakesBack.nil (d : Db) : TakesBack [] d d where
  nodup := .nil
  cleared := by simp
  kept _ _ := rfl
  scans := rfl
  audit := ⟨[], by simp, .nil⟩

theorem Standing.takesBack {undone : List Undone} {event : PassCheckIn → OrderEvent}
    (h : Standing d undone)
    (audit : ∀ u ∈ undone, (event u.listed).Is u.row.orderId .ticketCheckInUndone none none ∧
      ∃ label reason, (event u.listed).note = .undoneByRevoke u.row.code label reason)
    (tickets : d'.tickets = .insertAll (undoneRows undone) d.tickets)
    (scans : d'.doorScans = d.doorScans)
    (events : d'.orderEvents = d.orderEvents ++ undone.map fun u => event u.listed) :
    TakesBack (undone.map fun u => (u.listed.id, u.checkIn)) d d' where
  nodup := by simpa [Function.comp_def] using h.nodup
  cleared u hu := by
    obtain ⟨v, hv, rfl⟩ := List.mem_map.1 hu
    exact ⟨v.row, h.row v hv, h.checkIn v hv, tickets ▸ h.lookup hv _⟩
  kept id hid := by
    rw [tickets]
    exact lookup_undone_of_notMem (by simpa [Function.comp_def] using hid) _
  scans := scans
  audit := by
    refine ⟨_, events, ?_⟩
    simp only [List.forall₂_map_left_iff, List.forall₂_map_right_iff, List.forall₂_same]
    intro u hu
    obtain ⟨his, label, reason, hn⟩ := audit u hu
    exact ⟨u.row, h.row u hu, his, by rw [hn]; rfl⟩

/-- One check-in taken back. -/
theorem TakesBack.one {id : Id} {t : Ticket} {c : CheckIn} {e : OrderEvent}
    (row : d.tickets.lookup id = some t) (checkIn : t.checkIn = some c)
    (audit : e.Is t.orderId .ticketCheckInUndone none none) (note : e.note.undoes t.code c) :
    TakesBack [(id, c)] d
      (writeAll [.ticket id { t with checkIn := none }, .orderEvent e] d) where
  nodup := by simp
  cleared u hu := by
    obtain rfl := List.mem_singleton.1 hu
    exact ⟨t, row, checkIn, AList.lookup_insert _⟩
  kept id' hid := AList.lookup_insert_ne (by simpa using hid)
  scans := rfl
  audit := ⟨[e], rfl, .cons ⟨t, row, audit, note⟩ .nil⟩

end TakesBack

end EchoAndAura
