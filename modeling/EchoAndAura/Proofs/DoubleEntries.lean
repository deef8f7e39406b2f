import EchoAndAura.DoubleEntries
import EchoAndAura.Proofs.Replay

/-!
# Which admits are listed as double entries

A synced admit is on the list once or not at all, by its own row and the one it supersedes
(`count_listed`).  Whether that is right depends on who was in when it was synced.  The list is right
about a scan exactly when its link does not mislead: a superseded scan that is logged as admitted is
the one, of this ticket and this pass, by which the ticket was in (`offlineConflicts_exact`).
-/

namespace EchoAndAura

open Txn (Lock writeAll)

variable {d d' d₁ d₂ : Db} {scanId eventId : Id} {x : DoorScan}

section List

/-- What the list's joins find for a row of the log. -/
def Db.joinedScan (d : Db) (e : Sigma fun _ : Id => DoorScan) (p : DoorPass) : JoinedScan where
  scanId := e.1
  scan := e.2
  pass := p
  ticket := (e.2.ticketId.bind d.tickets.lookup).filter fun t => t.eventId == e.2.eventId
  ticketType := (((e.2.ticketId.bind d.tickets.lookup).filter fun t => t.eventId == e.2.eventId).map
    (·.ticketTypeId)).bind d.ticketTypes.lookup
  supersededScan := e.2.supersedesScanId.bind d.doorScans.lookup

theorem filter_true {α : Type} (o : Option α) : o.filter (fun _ => true) = o := by
  rcases o with _ | a <;> rfl

theorem joinedScans_eq (d : Db) : d.joinedScans =
    d.doorScans.entries.filterMap fun e => (d.doorPasses.lookup e.2.passId).map (d.joinedScan e) := by
  unfold Db.joinedScans
  simp only [Table.innerJoin_eq, Table.leftJoin_eq, List.map_filterMap, Option.map_map,
    Option.bind_some, filter_true]
  rfl

/-- Whether a row of the log is a double entry to the list. -/
structure Db.Listed (d : Db) (eventId : Id) (x : DoorScan) : Prop where
  event : x.eventId = eventId
  mode : x.mode = .offline
  verdict : x.doorVerdict = some .admitted
  result : x.result ≠ .admitted
  superseded : ∀ s, x.supersedesScanId.bind d.doorScans.lookup = some s → s.result ≠ .admitted

theorem isConflict_iff {e : Sigma fun _ : Id => DoorScan} {p : DoorPass} :
    (d.joinedScan e p).isConflict eventId = true ↔ d.Listed eventId e.2 := by
  have hsuperseded : (d.joinedScan e p).supersededScan = e.2.supersedesScanId.bind d.doorScans.lookup :=
    rfl
  unfold JoinedScan.isConflict
  rw [hsuperseded]
  constructor
  · intro h
    simp only [Bool.and_eq_true, beq_iff_eq, bne_iff_ne] at h
    obtain ⟨⟨⟨⟨hevent, hmode⟩, hverdict⟩, hresult⟩, hlink⟩ := h
    refine ⟨hevent, hmode, hverdict, hresult, fun s hs hadm => hlink ?_⟩
    rw [hs, Option.map_some, hadm]
  · rintro ⟨hevent, hmode, hverdict, hresult, hlink⟩
    simp only [Bool.and_eq_true, beq_iff_eq, bne_iff_ne]
    refine ⟨⟨⟨⟨hevent, hmode⟩, hverdict⟩, hresult⟩, fun hadm => ?_⟩
    obtain ⟨s, hs, hres⟩ := Option.map_eq_some_iff.1 hadm
    exact hlink s hs hres

/-- The scans on an event's list. -/
def Db.conflictIds (d : Db) (eventId : Id) : List Id :=
  (d.joinedScans.filter (·.isConflict eventId)).map (·.scanId)

theorem mem_conflictIds : scanId ∈ d.conflictIds eventId ↔ ∃ x, d.doorScans.lookup scanId = some x ∧
    (d.doorPasses.lookup x.passId).isSome ∧ d.Listed eventId x := by
  unfold Db.conflictIds
  rw [joinedScans_eq]
  constructor
  · intro h
    obtain ⟨s, hs, rfl⟩ := List.mem_map.1 h
    obtain ⟨hmem, hconflict⟩ := List.mem_filter.1 hs
    obtain ⟨e, he, hjoin⟩ := List.mem_filterMap.1 hmem
    obtain ⟨p, hp, rfl⟩ := Option.map_eq_some_iff.1 hjoin
    exact ⟨e.2, AList.mem_lookup_iff.2 he, by simp [hp], isConflict_iff.1 hconflict⟩
  · rintro ⟨x, hx, hpass, hlisted⟩
    obtain ⟨p, hp⟩ := Option.isSome_iff_exists.1 hpass
    have he : (⟨scanId, x⟩ : Sigma fun _ : Id => DoorScan) ∈ d.doorScans.entries :=
      AList.mem_lookup_iff.1 hx
    refine List.mem_map.2 ⟨d.joinedScan ⟨scanId, x⟩ p, List.mem_filter.2 ⟨?_, ?_⟩, rfl⟩
    · exact List.mem_filterMap.2 ⟨_, he, by simp [hp]⟩
    · exact isConflict_iff.2 hlisted

theorem conflictIds_nodup (d : Db) (eventId : Id) : (d.conflictIds eventId).Nodup := by
  have hkeys : (d.joinedScans.map (·.scanId)).Sublist (d.doorScans.entries.map (·.1)) := by
    rw [joinedScans_eq]
    induction d.doorScans.entries with
    | nil => exact .slnil
    | cons e l ih =>
      rw [List.filterMap_cons]
      rcases d.doorPasses.lookup e.2.passId with _ | p
      · exact ih.cons _
      · exact ih.cons_cons _
  exact (List.Nodup.sublist hkeys d.doorScans.nodupKeys).sublist (List.filter_sublist.map _)

theorem offlineConflicts_alone (d : Db) (eventId : Id) :
    ∃ cs, (doorService.offlineConflicts eventId).alone d = (.ok cs, d) ∧
      (cs.map (·.scanId)).Perm (d.conflictIds eventId) := by
  refine ⟨_, Svc.alone_bind_ok (Svc.alone_query _ _ d), ?_⟩
  rw [List.map_map]
  refine ((List.mergeSort_perm _ _).map _).trans ?_
  rw [List.map_map]
  rfl

end List

section Sync

variable {K : List (Lock Row)}

/-- A commit that syncs an admit the door made offline. -/
structure Syncs (d₁ d₂ : Db) (scanId : Id) (x : DoorScan) : Prop where
  fresh : d₁.doorScans.lookup scanId = none
  row : d₂.doorScans.lookup scanId = some x
  mode : x.mode = .offline
  verdict : x.doorVerdict = some .admitted

/-- The ticket is in by the very online request the scan replaced. -/
def SamePerson (x : DoorScan) (d : Db) : Prop :=
  ∃ id c s, x.ticketId = some id ∧ d.checkIn id = some c ∧
    x.supersedesScanId = some c.checkedInScanId ∧
    d.doorScans.lookup c.checkedInScanId = some s ∧ s.passId = x.passId ∧ s.mode = .online

/-- The list of `d` has the scan `x`, synced on `d₁`, once unless it admitted or it was the same
person. -/
def ListedRightly (scanId : Id) (x : DoorScan) (d₁ d : Db) : Prop :=
  ∃ cs, (doorService.offlineConflicts x.eventId).alone d = (.ok cs, d) ∧
    (scanId ∉ cs.map (·.scanId) ↔ x.result = .admitted ∨ SamePerson x d₁) ∧
    (¬(x.result = .admitted ∨ SamePerson x d₁) → (cs.map (·.scanId)).count scanId = 1)

/-- The scan names as superseded one that is logged as admitted, and that is not the one its own
ticket was in by. -/
def Misleads (x : DoorScan) (d₁ d : Db) : Prop :=
  x.result ≠ .admitted ∧ ∃ link s, x.supersedesScanId = some link ∧
    d.doorScans.lookup link = some s ∧ s.result = .admitted ∧
    (s.ticketId ≠ x.ticketId ∨ s.passId ≠ x.passId ∨ s.mode ≠ .online ∨ ¬d₁.Stands link)

theorem ScanMove.pass (h : ScanMove K d d') (fresh : d.doorScans.lookup scanId = none)
    (hx : d'.doorScans.lookup scanId = some x) : (d.doorPasses.lookup x.passId).isSome := by
  cases h with
  | same scans =>
    rw [scans, fresh] at hx
    cases hx
  | logged _ _ pass _ scans =>
    rw [scans, Table.lookup_insert_eq] at hx
    split_ifs at hx
    · obtain rfl := Option.some.inj hx
      exact pass
    · rw [fresh] at hx
      cases hx
  | admitted admission _ scans =>
    rw [scans, Table.lookup_insert_eq] at hx
    split_ifs at hx
    · obtain rfl := Option.some.inj hx
      obtain ⟨p, hp, -⟩ := admission.pass
      simp [hp]
    · rw [fresh] at hx
      cases hx

theorem SamePerson.superseded (h : SamePerson x d₁) (hd₁ : Logged d₁) (hg : Grows d₁ d) :
    ∃ s, x.supersedesScanId.bind d.doorScans.lookup = some s ∧ s.result = .admitted := by
  obtain ⟨id, c, s, -, hc, hlink, hs, -⟩ := h
  obtain ⟨s', hs', hadm, -⟩ := hd₁ id c hc
  obtain rfl := Option.some.inj (hs.symm.trans hs')
  exact ⟨s, by rw [hlink, Option.bind_some, hg.scan hs], hadm⟩

/-- A link that does not mislead is of the same person. -/
theorem samePerson_of_link {link : Id} {s : DoorScan} (hd₁ : Logged d₁) (hg : Grows d₁ d)
    (hlink : x.supersedesScanId = some link) (hs : d.doorScans.lookup link = some s)
    (hadm : s.result = .admitted) (hx : x.result ≠ .admitted) (h : ¬Misleads x d₁ d) :
    SamePerson x d₁ := by
  by_contra hother
  refine h ⟨hx, link, s, hlink, hs, hadm, ?_⟩
  by_contra hnone
  simp only [not_or, not_not] at hnone
  obtain ⟨hticket, hpass, honline, id, c, hc, rfl⟩ := hnone
  obtain ⟨s', hs', -, hid, -⟩ := hd₁ id c hc
  obtain rfl := Option.some.inj (hs.symm.trans (hg.scan hs'))
  exact hother ⟨id, c, s, hticket ▸ hid, hc, hlink, hs', hpass, honline⟩

theorem not_misleads_of_samePerson (h : SamePerson x d₁) (hd₁ : Logged d₁) (hg : Grows d₁ d) :
    ¬Misleads x d₁ d := by
  obtain ⟨id, c, s, hid, hc, hlink, hs, hpass, honline⟩ := h
  rintro ⟨-, link, s', hlink', hs', -, hdiffers⟩
  obtain rfl := Option.some.inj (hlink.symm.trans hlink')
  obtain rfl := Option.some.inj ((hg.scan hs).symm.trans hs')
  obtain ⟨s', hs', -, hid', -⟩ := hd₁ id c hc
  obtain rfl := Option.some.inj (hs.symm.trans hs')
  rcases hdiffers with hticket | hpass' | honline' | hgone
  · exact hticket (hid'.trans hid.symm)
  · exact hpass' hpass
  · exact honline' honline
  · exact hgone ⟨id, c, hc, rfl⟩

/-- A synced admit is on the list, unless it admitted or names one that did. -/
theorem mem_conflictIds_of_syncs (hpass : (d.doorPasses.lookup x.passId).isSome)
    (hx : d.doorScans.lookup scanId = some x) (hmode : x.mode = .offline)
    (hverdict : x.doorVerdict = some .admitted) : scanId ∈ d.conflictIds x.eventId ↔
      x.result ≠ .admitted ∧
        ∀ s, x.supersedesScanId.bind d.doorScans.lookup = some s → s.result ≠ .admitted := by
  rw [mem_conflictIds]
  constructor
  · rintro ⟨x', hx', -, hlisted⟩
    obtain rfl := Option.some.inj (hx.symm.trans hx')
    exact ⟨hlisted.result, hlisted.superseded⟩
  · rintro ⟨hresult, hlink⟩
    exact ⟨x, hx, hpass, rfl, hmode, hverdict, hresult, hlink⟩

theorem listedRightly_iff (hd₁ : Logged d₁) (hg : Grows d₁ d)
    (hpass : (d.doorPasses.lookup x.passId).isSome) (hx : d.doorScans.lookup scanId = some x)
    (hmode : x.mode = .offline) (hverdict : x.doorVerdict = some .admitted) :
    ListedRightly scanId x d₁ d ↔ ¬Misleads x d₁ d := by
  have hmem := mem_conflictIds_of_syncs hpass hx hmode hverdict
  obtain ⟨cs, hcs, hperm⟩ := offlineConflicts_alone d x.eventId
  constructor
  · rintro ⟨cs', hcs', hmissing, -⟩ hmis
    rw [hcs] at hcs'
    cases hcs'
    have hstate := hmis
    obtain ⟨hres, link, s, hlink, hs, hadm, -⟩ := hstate
    have hout : scanId ∉ cs.map (·.scanId) := by
      rw [hperm.mem_iff, hmem]
      rintro ⟨-, hnot⟩
      exact hnot s (by rw [hlink, Option.bind_some, hs]) hadm
    rcases hmissing.1 hout with hres' | hsame
    · exact hres hres'
    · exact not_misleads_of_samePerson hsame hd₁ hg hmis
  · intro hmis
    have hiff : scanId ∉ cs.map (·.scanId) ↔ x.result = .admitted ∨ SamePerson x d₁ := by
      rw [hperm.mem_iff, hmem]
      constructor
      · intro hout
        by_contra hneither
        simp only [not_or] at hneither
        refine hout ⟨hneither.1, fun s hs hadm => hneither.2 ?_⟩
        obtain ⟨link, hlink, hs⟩ := Option.bind_eq_some_iff.1 hs
        exact samePerson_of_link hd₁ hg hlink hs hadm hneither.1 hmis
      · rintro (hres | hsame) ⟨hres', hnot⟩
        · exact hres' hres
        · obtain ⟨s, hs, hadm⟩ := hsame.superseded hd₁ hg
          exact hnot s hs hadm
    refine ⟨cs, hcs, hiff, fun hneither => ?_⟩
    have hin : scanId ∈ cs.map (·.scanId) := by
      by_contra hout
      exact hneither (hiff.1 hout)
    exact List.count_eq_one_of_mem (hperm.nodup_iff.2 (conflictIds_nodup d x.eventId)) hin

/-- Over any run, the list of double entries is right about a synced admit exactly when its link to
the request it replaced does not mislead. -/
theorem offlineConflicts_exact (hd : Logged d) (sched : List Action) :
    ∀ e ∈ (run d sched).log, ∀ K d₁ d₂ scanId x, e.obs = .commit K d₁ d₂ →
      Syncs d₁ d₂ scanId x →
        (ListedRightly scanId x d₁ (run d sched).db ↔ ¬Misleads x d₁ (run d sched).db) := by
  intro e he K d₁ d₂ scanId x hobs hsync
  obtain ⟨l, l', hlog⟩ := List.append_of_mem he
  have hist := shop_history hd sched
  rw [hlog] at hist
  obtain ⟨d', hafter, hlater⟩ := hist.entry
  unfold Txn.Entry.After at hafter
  rw [hobs] at hafter
  obtain ⟨h₁, hgood, rfl⟩ := hafter
  have hd₁ : Logged d₁ := h₁.preserves (I := Logged) (fun _ _ _ _ _ hg => hg.logged) hd
  have hg₂ := grows_of_rely hlater
  have hg : Grows d₁ (run d sched).db := hgood.grows.trans hg₂
  have hpass : (d₁.doorPasses.lookup x.passId).isSome := by
    obtain ⟨ws, undone, heffect, rfl, -⟩ := hgood
    exact heffect.scans.pass hsync.fresh hsync.row
  obtain ⟨p, hp⟩ := Option.isSome_iff_exists.1 hpass
  obtain ⟨p', hp', -⟩ := hg.pass hp
  exact listedRightly_iff hd₁ hg (by simp [hp']) (hg₂.scan hsync.row) hsync.mode hsync.verdict

/-- The line of a record that logs a scan as `x`. -/
def Logs (scanId : Id) (x : DoorScan) (e : Entry) : Bool :=
  match e.obs with
  | .commit _ d₁ d₂ => (d₁.doorScans.lookup scanId).isNone && d₂.doorScans.lookup scanId == some x
  | _ => false

/-- The admit made offline when the answer to the scan 7 was lost, as it is synced. -/
def replacing : ScanItem := { offlineScan 9 .admitted with offline := some ⟨.admitted, some 7⟩ }

def replacedRow (prior : CheckIn) : DoorScan where
  passId := 1
  eventId := 1
  ticketId := some 1
  input := "TKT-4H8ZP2XQ"
  result := .alreadyIn
  method := .qr
  mode := .offline
  priorCheckedInAt := some prior.checkedInAt
  priorCheckedInBy := some prior.checkedInBy
  scannedAt := some (90 * minuteMs)
  receivedAt := 2 * hourMs
  doorVerdict := some .admitted
  supersedesScanId := some 7

/-- The scan 7 did admit; only its answer was lost. -/
def answerLost : List Action :=
  alone 0 (scanOf 7 1) 30 ++ alone 1 (.scans "K7QM4XPDR2TW" [replacing]) 30

theorem offlineConflicts_exact_answerLost :
    (run openingNight answerLost).log.any (Logs 9 (replacedRow ⟨2 * hourMs, "Gate A", 7⟩)) = true ∧
    (run openingNight answerLost).db.conflictIds 1 = [] ∧
    ∀ e ∈ (run openingNight answerLost).log, ∀ K d₁ d₂ scanId x, e.obs = .commit K d₁ d₂ →
      Syncs d₁ d₂ scanId x → (ListedRightly scanId x d₁ (run openingNight answerLost).db ↔
        ¬Misleads x d₁ (run openingNight answerLost).db) :=
  ⟨by decide +kernel, by decide +kernel, offlineConflicts_exact openingNight_gated.logged answerLost⟩

/-- The opening night with a second gate. -/
def gatesAB : Db :=
  { openingNight with
    doorPasses := openingNight.doorPasses.insert 2
      { eventId := 1, label := "Gate B", code := "ABCDEFGHJKMN", revokedAt := none } }

theorem gatesAB_logged : Logged gatesAB := by
  intro id c hc
  obtain ⟨s, hs, -⟩ := openingNight_gated.logged id c hc
  exact absurd hs (by simp [openingNight])

/-- Gate A's scan 7 is undone, gate B lets somebody else in by the ticket, and then gate A syncs the
admit it made offline in place of the scan 7. -/
def letInTwice : List Action :=
  alone 0 (scanOf 7 1) 30 ++ alone 1 (.undoScan "K7QM4XPDR2TW" 7 .misTap) 30 ++
    alone 2 (.scans "ABCDEFGHJKMN" [onlineScan 8]) 30 ++
    alone 3 (.scans "K7QM4XPDR2TW" [replacing]) 30

/-- The line of `letInTwice` that syncs the second guest while the first is in. -/
def LogsWhileIn (e : Entry) : Bool :=
  match e.obs with
  | .commit _ d₁ _ => (d₁.checkIn 1).map (·.checkedInScanId) == some 8
  | _ => false

/-- Two people walked in by one ticket, and no double entry is listed. -/
theorem offlineConflicts_misses : ¬ ∀ (d : Db) (sched : List Action), Logged d →
    ∀ e ∈ (run d sched).log, ∀ K d₁ d₂ scanId x, e.obs = .commit K d₁ d₂ →
      Syncs d₁ d₂ scanId x → ListedRightly scanId x d₁ (run d sched).db := by
  intro h
  have hlogs : (run gatesAB letInTwice).log.any (fun e =>
      Logs 9 (replacedRow ⟨2 * hourMs, "Gate B", 8⟩) e && LogsWhileIn e) = true := by decide +kernel
  obtain ⟨e, he, hsync⟩ := List.any_eq_true.1 hlogs
  obtain ⟨hlog, hin⟩ := Bool.and_eq_true_iff.1 hsync
  unfold Logs at hlog
  unfold LogsWhileIn at hin
  rcases hobs : e.obs with _ | ⟨K, d₁, d₂⟩ | _ | _ <;> simp only [hobs] at hlog hin
  · cases hlog
  · simp only [Bool.and_eq_true, Option.isNone_iff_eq_none, beq_iff_eq] at hlog hin
    obtain ⟨cs, hcs, hmissing, -⟩ := h gatesAB letInTwice gatesAB_logged e he K d₁ d₂ 9 _ hobs
      ⟨hlog.1, hlog.2, rfl, rfl⟩
    have hlist : ((doorService.offlineConflicts 1).alone (run gatesAB letInTwice).db).1 = .ok [] := by
      decide +kernel
    have hnil : cs = [] := by
      have hok := congrArg Prod.fst hcs
      rw [show (replacedRow ⟨2 * hourMs, "Gate B", 8⟩).eventId = 1 from rfl, hlist] at hok
      cases hok
      rfl
    rcases hmissing.1 (by simp [hnil]) with hadm | ⟨id, c, s, hid, hc, hlink, -⟩
    · cases hadm
    · cases hid
      rw [hc] at hin
      have hthis : c.checkedInScanId = 8 := by simpa using hin
      rw [hthis] at hlink
      cases hlink
  · cases hlog
  · cases hlog

end Sync

end EchoAndAura
