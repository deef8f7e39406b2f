import EchoAndAura.Proofs.Scanning

/-!
# A batch of scans

`scanBatch` answers a scan id it has answered before from its memo.  Scanning the items one after
the other instead leaves the same database and gives the same kinds of answers exactly when every
repeated scan id is the same scan each time, or not the scan in the log each time
(`scanBatch_sequence`).
-/

namespace EchoAndAura

open doorService

/-- The scans of a batch, each answered by itself. -/
def doorService.scanEach (ctx : DoorContext) : List ScanItem → Svc (List ScanResult)
  | [] => return []
  | item :: items => do
    let r ← scan ctx item
    return r :: (← scanEach ctx items)

/-- The kinds of the answers, or the error. -/
def kinds (o : Except Err (List ScanResult)) : Except Err (List ScanAnswer) := o.map (·.map (·.result))

/-- The same database, and the same kinds of answers. -/
def SameOutcome (o o' : Except Err (List ScanResult) × Db) : Prop :=
  o.2 = o'.2 ∧ kinds o.1 = kinds o'.1

/-- Every item whose scan id an earlier item of the batch used is the scan in the log under it
exactly if the first of them is. -/
def RepeatsAgree (ctx : DoorContext) : List ScanItem → List ScanItem → Db → Prop
  | _, [], _ => True
  | earlier, item :: items, d =>
    (∀ first stored, earlier.find? (·.scanId == item.scanId) = some first →
      d.doorScans.lookup item.scanId = some stored →
        sameScan ctx item stored = sameScan ctx first stored) ∧
      RepeatsAgree ctx (earlier ++ [item]) items ((scan ctx item).alone d).2

variable {ctx : DoorContext} {d d' : Db} {earlier : List ScanItem} {seen : List (Id × ScanResult)}

/-- The memo has, of every scan id used, the answer its first item would get again. -/
structure Remembers (ctx : DoorContext) (earlier : List ScanItem) (seen : List (Id × ScanResult))
    (d : Db) : Prop where
  unseen : ∀ scanId, earlier.find? (·.scanId == scanId) = none → seen.lookup scanId = none
  seen : ∀ scanId first, earlier.find? (·.scanId == scanId) = some first → ∃ r stored,
    seen.lookup scanId = some r ∧ d.doorScans.lookup scanId = some stored ∧
      r.result = again ctx first stored d

theorem kinds_cons (r : ScanResult) (o : Except Err (List ScanResult)) :
    kinds (o.map (r :: ·)) = (kinds o).map (r.result :: ·) := by
  rcases o with e | rs <;> rfl

/-- What follows an answer. -/
theorem Svc.alone_cons {s : Svc (List ScanResult)} (r : ScanResult) (d : Db) :
    (do return r :: (← s) : Svc (List ScanResult)).alone d =
      ((s.alone d).1.map (r :: ·), (s.alone d).2) := by
  rcases hs : s.alone d with ⟨e | rs, d'⟩
  · exact Svc.alone_bind_error hs
  · exact Svc.alone_bind_ok hs

theorem sameOutcome_cons {o o' : Except Err (List ScanResult) × Db} {r r' : ScanResult} :
    SameOutcome (o.1.map (r :: ·), o.2) (o'.1.map (r' :: ·), o'.2) ↔
      SameOutcome o o' ∧ (r.result = r'.result ∨ ∃ e, o'.1 = .error e) := by
  simp only [SameOutcome, kinds_cons, and_assoc]
  refine and_congr_right fun _ => ?_
  rcases o with ⟨e | rs, d⟩ <;> rcases o' with ⟨e' | rs', d'⟩
  · simp [kinds, Except.map]
  · simp [kinds, Except.map]
  · simp [kinds, Except.map]
  · simp [kinds, Except.map, and_comm]

theorem find?_concat (earlier : List ScanItem) (item : ScanItem) (scanId : Id) :
    (earlier ++ [item]).find? (·.scanId == scanId) =
      (earlier.find? (·.scanId == scanId)).or (if item.scanId = scanId then some item else none) := by
  rw [List.find?_append]
  by_cases h : item.scanId = scanId <;> simp [h]

/-- A repeat is remembered as its first item is. -/
theorem Remembers.repeated (h : Remembers ctx earlier seen d) {item first : ScanItem}
    {r : ScanResult} (hfirst : earlier.find? (·.scanId == item.scanId) = some first)
    (hr : seen.lookup item.scanId = some r) :
    Remembers ctx (earlier ++ [item]) ((item.scanId, r) :: seen) d := by
  have hlookup : ∀ scanId, ((item.scanId, r) :: seen).lookup scanId = seen.lookup scanId := by
    intro scanId
    rw [List.lookup_cons]
    split
    · rename_i heq
      rw [beq_iff_eq.1 heq, hr]
    · rfl
  refine ⟨fun scanId hnone => ?_, fun scanId first' hsome => ?_⟩
  · rw [find?_concat, Option.or_eq_none_iff] at hnone
    rw [hlookup]
    exact h.unseen scanId hnone.1
  · rw [hlookup]
    refine h.seen scanId first' ?_
    rw [find?_concat] at hsome
    rcases hf : earlier.find? (·.scanId == scanId) with _ | f
    · rw [hf, Option.none_or] at hsome
      split_ifs at hsome with heq
      rw [heq, hf] at hfirst
      cases hfirst
    · rw [hf, Option.some_or] at hsome
      exact hf.trans hsome

/-- A scan id used for the first time is remembered with its answer. -/
theorem Remembers.first (h : Remembers ctx earlier seen d) {item : ScanItem} {r : ScanResult}
    {stored : DoorScan} (hnew : earlier.find? (·.scanId == item.scanId) = none)
    (hstored : d'.doorScans.lookup item.scanId = some stored)
    (hr : r.result = again ctx item stored d')
    (hothers : ∀ first stored, first.scanId ≠ item.scanId →
      d.doorScans.lookup first.scanId = some stored →
        d'.doorScans.lookup first.scanId = some stored ∧
          again ctx first stored d' = again ctx first stored d) :
    Remembers ctx (earlier ++ [item]) ((item.scanId, r) :: seen) d' := by
  refine ⟨fun scanId hnone => ?_, fun scanId first hsome => ?_⟩
  · rw [find?_concat, Option.or_eq_none_iff] at hnone
    have heq : item.scanId ≠ scanId := fun heq => by simp [heq] at hnone
    rw [List.lookup_cons, show (scanId == item.scanId) = false by simpa using heq.symm]
    exact h.unseen scanId hnone.1
  · rw [find?_concat] at hsome
    rw [List.lookup_cons]
    by_cases heq : item.scanId = scanId
    · subst heq
      rw [hnew, Option.none_or, if_pos rfl] at hsome
      obtain rfl := Option.some.inj hsome
      exact ⟨r, stored, by simp, hstored, hr⟩
    · rw [if_neg heq, Option.or_none] at hsome
      have hid : first.scanId = scanId := by simpa using List.find?_some hsome
      obtain ⟨r', stored', hseen, hlog, hagain⟩ := h.seen scanId first hsome
      subst hid
      obtain ⟨hkept, hstill⟩ := hothers first stored' (Ne.symm heq) hlog
      rw [show (first.scanId == item.scanId) = false by simpa using Ne.symm heq]
      exact ⟨r', stored', hseen, hkept, hagain.trans hstill.symm⟩

/-- A scan id used for the first time is answered by a scan, which is remembered; or the scan
fails. -/
theorem Remembers.scan (h : Remembers ctx earlier seen d) {item : ScanItem}
    (hfirst : earlier.find? (·.scanId == item.scanId) = none) :
    (∃ e, (scan ctx item).alone d = (.error e, d)) ∨ ∃ r d', (scan ctx item).alone d = (.ok r, d') ∧
      Remembers ctx (earlier ++ [item]) ((item.scanId, r) :: seen) d' := by
  rcases hlog : d.doorScans.lookup item.scanId with _ | stored
  · rcases scan_new ctx hlog with ⟨e, he, -⟩ | ⟨r, d', hr, hans⟩
    · exact .inl ⟨e, he⟩
    · have hstored : d'.doorScans.lookup item.scanId = some (logged ctx item d) := by
        rw [hans.scans]
        exact AList.lookup_insert d.doorScans
      refine .inr ⟨r, d', hr, h.first hfirst hstored ?_ fun f s hne hs => ?_⟩
      · rw [hans.again_self, hans.result]
      · refine ⟨?_, hans.again_other hne⟩
        rw [hans.scans, AList.lookup_insert_ne hne, hs]
  · obtain ⟨r, hr, hres, -⟩ := scan_known ctx hlog
    exact .inr ⟨r, d, hr, h.first hfirst hlog hres fun _ _ _ hs => ⟨hs, rfl⟩⟩

theorem map_cons_error {o : Except Err (List ScanResult)} {r : ScanResult} :
    (∃ e, o.map (r :: ·) = .error e) ↔ ∃ e, o = .error e := by
  rcases o with e | rs <;> simp [Except.map]

theorem scanBatch_from : ∀ {items earlier : List ScanItem} {seen : List (Id × ScanResult)} {d : Db},
    Remembers ctx earlier seen d →
      (SameOutcome ((scanBatch ctx items seen).alone d) ((scanEach ctx items).alone d) ↔
        (∃ e, ((scanEach ctx items).alone d).1 = .error e) ∨ RepeatsAgree ctx earlier items d)
  | [], earlier, seen, d, _ => iff_of_true ⟨rfl, rfl⟩ (.inr trivial)
  | item :: items, earlier, seen, d, h => by
    unfold scanBatch scanEach RepeatsAgree
    rcases hfirst : earlier.find? (·.scanId == item.scanId) with _ | first
    · rw [h.unseen item.scanId hfirst]
      dsimp only
      rcases h.scan hfirst with ⟨e, he⟩ | ⟨r, d', hr, hrem⟩
      · rw [Svc.alone_bind_error he, Svc.alone_bind_error he]
        exact iff_of_true ⟨rfl, rfl⟩ (.inl ⟨e, rfl⟩)
      · have ih := @scanBatch_from items _ _ _ hrem
        rw [Svc.alone_bind_ok hr, Svc.alone_bind_ok hr, hr, Svc.alone_cons, Svc.alone_cons,
          sameOutcome_cons, ih, map_cons_error]
        simp [hfirst]
    · obtain ⟨r, stored, hseen, hlog, hr⟩ := h.seen item.scanId first hfirst
      have hid : first.scanId = item.scanId := by simpa using List.find?_some hfirst
      obtain ⟨r', hscan, hr', -⟩ := scan_known ctx hlog
      have ih := @scanBatch_from items _ _ _ (h.repeated hfirst hseen)
      rw [hseen]
      dsimp only
      rw [Svc.alone_bind_ok (Svc.alone_pure r d), Svc.alone_bind_ok hscan, hscan, Svc.alone_cons,
        Svc.alone_cons, sameOutcome_cons, ih, hr, hr', map_cons_error]
      have hcond : again ctx first stored d = again ctx item stored d ↔
          sameScan ctx item stored = sameScan ctx first stored := eq_comm.trans (again_inj hid)
      rw [hcond]
      simp only [hfirst, hlog, Option.some.injEq, forall_apply_eq_imp_iff, forall_eq']
      rw [or_and_left, and_comm]
      exact and_congr_left fun _ => or_comm

/-- A batch does what its scans do one after the other, exactly when no scan id in it is used for
something else than its first item; or when the batch fails. -/
theorem scanBatch_sequence (ctx : DoorContext) (items : List ScanItem) (d : Db) :
    SameOutcome ((scanBatch ctx items []).alone d) ((scanEach ctx items).alone d) ↔
      (∃ e, ((scanEach ctx items).alone d).1 = .error e) ∨ RepeatsAgree ctx [] items d :=
  scanBatch_from ⟨fun _ _ => rfl, fun _ _ h => by cases h⟩

/-- Gate A on the opening night, its doors open. -/
def gateA : DoorContext where
  passId := 1
  pass := { eventId := 1, label := "Gate A", code := "K7QM4XPDR2TW", revokedAt := none }
  eventId := 1
  event := gala
  window := doorWindow gala
  practice := false

/-- A scan of the one ticket made offline. -/
def offlineScan (scanId : Id) (verdict : DoorVerdict) : ScanItem where
  scanId := scanId
  input := some "TKT-4H8ZP2XQ"
  ticketId := none
  phoneLast3 := none
  method := .qr
  scannedAt := some (90 * minuteMs)
  offline := some { verdict, supersedesScanId := none }

/-- Sent again as undone, an admission is answered as an admission again. -/
theorem scanBatch_hidesConflict : ¬ ∀ (ctx : DoorContext) (items : List ScanItem) (d : Db),
    SameOutcome ((scanBatch ctx items []).alone d) ((scanEach ctx items).alone d) := by
  intro h
  have hkinds := (h gateA [offlineScan 8 .admitted, offlineScan 8 .undone] openingNight).2
  have hbatch : kinds ((scanBatch gateA [offlineScan 8 .admitted, offlineScan 8 .undone] []).alone
      openingNight).1 = .ok [.logged .admitted, .logged .admitted] := by decide +kernel
  have heach : kinds ((scanEach gateA [offlineScan 8 .admitted, offlineScan 8 .undone]).alone
      openingNight).1 = .ok [.logged .admitted, .scanIdConflict] := by decide +kernel
  rw [hbatch, heach] at hkinds
  cases hkinds

end EchoAndAura
