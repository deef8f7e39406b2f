import EchoAndAura.Proofs.Batch
import EchoAndAura.Proofs.Remembers

/-!
# What an answered batch acknowledges

An answered batch stamps the mark of every ticket it names, whatever its scan was and whatever the
server said to it.  So a stamp means that the server has the check-in exactly when each scan of the
batch is of a ticket that is in, or that the phone holds no unstamped mark of
(`answered_acknowledges`).
-/

namespace EchoAndAura

variable {κ : Type} [DecidableEq κ]

def Mark.acknowledge (now : Time) (m : Mark) : Mark :=
  if m.knownSince.isNone then { m with knownSince := some now } else m

namespace Phone

variable {p : Phone κ} {T : κ} {now : Time}

/-- The phone once its batch, in flight, is answered. -/
def answered (p : Phone κ) (batch : List (OutboxItem κ)) (now : Time) (reply : SyncReply) :
    Phone κ :=
  { p with running := some (.inFlight batch) }.batchReply now reply

theorem acknowledge_acknowledge (m : Mark) : (m.acknowledge now).acknowledge now =
    m.acknowledge now := by
  unfold Mark.acknowledge
  split_ifs with h h'
  · simp at h'
  · rfl
  · rfl

theorem mark_nowKnown (p : Phone κ) (i : OutboxItem κ) : (p.nowKnown now i).mark T =
    if i.ticketId = some T then (p.mark T).map (·.acknowledge now) else p.mark T := by
  unfold nowKnown
  split
  next id hid =>
    rw [hid]
    by_cases heq : id = T
    · subst heq
      rw [if_pos rfl]
      split
      next m hm =>
        rw [hm, Option.map_some]
        unfold Mark.acknowledge
        split_ifs
        · rw [mark_setMark, if_pos rfl]
        · exact hm
      next hm => rw [hm, Option.map_none]
    · rw [if_neg (by simpa using heq)]
      split
      · split_ifs
        · rw [mark_setMark, if_neg (Ne.symm heq)]
        · rfl
      · rfl
  next hnone => rw [hnone, if_neg (by simp)]

/-- The batch stamps each ticket it names. -/
theorem mark_nowKnowns : ∀ (batch : List (OutboxItem κ)) (p : Phone κ),
    (batch.foldl (nowKnown now) p).mark T =
      if ∃ i ∈ batch, i.ticketId = some T then (p.mark T).map (·.acknowledge now) else p.mark T
  | [], p => by simp
  | i :: batch, p => by
    rw [List.foldl_cons, mark_nowKnowns batch, mark_nowKnown]
    by_cases hi : i.ticketId = some T
    · have hcons : ∃ j ∈ i :: batch, j.ticketId = some T := ⟨i, List.mem_cons_self, hi⟩
      rw [if_pos hi, if_pos hcons, Option.map_map]
      split_ifs
      · exact congrArg (Option.map · (p.mark T)) (funext acknowledge_acknowledge)
      · rfl
    · simp [hi]

theorem mark_answered (p : Phone κ) (batch : List (OutboxItem κ)) (reply : SyncReply) :
    (p.answered batch now reply).mark T =
      if reply = .ok ∧ ∃ i ∈ batch, i.ticketId = some T then (p.mark T).map (·.acknowledge now)
      else p.mark T := by
  unfold answered batchReply
  cases reply with
  | ok =>
    simp only [true_and]
    exact mark_nowKnowns batch
      { p with
        running := some (.inFlight batch)
        inFlight := p.inFlight.filter (!(batch.map (·.scanId)).contains ·) }
  | refused => rw [if_neg (by simp)]; rfl
  | unheard => rw [if_neg (by simp)]; rfl

/-- No list drops a mark that nothing has acknowledged. -/
theorem adopt_keeps {m : Mark} (hm : p.mark T = some m) (hnone : m.knownSince = none)
    (l : OfflineList κ) : (p.adopt l).mark T ≠ none := by
  rcases mark_adopt p l T with ⟨-, m', hm', -⟩ | ⟨-, hmark⟩
  · rw [hm']
    exact Option.some_ne_none m'
  · rw [hmark, hm, Option.any_some, hnone, if_neg (by simp [listCovers])]
    exact Option.some_ne_none m

end Phone

/-- From `p` to `p'`, a mark of a ticket that is not in stays without its stamp, and no list
drops it. -/
def Acknowledges (d : Db) (p p' : Phone Id) : Prop :=
  ∀ id m, p.mark id = some m → m.knownSince = none → d.checkIn id = none →
    (∃ m', p'.mark id = some m' ∧ m'.knownSince = none) ∧ ∀ l, (p'.adopt l).mark id ≠ none

theorem answered_acknowledges (d : Db) (p : Phone Id) (batch : List (OutboxItem Id)) (now : Time)
    (reply : Phone.SyncReply) :
    Acknowledges d p (p.answered batch now reply) ↔
      (reply = .ok → ∀ i ∈ batch, ∀ id m, i.ticketId = some id → p.mark id = some m →
        m.knownSince = none → (d.checkIn id).isSome) := by
  constructor
  · intro h hok i hi id m hid hm hnone
    by_contra hin
    obtain ⟨⟨m', hm', hnone'⟩, -⟩ := h id m hm hnone (by simpa using hin)
    rw [Phone.mark_answered, if_pos ⟨hok, i, hi, hid⟩, hm, Option.map_some] at hm'
    rw [← Option.some.inj hm'] at hnone'
    unfold Mark.acknowledge at hnone'
    rw [hnone] at hnone'
    cases hnone'
  · intro h id m hm hnone hout
    have hmark : (p.answered batch now reply).mark id = some m := by
      rw [Phone.mark_answered, if_neg, hm]
      rintro ⟨hok, i, hi, hid⟩
      have hin := h hok i hi id m hid hm hnone
      rw [hout] at hin
      cases hin
    exact ⟨⟨m, hmark, hnone⟩, fun l => Phone.adopt_keeps hmark hnone l⟩

section Evening

/-- Gate B has told through the relay that the guest is in; the server has not heard of it. -/
def toldByGateB : Phone Id :=
  ({ Phone.start 1 "Gate A" with list := some (guestList 0) } : Phone Id).setMark 1 {
    at_ := 85 * minuteMs, gate := "Gate B", byThisPhone := false, knownSince := none
    source := .relay }

/-- The guest is turned away here as already in. -/
def refusal : OutboxItem Id where
  scanId := 8
  passId := 1
  method := .qr
  input := "TKT-4H8ZP2XQ"
  scannedAt := 90 * minuteMs
  verdict := .refused
  supersedesScanId := none
  attempted := true
  ticketId := some 1
  attendeeName := some "Guest"
  ticketTypeName := some "Standard"

/-- The server logs the refusal and lets nobody in, and yet the next list forgets the guest. -/
theorem answered_stampsClaim : ¬ ∀ (d : Db) (p : Phone Id) (batch : List (OutboxItem Id))
    (now : Time) (reply : Phone.SyncReply), Acknowledges d p (p.answered batch now reply) := by
  intro h
  have hout : ((doorService.scanBatch gateA [offlineScan 8 .refused] []).alone openingNight).2.checkIn
      1 = none := by decide +kernel
  have hdropped : ((toldByGateB.answered [refusal] (91 * minuteMs) .ok).adopt
      (guestList (92 * minuteMs))).mark 1 = none := by decide +kernel
  obtain ⟨-, hkept⟩ := h _ toldByGateB [refusal] (91 * minuteMs) .ok 1 _ rfl rfl hout
  exact hkept (guestList (92 * minuteMs)) hdropped

end Evening

end EchoAndAura
