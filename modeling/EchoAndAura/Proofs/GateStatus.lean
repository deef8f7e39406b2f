import EchoAndAura.GateStatus
import EchoAndAura.Cursor
import EchoAndAura.Proofs.OfflineDoor
import EchoAndAura.Proofs.Race
import EchoAndAura.Stepwise

/-!
# What the status pings deliver

An ask covers what came since the newest answer, or since the list was made, as long as no check-in
comes with a time before the cut that is in force and no answer is cut off at its limit.  Then every
check-in that an answer's read found is one the phone was told of (`pings_tell`).
-/

namespace EchoAndAura

open Cursor

/-- Rows at their time. -/
abbrev WireCheckIn.time (c : WireCheckIn Id) : Time := c.at_

/-- Every ticket of the event has its type and its order. -/
def Db.Joined (d : Db) (eventId : Id) : Prop :=
  ∀ e ∈ d.tickets.entries, e.2.eventId = eventId → (d.offlineRow e).isSome

/-- The cut that is in force for an ask: what it asked with, or what its answer will leave. -/
def StatusAsk.cut (a : StatusAsk) : Option Time :=
  match a.stage with
  | .sent => a.since
  | .read _ => none
  | .answered _ serverTime => some (serverTime - checkinsOverlapMs)

/-- The time a list on its way stands for, once its tickets were read. -/
def Download.cut : Download → Option Time
  | .asked _ => none
  | .read l => some l.serverTime

namespace DoorGate

/-- The cuts in force. -/
def cuts (g : DoorGate) : List Time :=
  g.checkInsSince.toList ++ (g.phone.list.map (·.serverTime)).toList ++
    (g.download.bind (·.cut)).toList ++
      (g.asks.filter (·.seq == g.statusSeq)).filterMap (·.cut)

end DoorGate

/-- No check-in comes with a time before a cut in force, and no answer is cut off. -/
def DoorGateEvent.Timely (ctx : DoorContext) (g : DoorGate) : DoorGateEvent → Prop
  | .commit d => ∀ cut ∈ g.cuts,
      ComesAfter WireCheckIn.time (g.db.standing ctx.eventId) (d.standing ctx.eventId) cut
  | .downloadRead _ => g.db.Joined ctx.eventId
  | .read seq => seq = g.statusSeq → ∀ a ∈ g.asks, a.seq = seq → ∀ s, a.since = some s →
      (Cursor.answer WireCheckIn.time (g.db.standing ctx.eventId) s).length ≤ doorCheckinsLimit
  | .answer seq => seq = g.statusSeq → ∀ a ∈ g.asks, a.seq = seq → ∀ there, a.stage = .read there →
      ComesAfter WireCheckIn.time there (g.db.standing ctx.eventId) (g.db.clock - checkinsOverlapMs)
  | _ => True

/-- The reply to the newest ping leaves no check-in of another gate untold that its read found. -/
def DoorGate.MissesNone (ctx : DoorContext) (g : DoorGate) : Prop :=
  ∀ now s t found,
    g.asks.find? (·.seq == g.statusSeq) = some ⟨g.statusSeq, some s, .answered found t⟩ →
      ∀ c ∈ found, c.gate ≠ some ctx.pass.label → c ∈ (g.hearReply g.statusSeq now).told

/-- What an ask will give, at each of its stages. -/
def AskStage.Sound (there told : List (WireCheckIn Id)) (s : Time) : AskStage → Prop
  | .sent => Covers WireCheckIn.time there told s
  | .read found => Covers WireCheckIn.time found told s ∧
      (answer WireCheckIn.time found s).length ≤ doorCheckinsLimit
  | .answered found serverTime => Covers WireCheckIn.time found told s ∧
      (answer WireCheckIn.time found s).length ≤ doorCheckinsLimit ∧
        ComesAfter WireCheckIn.time found there (serverTime - checkinsOverlapMs)

/-- Every cut in force covers the event's check-ins. -/
structure DoorGate.Sound (eventId : Id) (g : DoorGate) : Prop where
  since : ∀ s, g.checkInsSince = some s → Covers WireCheckIn.time (g.db.standing eventId) g.told s
  list : ∀ l, g.phone.list = some l →
    Covers WireCheckIn.time (g.db.standing eventId) g.told l.serverTime
  bounded : ∀ a ∈ g.asks, a.seq ≤ g.statusSeq
  asks : ∀ a ∈ g.asks, a.seq = g.statusSeq → ∀ s, a.since = some s →
    a.stage.Sound (g.db.standing eventId) g.told s
  download : ∀ l, g.download = some (.read l) →
    Covers WireCheckIn.time (g.db.standing eventId) ((PhoneEvent.list l).tells.getD []) l.serverTime

section Rows

variable {there : List (WireCheckIn Id)} {s : Time}

/-- An answer that is not cut off has every row. -/
theorem mem_checkInsAfter {limit : Nat} (h : (answer WireCheckIn.time there s).length ≤ limit)
    {c : WireCheckIn Id} :
    c ∈ checkInsAfter there s limit ↔ c ∈ answer WireCheckIn.time there s := by
  have hlength :
      ((there.filter (s < ·.at_)).mergeSort fun c c' => c.at_ ≤ c'.at_).length ≤ limit := by
    rw [List.length_mergeSort]
    exact h
  rw [checkInsAfter, List.take_of_length_le hlength, List.mem_mergeSort]
  rfl

end Rows

section Steps

variable {digest : String → String → String} {nameLe : String → String → Bool} {ctx : DoorContext}
  {g : DoorGate}

theorem AskStage.Sound.mono {there told told' : List (WireCheckIn Id)} {s : Time} {stage : AskStage}
    (h : stage.Sound there told s) (htold : told ⊆ told') : stage.Sound there told' s := by
  cases stage with
  | sent => exact Covers.mono h htold
  | read found => exact ⟨h.1.mono htold, h.2⟩
  | answered found serverTime => exact ⟨h.1.mono htold, h.2⟩

theorem told_stretch (g : DoorGate) (e : PhoneEvent Id) :
    (g.stretch e).told = g.told ++ e.tells.getD [] := by
  unfold DoorGate.stretch DoorGate.told
  rw [List.flatMap_append, List.flatMap_singleton]

theorem told_sub (g : DoorGate) (e : PhoneEvent Id) : g.told ⊆ (g.stretch e).told := by
  rw [told_stretch]
  exact List.subset_append_left _ _

/-- A list has the check-ins of the tickets it was read from. -/
theorem tells_offlineListOf {d : Db} (hjoined : d.Joined ctx.eventId) (salt : String)
    (asOf : Time) :
    ∀ c ∈ d.standing ctx.eventId,
      c ∈ (PhoneEvent.list (offlineListOf digest nameLe ctx salt asOf d)).tells.getD [] := by
  intro c hc
  obtain ⟨e, he, hcheckIn⟩ := List.mem_filterMap.1 hc
  obtain ⟨i, hi, rfl⟩ := Option.map_eq_some_iff.1 hcheckIn
  obtain ⟨hmem, hevent⟩ := List.mem_filter.1 he
  obtain ⟨row, hrow⟩ := Option.isSome_iff_exists.1 (hjoined e hmem (beq_iff_eq.1 hevent))
  have hfields : row.id = e.1 ∧ row.checkIn = e.2.checkIn := by
    unfold Db.offlineRow at hrow
    simp only [Option.bind_eq_bind, Option.bind_eq_some_iff, Option.some.injEq] at hrow
    obtain ⟨_, _, _, _, rfl⟩ := hrow
    exact ⟨rfl, rfl⟩
  refine List.mem_filterMap.2 ⟨row.entry digest salt, ?_, ?_⟩
  · refine List.mem_map_of_mem ((List.mem_insertionSort _).2 ?_)
    exact List.mem_filterMap.2 ⟨e, he, hrow⟩
  · simp only [OfflineListRow.entry, hfields.1, hfields.2, hi, Option.map_some]

/-- A stretch that tells nothing leaves every cut covered. -/
theorem DoorGate.Sound.stretch (h : g.Sound ctx.eventId) {e : PhoneEvent Id} (he : e.tells = none) :
    (g.stretch e).Sound ctx.eventId := by
  have htold : (g.stretch e).told = g.told := by
    rw [told_stretch, he, Option.getD_none, List.append_nil]
  have hlist : (g.stretch e).phone.list = g.phone.list := by
    rcases Phone.list_step g.phone e with hlist | ⟨l, rfl, -⟩
    · exact hlist
    · cases he
  refine ⟨fun s hs => ?_, fun l hl => ?_, h.bounded, fun a ha hseq s hs => ?_, h.download⟩
  · rw [htold]
    exact h.since s hs
  · rw [htold]
    exact h.list l (hlist ▸ hl)
  · rw [htold]
    exact h.asks a ha hseq s hs

theorem DoorGate.Sound.commit (h : g.Sound ctx.eventId) {d : Db}
    (ht : (DoorGateEvent.commit d).Timely ctx g) :
    ({ g with db := d } : DoorGate).Sound ctx.eventId := by
  have hcut : ∀ {given : List (WireCheckIn Id)} {cut : Time}, cut ∈ g.cuts →
      Covers WireCheckIn.time (g.db.standing ctx.eventId) given cut →
        Covers WireCheckIn.time (d.standing ctx.eventId) given cut :=
    fun hmem hcovers => hcovers.change (ht _ hmem)
  refine ⟨fun s hs => hcut ?_ (h.since s hs), fun l hl => hcut ?_ (h.list l hl), h.bounded,
    fun a ha hseq s hs => ?_, fun l hl => hcut ?_ (h.download l hl)⟩
  · simp only [DoorGate.cuts, List.mem_append]
    exact .inl (.inl (.inl (by simp [show g.checkInsSince = some s from hs])))
  · simp only [DoorGate.cuts, List.mem_append]
    exact .inl (.inl (.inr (by simp [show g.phone.list = some l from hl])))
  · have hmem : ∀ cut, a.cut = some cut → cut ∈ g.cuts := fun cut hc => by
      simp only [DoorGate.cuts, List.mem_append]
      exact .inr (List.mem_filterMap.2 ⟨a, List.mem_filter.2 ⟨ha, beq_iff_eq.2 hseq⟩, hc⟩)
    have hsound := h.asks a ha hseq s hs
    obtain ⟨n, since, stage⟩ := a
    cases stage with
    | sent => exact hcut (hmem s hs) hsound
    | read found => exact hsound
    | answered found t =>
      obtain ⟨hcovers, hlimit, hafter⟩ := hsound
      refine ⟨hcovers, hlimit, fun c hc hnew => ?_⟩
      by_cases hbefore : c ∈ g.db.standing ctx.eventId
      · exact hafter c hbefore hnew
      · exact ht _ (hmem _ rfl) c hc hbefore
  · simp only [DoorGate.cuts, List.mem_append]
    exact .inl (.inr (by simp [show g.download = some (.read l) from hl, Download.cut]))

theorem DoorGate.Sound.ask (h : g.Sound ctx.eventId) :
    (g.step digest nameLe ctx .ask).Sound ctx.eventId := by
  refine ⟨h.since, h.list, fun a ha => ?_, fun a ha hseq s hs => ?_, h.download⟩
  · rcases List.mem_append.1 ha with ha | ha
    · exact Nat.le_succ_of_le (h.bounded a ha)
    · rw [List.mem_singleton.1 ha]
      exact Nat.le_refl _
  · rcases List.mem_append.1 ha with ha | ha
    · have hle := h.bounded a ha
      have hseq : a.seq = g.statusSeq + 1 := hseq
      omega
    · have hnew := List.mem_singleton.1 ha
      subst hnew
      have hs : g.nextSince = some s := hs
      show Covers WireCheckIn.time (g.db.standing ctx.eventId) g.told s
      unfold DoorGate.nextSince at hs
      rcases hsince : g.checkInsSince with _ | s'
      · rw [hsince, Option.none_or] at hs
        obtain ⟨l, hl, rfl⟩ := Option.map_eq_some_iff.1 hs
        exact h.list l hl
      · rw [hsince, Option.some_or] at hs
        rw [← Option.some.inj hs]
        exact h.since s' hsince

/-- What a step of one ask does to the rest is nothing. -/
theorem DoorGate.Sound.onAsk (h : g.Sound ctx.eventId) (seq : Nat) {f : StatusAsk → StatusAsk}
    (hf : ∀ a, (f a).seq = a.seq ∧ (f a).since = a.since)
    (hsound : seq = g.statusSeq → ∀ a ∈ g.asks, a.seq = seq → ∀ s, a.since = some s →
      a.stage.Sound (g.db.standing ctx.eventId) g.told s →
        (f a).stage.Sound (g.db.standing ctx.eventId) g.told s) :
    (g.onAsk seq f).Sound ctx.eventId := by
  refine ⟨h.since, h.list, fun a ha => ?_, fun a ha hseq s hs => ?_, h.download⟩
  · obtain ⟨b, hb, rfl⟩ := List.mem_map.1 ha
    split_ifs
    · rw [(hf b).1]
      exact h.bounded b hb
    · exact h.bounded b hb
  · obtain ⟨b, hb, rfl⟩ := List.mem_map.1 ha
    split_ifs at hseq hs ⊢ with hthis
    · rw [(hf b).1] at hseq
      rw [(hf b).2] at hs
      exact hsound (hthis.symm.trans hseq) b hb hthis s hs (h.asks b hb hseq s hs)
    · exact h.asks b hb hseq s hs

theorem DoorGate.Sound.read (h : g.Sound ctx.eventId) {seq : Nat}
    (ht : (DoorGateEvent.read seq).Timely ctx g) :
    (g.step digest nameLe ctx (.read seq)).Sound ctx.eventId := by
  refine h.onAsk seq (fun a => ?_) fun hseq a ha hthis s hs hsound => ?_
  · unfold StatusAsk.readAt
    split <;> exact ⟨rfl, rfl⟩
  · obtain ⟨n, since, stage⟩ := a
    cases stage with
    | sent => exact ⟨hsound, ht hseq _ ha hthis s hs⟩
    | _ => exact hsound

theorem DoorGate.Sound.answer (h : g.Sound ctx.eventId) {seq : Nat}
    (ht : (DoorGateEvent.answer seq).Timely ctx g) :
    (g.step digest nameLe ctx (.answer seq)).Sound ctx.eventId := by
  refine h.onAsk seq (fun a => ?_) fun hseq a ha hthis s hs hsound => ?_
  · unfold StatusAsk.answerAt
    split <;> exact ⟨rfl, rfl⟩
  · obtain ⟨n, since, stage⟩ := a
    cases stage with
    | read found => exact ⟨hsound.1, hsound.2, ht hseq _ ha hthis found rfl⟩
    | _ => exact hsound

theorem DoorGate.Sound.downloaded (h : g.Sound ctx.eventId) :
    (g.step digest nameLe ctx .downloaded).Sound ctx.eventId := by
  unfold DoorGate.step
  dsimp only
  split
  · next l hdownload =>
    have htold := told_sub g (.list l)
    refine ⟨fun s hs => (h.since s hs).mono htold, fun l' hl' => ?_, h.bounded,
      fun a ha hseq s hs => (h.asks a ha hseq s hs).mono htold, fun l' hl' => nomatch hl'⟩
    have hl' : (g.phone.adopt l).list = some l' := hl'
    rw [Phone.list_adopt] at hl'
    rw [← Option.some.inj hl']
    refine (h.download l hdownload).mono ?_
    show _ ⊆ (g.stretch (.list l)).told
    rw [told_stretch]
    exact List.subset_append_right _ _
  · exact h

/-- What a reply that counts tells the phone, and the cut it leaves. -/
theorem DoorGate.hearReply_eq {seq : Nat} {now s t : Time} {found : List (WireCheckIn Id)}
    (hask : g.asks.find? (·.seq == g.statusSeq) = some ⟨seq, some s, .answered found t⟩) :
    g.hearReply g.statusSeq now =
      { ({ g with asks := g.asks.filter (·.seq != g.statusSeq) } : DoorGate).stretch
          (.checkIns now (checkInsAfter found s doorCheckinsLimit)) with
        checkInsSince := some (t - checkinsOverlapMs) } := by
  unfold DoorGate.hearReply
  rw [hask]
  dsimp only
  rw [if_neg (by simp)]

theorem DoorGate.Sound.forget (h : g.Sound ctx.eventId) (seq : Nat) :
    ({ g with asks := g.asks.filter (·.seq != seq) } : DoorGate).Sound ctx.eventId :=
  ⟨h.since, h.list, fun a ha => h.bounded a (List.mem_of_mem_filter ha),
    fun a ha => h.asks a (List.mem_of_mem_filter ha), h.download⟩

/-- A reply that counts completes what the phone was told of what its read found. -/
theorem DoorGate.Sound.told_reply (h : g.Sound ctx.eventId) {seq : Nat} {s t : Time}
    {found : List (WireCheckIn Id)}
    (hask : g.asks.find? (·.seq == g.statusSeq) = some ⟨seq, some s, .answered found t⟩) :
    ∀ c ∈ found, c ∈ g.told ∨ c ∈ checkInsAfter found s doorCheckinsLimit := by
  have hseq : seq = g.statusSeq := by simpa using List.find?_some hask
  obtain ⟨hcovers, hlimit, -⟩ := h.asks _ (List.mem_of_find?_eq_some hask) hseq s rfl
  exact fun c hc => (hcovers.answer c hc).imp_right (mem_checkInsAfter hlimit).2

theorem DoorGate.Sound.hearReply (h : g.Sound ctx.eventId) (seq : Nat) (now : Time) :
    (g.hearReply seq now).Sound ctx.eventId := by
  by_cases hcounts : seq = g.statusSeq
  · subst hcounts
    rcases hask : g.asks.find? (·.seq == g.statusSeq) with _ | ⟨n, since, stage⟩
    · unfold DoorGate.hearReply
      rw [hask]
      exact h
    · cases stage with
      | answered found t =>
        cases since with
        | none =>
          unfold DoorGate.hearReply
          rw [hask]
          dsimp only
          rw [if_neg (by simp)]
          exact h.forget _
        | some s =>
          rw [DoorGate.hearReply_eq hask]
          generalize hrows : checkInsAfter found s doorCheckinsLimit = rows
          have hforget := h.forget g.statusSeq
          have htold := told_sub
            ({ g with asks := g.asks.filter (·.seq != g.statusSeq) } : DoorGate)
            (.checkIns now rows)
          have hseq : n = g.statusSeq := by simpa using List.find?_some hask
          obtain ⟨-, -, hafter⟩ := h.asks _ (List.mem_of_find?_eq_some hask) hseq s rfl
          refine ⟨fun s' hs' => ?_, fun l hl => ?_, hforget.bounded, fun a ha hthis => ?_,
            h.download⟩
          · rw [← Option.some.inj hs']
            refine Covers.next (fun c hc => ?_) hafter
            show c ∈ (DoorGate.stretch { g with asks := _ } (.checkIns now rows)).told
            rw [told_stretch]
            rcases h.told_reply hask c hc with hin | hin
            · exact List.mem_append_left _ hin
            · exact List.mem_append_right _ (hrows ▸ hin)
          · have hl : (g.phone.learnCheckIns now rows).list = some l := hl
            rw [Phone.learnCheckIns, Phone.list_foldl (Phone.list_learnCheckIn now) rows] at hl
            exact (hforget.list l hl).mono htold
          · have hne := (List.mem_filter.1 ha).2
            have hthis : a.seq = g.statusSeq := hthis
            simp [hthis] at hne
      | _ =>
        unfold DoorGate.hearReply
        rw [hask]
        exact h
  · unfold DoorGate.hearReply
    split
    · rw [if_pos hcounts]
      exact h.forget seq
    · exact h

theorem DoorGate.sound_step (h : g.Sound ctx.eventId) (e : DoorGateEvent) (ht : e.Timely ctx g) :
    (g.step digest nameLe ctx e).Sound ctx.eventId := by
  cases e with
  | commit d => exact h.commit ht
  | stretch e =>
    show (if e.tells.isSome then g else g.stretch e).Sound ctx.eventId
    split_ifs with htells
    · exact h
    · exact h.stretch (by simpa using htells)
  | downloadAsked =>
    show (if g.download.isSome then g else _ : DoorGate).Sound ctx.eventId
    split_ifs
    · exact h
    · exact ⟨h.since, h.list, h.bounded, h.asks, fun l hl => nomatch hl⟩
  | downloadRead salt =>
    unfold DoorGate.step
    dsimp only
    split
    · next asOf _ =>
      refine ⟨h.since, h.list, h.bounded, h.asks, fun l hl => ?_⟩
      have hlist := Download.read.inj (Option.some.inj hl)
      subst hlist
      exact fun c hc => .inr (tells_offlineListOf ht salt asOf c hc)
    · exact h
  | downloaded => exact h.downloaded
  | downloadLost => exact ⟨h.since, h.list, h.bounded, h.asks, fun l hl => nomatch hl⟩
  | ask => exact h.ask
  | read seq => exact h.read ht
  | answer seq => exact h.answer ht
  | reply seq now => exact h.hearReply seq now
  | unheard seq => exact h.forget seq

theorem DoorGate.start_sound (ctx : DoorContext) (d : Db) :
    (DoorGate.start ctx d).Sound ctx.eventId :=
  ⟨fun _ hs => (nomatch hs), fun _ hl => (nomatch hl), fun _ ha => (nomatch ha),
    fun _ ha => (nomatch ha), fun _ hl => (nomatch hl)⟩

theorem DoorGate.sound_run {d : Db} {evs : List DoorGateEvent}
    (h : EveryStep (DoorGate.step digest nameLe ctx) (fun g e => e.Timely ctx g)
      (DoorGate.start ctx d) evs) :
    (evs.foldl (DoorGate.step digest nameLe ctx) (DoorGate.start ctx d)).Sound ctx.eventId :=
  EveryStep.keeps (I := DoorGate.Sound ctx.eventId) (fun _ e hg ht => DoorGate.sound_step hg e ht)
    (DoorGate.start_sound ctx d) h

theorem DoorGate.Sound.mem_told (h : g.Sound ctx.eventId) {seq : Nat} {s t : Time}
    {found : List (WireCheckIn Id)} (now : Time)
    (hask : g.asks.find? (·.seq == g.statusSeq) = some ⟨seq, some s, .answered found t⟩) :
    ∀ c ∈ found, c ∈ (g.hearReply g.statusSeq now).told := by
  intro c hc
  rw [DoorGate.hearReply_eq hask]
  show c ∈ (DoorGate.stretch { g with asks := _ } (.checkIns now _)).told
  rw [told_stretch]
  exact List.mem_append.2 (h.told_reply hask c hc)

end Steps

/-- In every run in which each check-in comes after the cuts in force and no answer is cut off, the
pings miss none. -/
theorem refresh_missesNone (digest : String → String → String) (nameLe : String → String → Bool)
    (ctx : DoorContext) (d : Db) (evs : List DoorGateEvent)
    (htimely : EveryStep (DoorGate.step digest nameLe ctx) (fun g e => e.Timely ctx g)
      (DoorGate.start ctx d) evs) :
    (evs.foldl (DoorGate.step digest nameLe ctx) (DoorGate.start ctx d)).MissesNone ctx :=
  fun now _ _ _ hask c hc _ => (DoorGate.sound_run htimely).mem_told now hask c hc

/-- Whenever a reply counts, the phone was told, now or before, of every check-in that the read
behind it found, and it has a mark for each it is told of now whose ticket is on its list: over
every run in which each check-in comes after the cuts in force and no answer is cut off. -/
theorem pings_tell (digest : String → String → String) (nameLe : String → String → Bool)
    (ctx : DoorContext) (d : Db) (evs : List DoorGateEvent)
    (htimely : EveryStep (DoorGate.step digest nameLe ctx) (fun g e => e.Timely ctx g)
      (DoorGate.start ctx d) evs) (g : DoorGate)
    (hg : evs.foldl (DoorGate.step digest nameLe ctx) (DoorGate.start ctx d) = g) (now s t : Time)
    (found : List (WireCheckIn Id))
    (hask : g.asks.find? (·.seq == g.statusSeq) = some ⟨g.statusSeq, some s, .answered found t⟩) :
    ∀ c ∈ found, c ∈ g.told ∨
      c ∈ (g.step digest nameLe ctx (.reply g.statusSeq now)).told ∧
        (g.phone.onList c.ticketId →
          ((g.step digest nameLe ctx (.reply g.statusSeq now)).phone.mark c.ticketId).isSome) := by
  have hsound : g.Sound ctx.eventId := by
    rw [← hg]
    exact DoorGate.sound_run htimely
  intro c hc
  rcases hsound.told_reply hask c hc with hin | hin
  · exact .inl hin
  · refine .inr ⟨hsound.mem_told now hask c hc, fun hlist => ?_⟩
    show ((g.hearReply g.statusSeq now).phone.mark c.ticketId).isSome
    rw [DoorGate.hearReply_eq hask, Option.isSome_iff_ne_none]
    show (g.phone.learnCheckIns now _).mark c.ticketId ≠ none
    rw [Phone.learnCheckIns, Ne, foldl_learn (·.ticketId) (Phone.list_learnCheckIn now)
      (learnCheckIn_mark now)]
    exact fun hnone => hnone.2 ⟨hlist, c, hin, rfl⟩

section Evening

def firstPing : List DoorGateEvent :=
  [.downloadAsked, .downloadRead "salt", .downloaded, .commit rumiIn, .ask, .read 1, .answer 1]

theorem firstPing_timely : EveryStep (DoorGate.step colonDigest plainOrder gateA)
    (fun g e => e.Timely gateA g) (DoorGate.start gateA openingNight) firstPing := by
  have hcommit : ∀ cut ∈ [2 * hourMs], ComesAfter WireCheckIn.time (openingNight.standing 1)
      (rumiIn.standing 1) cut := by
    intro cut hcut c hc _
    rw [List.mem_singleton.1 hcut]
    revert c
    decide
  refine ⟨trivial, ?_, trivial, hcommit, trivial, ?_, ?_, trivial⟩
  · exact fun e he _ => by
      rw [List.mem_singleton.1 he]
      rfl
  · intro _ a ha _ s hs
    rw [List.mem_singleton.1 ha] at hs
    rw [← Option.some.inj hs]
    decide
  · intro _ a ha _ there hthere c hc hnew
    rw [List.mem_singleton.1 ha] at hthere
    rw [← AskStage.read.inj hthere] at hnew
    exact absurd hc hnew

theorem refresh_missesNone_first :
    let g := firstPing.foldl (DoorGate.step colonDigest plainOrder gateA)
      (DoorGate.start gateA openingNight)
    ⟨1, 2 * hourMs + 5, some "Gate B"⟩ ∈ (g.hearReply g.statusSeq 0).told := by
  have hother : (some "Gate B" : Option String) ≠ some gateA.pass.label := by decide
  exact refresh_missesNone colonDigest plainOrder gateA openingNight firstPing firstPing_timely 0
    (2 * hourMs) (2 * hourMs + 9) _ rfl ⟨1, 2 * hourMs + 5, some "Gate B"⟩ (by decide) hother

theorem pings_tell_first :
    let g := firstPing.foldl (DoorGate.step colonDigest plainOrder gateA)
      (DoorGate.start gateA openingNight)
    ∀ c ∈ rumiIn.standing 1, c ∈ g.told ∨
      c ∈ (g.step colonDigest plainOrder gateA (.reply g.statusSeq 0)).told ∧
        (g.phone.onList c.ticketId →
          ((g.step colonDigest plainOrder gateA (.reply g.statusSeq 0)).phone.mark
            c.ticketId).isSome) :=
  pings_tell colonDigest plainOrder gateA openingNight firstPing firstPing_timely _ rfl 0
    (2 * hourMs) (2 * hourMs + 9) _ rfl

/-- Gate B let the guest in without signal, ten minutes before the list, and sends it now. -/
def lateSync : Db :=
  { rumiIn with
    tickets := .singleton 1
      { orderId := 1, ticketTypeId := 1, eventId := 1, code := "TKT-4H8ZP2XQ", position := 1
        attendeeName := "Rumi", status := .issued
        checkIn := some ⟨2 * hourMs - 600000, "Gate B", 1⟩ } }

def lateSyncPing : List DoorGateEvent :=
  [.downloadAsked, .downloadRead "salt", .downloaded, .commit lateSync, .ask, .read 1, .answer 1]

/-- The list was read before the sync, and the ping asks for what came in after the list's time. -/
theorem refresh_missesLateSync :
    let g := lateSyncPing.foldl (DoorGate.step colonDigest plainOrder gateA)
      (DoorGate.start gateA openingNight)
    let c : WireCheckIn Id := ⟨1, 2 * hourMs - 600000, some "Gate B"⟩
    c ∉ openingNight.standing 1 ∧ c ∈ lateSync.standing 1 ∧
      c ∉ (g.hearReply g.statusSeq (2 * hourMs + 9)).told ∧ ¬ g.MissesNone gateA := by
  have hmissed : ⟨1, 2 * hourMs - 600000, some "Gate B"⟩ ∉
      (DoorGate.hearReply (lateSyncPing.foldl (DoorGate.step colonDigest plainOrder gateA)
        (DoorGate.start gateA openingNight)) 1 (2 * hourMs + 9)).told := by decide +kernel
  refine ⟨by decide, by decide, hmissed, fun h => hmissed ?_⟩
  exact h (2 * hourMs + 9) (2 * hourMs) (2 * hourMs + 9) _ rfl _ (by decide) (by decide)

end Evening

end EchoAndAura
