import EchoAndAura.EventRoom
import EchoAndAura.FixedWindow

/-!
# What one pass can ask of its room

Past four sockets of a pass the oldest are closed, and past fifty messages in a window the socket
that sent one is.  So over every run of the room a pass has at most four open sockets, and in any
ten seconds the room takes at most twice fifty of its messages (`room_bounds`).
-/

namespace EchoAndAura

open FixedWindow

/-- The time an event comes at; joining and leaving need none. -/
def RelayEvent.now? : RelayEvent → Option Time
  | .message now _ _ => some now
  | .announce now _ => some now
  | .connect .. => none
  | .closed _ => none

def roomMeter : Meter Time where
  past start now := !decide (now - start ≤ rateWindowMs)
  limit := ratePerWindow

namespace EventRoom

/-- The open sockets of a pass. -/
def openOf (e : EventRoom) (p : String) : Nat :=
  e.sockets.countP fun s => s.2.who.passId == p && !s.2.closed

def window (e : EventRoom) (p : String) : Option (Window Time) :=
  (e.rate.lookup p).map fun r => ⟨r.1, r.2⟩

/-- A message of the pass that the room counts, and whether the room takes it. -/
def metered (e : EventRoom) (p : String) : RelayEvent → Option (Time × Bool)
  | .message now ws (some _) =>
    match e.socket ws with
    | some s =>
      if !expired now s.who && s.who.passId == p then some (now, (e.withinRate now p).1) else none
    | none => none
  | _ => none

/-- The messages of the pass that the room counts along a run. -/
def meters (p : String) : EventRoom → List RelayEvent → List (Time × Bool)
  | _, [] => []
  | e, ev :: evs => (e.metered p ev).toList ++ meters p (e.step ev).1 evs

variable {e : EventRoom} {p q : String} {now : Time}

section Sockets

theorem close_openOf_le (e : EventRoom) (which : List Nat) (p : String) :
    (e.close which).openOf p ≤ e.openOf p := by
  unfold openOf close
  rw [List.countP_map]
  refine List.countP_mono_left fun s _ h => ?_
  simp only [Function.comp_apply] at h
  split at h
  · simp at h
  · exact h

theorem apply_openOf_le (e : EventRoom) (now : Time) (sender : Option Nat) (a : RoomAction) :
    (e.apply now sender a).1.openOf p ≤ e.openOf p := by
  cases a with
  | reject => exact close_openOf_le e _ p
  | ok effect => exact close_openOf_le e _ p

/-- Closing the oldest of a pass leaves no more open than the others. -/
theorem close_oldest {which : List Nat} (p : String) :
    ∀ (sockets : List (Nat × Socket)) (k : Nat),
      (∀ s ∈ (sockets.filter (·.2.who.passId == p)).take k, s.1 ∈ which) →
        sockets.countP (fun s => s.2.who.passId == p && !which.contains s.1 && !s.2.closed) ≤
          (sockets.filter (·.2.who.passId == p)).length - k
  | [], _, _ => Nat.zero_le _
  | s :: sockets, k, h => by
    rw [List.countP_cons, List.filter_cons] at *
    by_cases hs : (s.2.who.passId == p) = true
    · rw [if_pos hs] at h ⊢
      cases k with
      | zero =>
        have hnone : ∀ s ∈ (sockets.filter (·.2.who.passId == p)).take 0, s.1 ∈ which := by
          rw [List.take_zero]
          exact List.forall_mem_nil _
        have ih := close_oldest p sockets 0 hnone
        rw [List.length_cons]
        split_ifs <;> omega
      | succ k =>
        rw [List.take_succ_cons] at h
        have ih := close_oldest p sockets k fun t ht => h t (List.mem_cons_of_mem s ht)
        have hclosed := h s List.mem_cons_self
        rw [if_neg (by simp [hclosed]), List.length_cons]
        omega
    · rw [if_neg hs] at h ⊢
      have ih := close_oldest p sockets k h
      rw [if_neg (by simp [hs])]
      omega

theorem close_openOf (e : EventRoom) (which : List Nat) (p : String) :
    (e.close which).openOf p = e.sockets.countP fun s =>
      s.2.who.passId == p && !which.contains s.1 && !s.2.closed := by
  unfold openOf close
  rw [List.countP_map]
  refine List.countP_congr fun s _ => ?_
  simp only [Function.comp_apply]
  split <;> simp_all

theorem fetch_openOf_le (e : EventRoom) (q gate : String) (exp : Int) (after : Nat)
    (epoch : Option String) (h : e.openOf p ≤ socketsPerPass) :
    (e.fetch q gate exp after epoch).1.openOf p ≤ socketsPerPass := by
  unfold fetch
  split
  · exact h
  split
  · exact h
  dsimp only
  generalize hwhich : (e.socketsOf q).take ((e.socketsOf q).length + 1 - socketsPerPass) = which
  have hnew : openOf { e.close which with
      sockets := (e.close which).sockets ++
        [((e.close which).accepted, { who := ⟨q, gate, exp⟩, closed := false })]
      accepted := (e.close which).accepted + 1 } p =
      (e.close which).openOf p + if q = p then 1 else 0 := by
    unfold openOf
    rw [List.countP_append, List.countP_singleton]
    simp
  rw [hnew]
  by_cases hq : q = p
  · subst hq
    have hall : ∀ s ∈ (e.sockets.filter (·.2.who.passId == q)).take
        ((e.socketsOf q).length + 1 - socketsPerPass), s.1 ∈ which := by
      intro s hs
      rw [← hwhich, socketsOf, ← List.map_take]
      exact List.mem_map_of_mem hs
    have holdest := close_oldest q e.sockets _ hall
    have hlength : (e.socketsOf q).length = (e.sockets.filter (·.2.who.passId == q)).length :=
      List.length_map _
    rw [if_pos rfl, close_openOf]
    have hfour : socketsPerPass = 4 := rfl
    omega
  · rw [if_neg hq]
    exact le_trans (close_openOf_le e which p) h

end Sockets

theorem withinRate_sockets (e : EventRoom) (now : Time) (q : String) :
    (e.withinRate now q).2.sockets = e.sockets := by
  unfold withinRate
  split
  · split_ifs <;> rfl
  · rfl

theorem step_openOf_le (ev : RelayEvent) (h : e.openOf p ≤ socketsPerPass) :
    (e.step ev).1.openOf p ≤ socketsPerPass := by
  cases ev with
  | connect q gate exp after epoch => exact fetch_openOf_le e q gate exp after epoch h
  | message now ws message =>
    show (e.webSocketMessage now ws message).1.openOf p ≤ socketsPerPass
    unfold webSocketMessage
    split
    · exact h
    · next s _ =>
      split_ifs
      · exact le_trans (close_openOf_le e _ p) h
      cases message with
      | none => exact le_trans (close_openOf_le e _ p) h
      | some raw =>
        have hsame : (e.withinRate now s.who.passId).2.openOf p = e.openOf p := by
          unfold openOf
          rw [withinRate_sockets]
        dsimp only
        split_ifs
        · exact le_trans (close_openOf_le _ _ p) (hsame ▸ h)
        · refine le_trans (apply_openOf_le _ _ _ _) ?_
          exact hsame ▸ h
  | announce now body =>
    show (e.announce now body).1.openOf p ≤ socketsPerPass
    unfold announce
    split
    · exact h
    · exact le_trans (apply_openOf_le _ _ _ _) h
  | closed ws =>
    refine le_trans ?_ h
    unfold openOf
    exact List.Sublist.countP_le List.filter_sublist

theorem run_openOf_le : ∀ {evs : List RelayEvent} {e : EventRoom}, e.openOf p ≤ socketsPerPass →
    (e.run evs).openOf p ≤ socketsPerPass
  | [], _, h => h
  | ev :: evs, e, h => by
    show ((e.step ev).1.run evs).openOf p ≤ socketsPerPass
    exact run_openOf_le (step_openOf_le ev h)

section Meters

theorem apply_rate (e : EventRoom) (now : Time) (sender : Option Nat) (a : RoomAction) :
    (e.apply now sender a).1.rate = e.rate := by
  cases a <;> rfl

theorem fetch_rate (e : EventRoom) (q gate : String) (exp : Int) (after : Nat)
    (epoch : Option String) : (e.fetch q gate exp after epoch).1.rate = e.rate := by
  unfold fetch
  split_ifs <;> rfl

/-- Counting a message is a hit of the pass's window. -/
theorem withinRate_hit (e : EventRoom) (now : Time) (p : String) :
    (e.withinRate now p).1 = decide ((hit roomMeter (e.window p) now).count ≤ ratePerWindow) ∧
      (e.withinRate now p).2.window p = some (hit roomMeter (e.window p) now) := by
  have hinsert : ∀ r : Time × Nat,
      ({ e with rate := e.rate.insert p r } : EventRoom).window p = some ⟨r.1, r.2⟩ := by
    intro r
    rw [window, Table.lookup_insert_eq, if_pos rfl]
    rfl
  unfold withinRate
  rcases hr : e.rate.lookup p with _ | ⟨start, n⟩
  · have hwindow : e.window p = none := by rw [window, hr]; rfl
    rw [hwindow]
    exact ⟨rfl, hinsert (now, 1)⟩
  · have hwindow : e.window p = some ⟨start, n⟩ := by rw [window, hr]; rfl
    rw [hwindow]
    dsimp only
    by_cases hopen : now - start ≤ rateWindowMs
    · have hhit : hit roomMeter (some ⟨start, n⟩) now = ⟨start, n + 1⟩ :=
        hit_open (congrArg not (decide_eq_true hopen))
      rw [if_pos hopen, hhit]
      exact ⟨rfl, hinsert (start, n + 1)⟩
    · have hhit : hit roomMeter (some ⟨start, n⟩) now = ⟨now, 1⟩ :=
        hit_past (congrArg not (decide_eq_false hopen))
      rw [if_neg hopen, hhit]
      exact ⟨rfl, hinsert (now, 1)⟩

theorem withinRate_other (e : EventRoom) (now : Time) (h : q ≠ p) :
    (e.withinRate now q).2.window p = e.window p := by
  unfold withinRate window
  split
  · split_ifs <;> simp [Ne.symm h]
  · simp [Ne.symm h]

theorem webSocketMessage_rate {ws : Nat} {s : Socket} (raw : Raw) (hs : e.socket ws = some s)
    (hopen : expired now s.who = false) :
    (e.webSocketMessage now ws (some raw)).1.rate = (e.withinRate now s.who.passId).2.rate := by
  unfold webSocketMessage
  rw [hs]
  dsimp only
  rw [hopen, if_neg Bool.false_ne_true]
  split_ifs
  · rfl
  · exact apply_rate _ _ _ _

/-- An event hits the pass's window where the room counts it, and leaves it otherwise. -/
theorem step_window (e : EventRoom) (ev : RelayEvent) (p : String) :
    (e.metered p ev = none ∧ (e.step ev).1.window p = e.window p) ∨ ∃ now,
      ev.now? = some now ∧
      e.metered p ev =
        some (now, decide ((hit roomMeter (e.window p) now).count ≤ ratePerWindow)) ∧
      (e.step ev).1.window p = some (hit roomMeter (e.window p) now) := by
  have hrate : ∀ {e e' : EventRoom}, e'.rate = e.rate → e'.window p = e.window p := by
    intro e e' h
    rw [window, h, window]
  cases ev with
  | connect q gate exp after epoch => exact .inl ⟨rfl, hrate (fetch_rate e q gate exp after epoch)⟩
  | announce now body =>
    refine .inl ⟨rfl, hrate ?_⟩
    show (e.announce now body).1.rate = e.rate
    unfold announce
    split
    · rfl
    · exact apply_rate _ _ _ _
  | closed ws => exact .inl ⟨rfl, rfl⟩
  | message now ws message =>
    show (_ ∧ (e.webSocketMessage now ws message).1.window p = _) ∨ ∃ t, _ ∧ _ ∧
      (e.webSocketMessage now ws message).1.window p = _
    cases message with
    | none =>
      refine .inl ⟨rfl, hrate ?_⟩
      unfold webSocketMessage
      split
      · rfl
      · split_ifs <;> rfl
    | some raw =>
      rcases hs : e.socket ws with _ | s
      · refine .inl ⟨by simp [metered, hs], hrate ?_⟩
        rw [webSocketMessage, hs]
      · by_cases hexpired : expired now s.who = true
        · refine .inl ⟨by simp [metered, hs, hexpired], hrate ?_⟩
          rw [webSocketMessage, hs]
          dsimp only
          rw [if_pos hexpired]
          rfl
        · have hopen : expired now s.who = false := by simpa using hexpired
          have hafter := hrate (webSocketMessage_rate raw hs hopen)
          by_cases hp : s.who.passId = p
          · subst hp
            obtain ⟨hpassed, hhit⟩ := withinRate_hit e now s.who.passId
            refine .inr ⟨now, rfl, ?_, hafter.trans hhit⟩
            simp [metered, hs, hopen, hpassed]
          · refine .inl ⟨by simp [metered, hs, hp], ?_⟩
            exact hafter.trans (withinRate_other e now hp)

/-- Along a run the room counts the pass's messages as hits of one window after another. -/
theorem meters_eq : ∀ {evs : List RelayEvent} {e : EventRoom},
    meters p e evs = FixedWindow.run roomMeter (e.window p) ((meters p e evs).map (·.1)) ∧
      ((meters p e evs).map (·.1)).Sublist (evs.filterMap RelayEvent.now?)
  | [], _ => ⟨rfl, .slnil⟩
  | ev :: evs, e => by
    obtain ⟨ih, hsub⟩ := @meters_eq evs (e.step ev).1
    obtain ⟨hnone, hsame⟩ | ⟨now, hnow, hsome, hhit⟩ := step_window e ev p
    · rw [meters, hnone, Option.toList_none, List.nil_append, ← hsame]
      refine ⟨ih, hsub.trans ?_⟩
      rw [List.filterMap_cons]
      split
      · exact .refl _
      · exact List.sublist_cons_self _ _
    · rw [meters, hsome, Option.toList_some, List.singleton_append, List.map_cons,
        List.filterMap_cons, hnow]
      refine ⟨?_, hsub.cons_cons now⟩
      rw [FixedWindow.run, ← hhit, ← ih]
      rfl

end Meters

end EventRoom

/-- Over every run of a room from its start, on a clock that does not go back, a pass has at most
four open sockets, and the room takes at most a hundred of its messages in any ten seconds. -/
theorem room_bounds (store : RoomStore) (evs : List RelayEvent) (p : String) (start : Time)
    (hclock : (evs.filterMap RelayEvent.now?).Pairwise (· ≤ ·)) :
    ((EventRoom.empty store).run evs).openOf p ≤ socketsPerPass ∧
      passed start (start + rateWindowMs) (EventRoom.meters p (EventRoom.empty store) evs) ≤
        2 * ratePerWindow := by
  refine ⟨EventRoom.run_openOf_le (Nat.zero_le _), ?_⟩
  obtain ⟨hrun, hsub⟩ := @EventRoom.meters_eq p evs (EventRoom.empty store)
  rw [hrun]
  refine passed_within (fun s t hs _ ht => ?_) (hclock.sublist hsub)
  have hshort : t - s ≤ rateWindowMs := by
    unfold Time at *
    omega
  exact congrArg not (decide_eq_true hshort)

def fiveSockets : List RelayEvent := List.replicate 5 (.connect "pass-1" "Gate A" 60 0 none)

def fiftyOneMessages : List RelayEvent := List.replicate 51 (.message 1000 4 (some ⟨2, none⟩))

/-- The fifth socket closes the first, and the fifty-first message is refused. -/
theorem room_bounds_busy :
    let e := EventRoom.empty (.empty "epoch-1" [])
    let evs := fiveSockets ++ fiftyOneMessages
    (e.run fiveSockets).openOf "pass-1" = 4 ∧
      (EventRoom.meters "pass-1" e evs).map (·.2) = List.replicate 50 true ++ [false] ∧
      (e.run evs).openOf "pass-1" ≤ socketsPerPass ∧
      passed 1000 (1000 + rateWindowMs) (EventRoom.meters "pass-1" e evs) ≤ 2 * ratePerWindow :=
  ⟨by decide +kernel, by decide +kernel,
    room_bounds (.empty "epoch-1" []) (fiveSockets ++ fiftyOneMessages) "pass-1" 1000
      (by decide +kernel)⟩

end EchoAndAura
