import EchoAndAura.HomeEvents

/-!
# The home page and the event page on what is past

The lists split at the instant, an event starting at it still upcoming; the event page's phase is
past from that instant on.  So they agree unless a published event starts at it.
-/

namespace EchoAndAura

section Lists

variable {T : Type} {event : T → Event} {events : List T} {now : Time} {e : T}

theorem mem_upcoming : e ∈ selectUpcomingEvents event events now ↔
    e ∈ events ∧ (event e).status = .published ∧ now ≤ (event e).startsAt := by
  unfold selectUpcomingEvents
  simp [List.mem_insertionSort]

theorem mem_archive : e ∈ selectArchiveEvents event events now ↔
    e ∈ events ∧ (event e).status ≠ .draft ∧ (event e).startsAt < now := by
  unfold selectArchiveEvents
  simp [List.mem_insertionSort]

theorem pairwise_upcoming : (selectUpcomingEvents event events now).Pairwise
    fun a b => (event a).startsAt ≤ (event b).startsAt := by
  have htotal : Std.Total fun a b : T => (event a).startsAt ≤ (event b).startsAt :=
    ⟨fun a b => Int.le_total _ _⟩
  have htrans : IsTrans T fun a b => (event a).startsAt ≤ (event b).startsAt :=
    ⟨fun a b c => Int.le_trans⟩
  exact List.pairwise_insertionSort _ _

theorem pairwise_archive : (selectArchiveEvents event events now).Pairwise
    fun a b => (event b).startsAt ≤ (event a).startsAt := by
  have htotal : Std.Total fun a b : T => (event b).startsAt ≤ (event a).startsAt :=
    ⟨fun a b => Int.le_total _ _⟩
  have htrans : IsTrans T fun a b => (event b).startsAt ≤ (event a).startsAt :=
    ⟨fun a b c hab hbc => Int.le_trans hbc hab⟩
  exact List.pairwise_insertionSort _ _

theorem eventPhase_past (e : Event) (available : Int) :
    eventPhase e available now = .past ↔ e.startsAt ≤ now := by
  unfold eventPhase
  by_cases h : e.startsAt ≤ now
  · simp [h]
  · rw [if_neg h]
    refine iff_of_false ?_ h
    cases e.registrationOpensAt with
    | none => simp
    | some opens =>
      cases e.registrationClosesAt with
      | none => simp
      | some closes =>
        dsimp only
        split_ifs <;> simp

section Soonest

variable (event) (events) (now)

/-- `e` is published and has not started before the instant. -/
def IsUpcoming (events : List T) (now : Time) (e : T) : Prop :=
  e ∈ events ∧ (event e).status = .published ∧ now ≤ (event e).startsAt

/-- `e` is upcoming and no upcoming event for which `p` holds is sooner. -/
def IsSoonest (events : List T) (now : Time) (p : T → Prop) (e : T) : Prop :=
  IsUpcoming event events now e ∧ p e ∧
    ∀ x, IsUpcoming event events now x → p x → (event e).startsAt ≤ (event x).startsAt

end Soonest

/-- The first of a sorted list for which `p` holds. -/
theorem find_soonest {p : T → Bool} {e : T}
    (h : (selectUpcomingEvents event events now).find? p = some e) :
    IsSoonest event events now (fun x => p x = true) e := by
  refine ⟨mem_upcoming.1 (List.mem_of_find?_eq_some h), List.find?_some h, fun x hx hp => ?_⟩
  obtain ⟨-, front, back, hsplit, hfront⟩ := List.find?_eq_some_iff_append.1 h
  have hmem := mem_upcoming.2 hx
  have hsorted := @pairwise_upcoming T event events now
  rw [hsplit] at hmem hsorted
  rcases List.mem_append.1 hmem with hmem | hmem
  · exact absurd hp (by simpa using hfront x hmem)
  · rcases List.mem_cons.1 hmem with rfl | hmem
    · exact Int.le_refl _
    · exact List.rel_of_pairwise_cons (List.pairwise_append.1 hsorted).2.1 hmem

/-- The first of all. -/
theorem head_soonest {e : T} (h : (selectUpcomingEvents event events now).head? = some e) :
    IsSoonest event events now (fun _ => True) e := by
  refine ⟨mem_upcoming.1 (List.mem_of_head? h), trivial, fun x hx _ => ?_⟩
  have hmem := mem_upcoming.2 hx
  have hsorted := @pairwise_upcoming T event events now
  obtain ⟨back, hback⟩ := List.head?_eq_some_iff.1 h
  rw [hback] at hmem hsorted
  rcases List.mem_cons.1 hmem with rfl | hmem
  · exact Int.le_refl _
  · exact List.rel_of_pairwise_cons hsorted hmem

end Lists

section Agreement

variable {T : Type} (event : T → Event) [DecidableEq T]

/-- What the home page's groups, the lists and the event page say of one another. -/
structure HomeAgrees (events : List T) (now : Time) : Prop where
  apart : ∀ e, ¬ ((selectHomeEvents event events now).featured = some e ∧
      e ∈ (selectHomeEvents event events now).alsoUpcoming) ∧
    ¬ ((selectHomeEvents event events now).featured = some e ∧
      e ∈ (selectHomeEvents event events now).past) ∧
    ¬ (e ∈ (selectHomeEvents event events now).alsoUpcoming ∧
      e ∈ (selectHomeEvents event events now).past)
  notPast : ∀ e, (selectHomeEvents event events now).featured = some e ∨
      e ∈ (selectHomeEvents event events now).alsoUpcoming →
    ∀ available, eventPhase (event e) available now ≠ .past
  split : ∀ e ∈ events, (event e).status = .published →
    (e ∈ selectArchiveEvents event events now ↔ e ∉ selectUpcomingEvents event events now)
  archive : ∀ e ∈ events, (event e).status = .published → ∀ available,
    (e ∈ selectArchiveEvents event events now ↔ eventPhase (event e) available now = .past)
  featured : ∀ e, (selectHomeEvents event events now).featured = some e →
    IsSoonest event events now (fun x => registrationClosed (event x) now = false) e ∨
      (∀ x, IsUpcoming event events now x → registrationClosed (event x) now = true) ∧
        IsSoonest event events now (fun _ => True) e
  dormant : (selectHomeEvents event events now).featured = none ↔
    ∀ e, ¬ IsUpcoming event events now e
  upcoming : (selectUpcomingEvents event events now).Pairwise
    fun a b => (event a).startsAt ≤ (event b).startsAt
  alsoUpcoming : (selectHomeEvents event events now).alsoUpcoming.Pairwise
    fun a b => (event a).startsAt ≤ (event b).startsAt
  past : (selectHomeEvents event events now).past.Pairwise
    fun a b => (event b).startsAt ≤ (event a).startsAt
  newestFirst : (selectArchiveEvents event events now).Pairwise
    fun a b => (event b).startsAt ≤ (event a).startsAt

variable {event} {events : List T} {now : Time} {e : T}

theorem mem_alsoUpcoming (h : e ∈ (selectHomeEvents event events now).alsoUpcoming) :
    IsUpcoming event events now e ∧ (selectHomeEvents event events now).featured ≠ some e := by
  obtain ⟨hmem, hne⟩ := List.mem_filter.1 (List.mem_of_mem_take h)
  exact ⟨mem_upcoming.1 hmem, bne_iff_ne.1 hne⟩

theorem mem_past_strip (h : e ∈ (selectHomeEvents event events now).past) :
    e ∈ selectArchiveEvents event events now :=
  List.mem_of_mem_take h

/-- Which event is featured. -/
theorem featured_cases (h : (selectHomeEvents event events now).featured = some e) :
    IsSoonest event events now (fun x => registrationClosed (event x) now = false) e ∨
      (∀ x, IsUpcoming event events now x → registrationClosed (event x) now = true) ∧
        IsSoonest event events now (fun _ => True) e := by
  unfold selectHomeEvents at h
  dsimp only at h
  cases hfind : (selectUpcomingEvents event events now).find?
      fun e => !registrationClosed (event e) now with
  | some e' =>
    rw [hfind] at h
    obtain rfl : e' = e := Option.some.inj h
    have hsoonest := find_soonest hfind
    simp only [Bool.not_eq_true'] at hsoonest
    exact .inl hsoonest
  | none =>
    rw [hfind] at h
    refine .inr ⟨fun x hx => ?_, head_soonest h⟩
    simpa using List.find?_eq_none.1 hfind x (mem_upcoming.2 hx)

theorem featured_none : (selectHomeEvents event events now).featured = none ↔
    ∀ e, ¬ IsUpcoming event events now e := by
  have hempty : (∀ e, ¬ IsUpcoming event events now e) ↔
      selectUpcomingEvents event events now = [] := by
    rw [List.eq_nil_iff_forall_not_mem]
    exact forall_congr' fun e => not_congr mem_upcoming.symm
  rw [hempty]
  unfold selectHomeEvents
  dsimp only
  rw [Option.orElse_eq_none, List.head?_eq_none_iff]
  constructor
  · exact fun h => h.2
  · intro h
    rw [h]
    exact ⟨rfl, rfl⟩

theorem featured_upcoming (h : (selectHomeEvents event events now).featured = some e) :
    IsUpcoming event events now e := by
  rcases featured_cases h with h | ⟨-, h⟩
  · exact h.1
  · exact h.1

/-- What is upcoming is not in the past strip. -/
theorem not_past_of_upcoming (h : IsUpcoming event events now e) :
    e ∉ (selectHomeEvents event events now).past := by
  intro hpast
  have hstarted := (mem_archive.1 (mem_past_strip hpast)).2.2
  exact absurd h.2.2 (Int.not_le.2 hstarted)

end Agreement

/-- The pages agree exactly when no published event starts at the instant. -/
theorem homeAgrees_iff {T : Type} [DecidableEq T] (event : T → Event) (events : List T)
    (now : Time) : HomeAgrees event events now ↔
      ∀ e ∈ events, (event e).status = .published → (event e).startsAt ≠ now := by
  constructor
  · intro h e he hpublished hnow
    have hphase := (eventPhase_past (event e) 0).2 (Int.le_of_eq hnow)
    have harchive := mem_archive.1 ((h.archive e he hpublished 0).2 hphase)
    exact absurd hnow (Int.ne_of_lt harchive.2.2)
  · intro h
    have hlater : ∀ e, IsUpcoming event events now e →
        ∀ available, eventPhase (event e) available now ≠ .past := by
      intro e he available hphase
      have hstarted := (eventPhase_past (event e) available).1 hphase
      exact h e he.1 he.2.1 (Int.le_antisymm hstarted he.2.2)
    constructor
    · refine fun e => ⟨fun hboth => (mem_alsoUpcoming hboth.2).2 hboth.1, fun hboth => ?_,
        fun hboth => ?_⟩
      · exact not_past_of_upcoming (featured_upcoming hboth.1) hboth.2
      · exact not_past_of_upcoming (mem_alsoUpcoming hboth.1).1 hboth.2
    · rintro e (he | he)
      · exact hlater e (featured_upcoming he)
      · exact hlater e (mem_alsoUpcoming he).1
    · intro e he hpublished
      rw [mem_archive, mem_upcoming]
      simp only [he, hpublished, true_and, Int.not_le]
      simp
    · intro e he hpublished available
      rw [mem_archive, eventPhase_past]
      have hne := h e he hpublished
      constructor
      · exact fun hmem => Int.le_of_lt hmem.2.2
      · exact fun hle => ⟨he, by simp [hpublished], Int.lt_iff_le_and_ne.2 ⟨hle, hne⟩⟩
    · exact fun e he => featured_cases he
    · exact featured_none
    · exact pairwise_upcoming
    · exact (pairwise_upcoming.sublist List.filter_sublist).sublist (List.take_sublist _ _)
    · exact pairwise_archive.sublist (List.take_sublist _ _)
    · exact pairwise_archive

def openingShow : Event := ⟨"show", "Show", .published, 0, none, none, none⟩

/-- A show at the instant it starts is featured, and its page says it is over. -/
theorem homeAgrees_at_start : ¬ HomeAgrees id [openingShow] 0 :=
  fun h => h.notPast openingShow (.inl (by decide)) 0 (by decide)

end EchoAndAura
