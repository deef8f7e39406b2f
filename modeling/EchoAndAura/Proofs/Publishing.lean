import EchoAndAura.EventAdmin

/-!
# A published event can be registered for

A publish reads the row, then checks it, then moves the status; an edit writes the whole row.  The
rows a publish goes by have a valid registration window (`Passed`), so a published event keeps one
as long as no edit puts a window that is none on a published row, or under a publish on its way
(`EditsKeepWindow`).  An edit's window is only checked where both bounds are typed: a bound left
blank is filled in afterwards, and may fall on the wrong side of the typed one.
-/

namespace EchoAndAura

/-- Both bounds are set and in order, and at some instant registration is not closed. -/
structure Event.Registrable (e : Event) : Prop where
  window : ∃ opens closes, e.registrationOpensAt = some opens ∧
    e.registrationClosesAt = some closes ∧ opens < closes ∧ closes ≤ e.startsAt
  instant : ∃ t, ∀ availableTotal,
    eventPhase e availableTotal t ≠ .closed ∧ eventPhase e availableTotal t ≠ .past ∧
      eventPhase e availableTotal t ≠ .notOpen

namespace Event

variable {e : Event}

theorem windowValid_iff :
    e.windowValid = true ↔ ∃ opens closes, e.registrationOpensAt = some opens ∧
      e.registrationClosesAt = some closes ∧ opens < closes ∧ closes ≤ e.startsAt := by
  unfold windowValid EchoAndAura.windowValid
  rcases ho : e.registrationOpensAt with _ | opens <;>
    rcases hc : e.registrationClosesAt with _ | closes <;> simp

theorem Registrable.of_windowValid (h : e.windowValid = true) : e.Registrable := by
  obtain ⟨opens, closes, ho, hc, hoc, hcs⟩ := windowValid_iff.1 h
  refine ⟨⟨opens, closes, ho, hc, hoc, hcs⟩, opens, fun availableTotal => ?_⟩
  have started : ¬ e.startsAt ≤ opens := Int.not_le.2 (Int.lt_of_lt_of_le hoc hcs)
  simp only [eventPhase, ho, hc, started, if_false, Int.not_le.2 hoc, Int.lt_irrefl]
  split_ifs <;> simp

/-- With the bounds the wrong way round there is no instant at which registration is open. -/
theorem phase_of_closes_le_opens {opens closes : Time} (ho : e.registrationOpensAt = some opens)
    (hc : e.registrationClosesAt = some closes) (h : closes ≤ opens) (availableTotal : Int)
    (t : Time) : eventPhase e availableTotal t = .closed ∨ eventPhase e availableTotal t = .past ∨
      eventPhase e availableTotal t = .notOpen := by
  unfold eventPhase
  simp only [ho, hc]
  split_ifs with past closed early
  · exact .inr (.inl rfl)
  · exact .inl rfl
  · exact .inr (.inr rfl)
  all_goals exact absurd (Int.le_trans h (Int.not_lt.1 early)) closed

end Event

/-- The checklist passes a row with a valid window only. -/
theorem windowValid_of_assertPublishable {event : EventRecord} {n : Nat} {now : Time}
    (h : assertPublishable event n now = .ok ()) : event.windowValid = true := by
  unfold assertPublishable at h
  split at h
  · rename_i hproblems
    by_contra hw
    simp [publishReadiness, hw] at hproblems
  · simp at h

section Form

variable {slugify : String → Option String} {form : EventForm} {patch : EventPatch}

theorem opens_lt_closes (form : EventForm) {opens closes : Time}
    (ho : form.input.registrationOpensAt = some opens)
    (hc : form.input.registrationClosesAt = some closes) : opens < closes := by
  have h := form.accepted
  simp only [EventFormInput.issues, List.append_eq_nil_iff, Option.toList_eq_nil_iff] at h
  have := h.1.2
  simp only [EventFormInput.opensAtIssue, ho, hc] at this
  split_ifs at this with hle
  exact Int.not_le.1 hle

theorem closes_le_startsAt (form : EventForm) {closes : Time}
    (hc : form.input.registrationClosesAt = some closes) : closes ≤ form.input.startsAt := by
  have h := form.accepted
  simp only [EventFormInput.issues, List.append_eq_nil_iff, Option.toList_eq_nil_iff] at h
  have := h.2
  simp only [EventFormInput.closesAtIssue, hc] at this
  split_ifs at this with hlt
  exact Int.not_lt.1 hlt

theorem eventPatch_bounds (h : eventPatch slugify form.input = .ok patch) :
    patch.startsAt = form.input.startsAt ∧
    patch.registrationOpensAt = form.input.registrationOpensAt.getD
      (defaultRegistrationWindow form.input.startsAt).registrationOpensAt ∧
    patch.registrationClosesAt = form.input.registrationClosesAt.getD
      (defaultRegistrationWindow form.input.startsAt).registrationClosesAt := by
  unfold eventPatch at h
  rcases hs : eventSlug slugify form.input with _ | slug <;> rw [hs] at h
  · cases h
  · cases h
    exact ⟨rfl, rfl, rfl⟩

/-- The window an accepted form leaves behind is a valid one, unless one bound is typed, the other
is left blank and the default filled in falls on the wrong side of the typed one. -/
theorem windowValid_eventPatch (h : eventPatch slugify form.input = .ok patch) :
    patch.windowValid = true ↔
      (∀ opens, form.input.registrationOpensAt = some opens →
        form.input.registrationClosesAt = none →
        opens < (defaultRegistrationWindow form.input.startsAt).registrationClosesAt) ∧
      ∀ closes, form.input.registrationClosesAt = some closes →
        form.input.registrationOpensAt = none →
        (defaultRegistrationWindow form.input.startsAt).registrationOpensAt < closes := by
  obtain ⟨hstart, hopens, hcloses⟩ := eventPatch_bounds h
  rw [EventPatch.windowValid, hstart, hopens, hcloses]
  have inorder : (defaultRegistrationWindow form.input.startsAt).registrationOpensAt <
      (defaultRegistrationWindow form.input.startsAt).registrationClosesAt :=
    Int.sub_lt_sub_left (by decide) _
  have early : (defaultRegistrationWindow form.input.startsAt).registrationClosesAt ≤
      form.input.startsAt :=
    Int.sub_le_self _ (by decide)
  rcases ho : form.input.registrationOpensAt with _ | opens <;>
    rcases hc : form.input.registrationClosesAt with _ | closes
  · simp [windowValid, inorder, early]
  · simp [windowValid, closes_le_startsAt form hc]
  · simp [windowValid, early]
  · simp [windowValid, closes_le_startsAt form hc, opens_lt_closes form ho hc]

end Form

namespace EventDesk

/-- A published row has a valid window. -/
def PublishedValid (d : EventDesk) : Prop :=
  ∀ e, d.event = some e → e.status = .published → e.windowValid = true

def RowValid (d : EventDesk) : Prop := ∃ e, d.event = some e ∧ e.windowValid = true

end EventDesk

namespace EventStage

/-- A publish that has read a row with a valid window. -/
def mayPublish : EventStage → Bool
  | .listing event target => target = .published ∧ event.windowValid
  | .moving _ target => target = .published
  | _ => false

/-- What a publish has passed still holds of the row. -/
def Passed (d : EventDesk) (t : EventStage) : Prop := t.mayPublish = true → d.RowValid

end EventStage

/-- No edit puts a window that is none on a published event, or under a publish on its way. -/
def EditsKeepWindow (s : Tasks EventDesk EventStage) :
    Turn EventRequest Outcome DeskChange → Prop
  | .go i .ok => ∀ patch, s.tasks[i]? = some (.updating (.ok patch)) → patch.windowValid = false →
      (∀ e, s.state.event = some e → e.status ≠ .published) ∧
        ∀ t ∈ s.tasks, t.mayPublish = false
  | _ => True

namespace EventDesk

variable {d : EventDesk}

theorem RowValid.insert {values : EventPatch} (h : d.RowValid) : (d.insert values).RowValid := by
  obtain ⟨e, he, hw⟩ := h
  exact ⟨e, by simp [EventDesk.insert, he], hw⟩

theorem RowValid.update {patch : EventPatch} (hp : patch.windowValid = true) (h : d.RowValid) :
    (d.update patch).RowValid := by
  obtain ⟨e, he, -⟩ := h
  exact ⟨patch.apply e, by simp [EventDesk.update, he], hp⟩

theorem RowValid.transitionStatus {source target : EventStatus} (h : d.RowValid) :
    (d.transitionStatus source target).RowValid := by
  obtain ⟨e, he, hw⟩ := h
  simp only [EventDesk.RowValid, EventDesk.transitionStatus, he, Option.map_some,
    Option.some.injEq, exists_eq_left']
  split_ifs
  · exact hw
  · exact hw

theorem RowValid.imageKey {key : Option String} (h : d.RowValid) :
    (d.change (.imageKey key)).RowValid := by
  obtain ⟨e, he, hw⟩ := h
  exact ⟨{ e with imageKey := key }, by simp [EventDesk.change, he], hw⟩

theorem PublishedValid.insert {values : EventPatch} (h : d.PublishedValid) :
    (d.insert values).PublishedValid := by
  rcases he : d.event with _ | e₀
  · intro e h' hs
    simp only [EventDesk.insert, he, Option.getD_none, Option.some.injEq] at h'
    subst h'
    simp [EventPatch.record] at hs
  · intro e h' hs
    simp only [EventDesk.insert, he, Option.getD_some, Option.some.injEq] at h'
    exact h e (he.trans (congrArg some h')) hs

theorem PublishedValid.update {patch : EventPatch}
    (hp : patch.windowValid = true ∨ ∀ e, d.event = some e → e.status ≠ .published) :
    (d.update patch).PublishedValid := by
  intro e' h' hs
  obtain ⟨e, he, rfl⟩ := Option.map_eq_some_iff.1 h'
  rcases hp with hp | hp
  · exact hp
  · exact absurd hs (hp e he)

theorem PublishedValid.transitionStatus {source target : EventStatus} (h : d.PublishedValid)
    (ht : target = .published → d.RowValid) : (d.transitionStatus source target).PublishedValid := by
  intro e' h' hs
  obtain ⟨e, he, rfl⟩ := Option.map_eq_some_iff.1 h'
  split_ifs at hs ⊢
  · obtain ⟨e₁, he₁, hw⟩ := ht hs
    rw [he, Option.some.injEq] at he₁
    exact he₁ ▸ hw
  · exact h e he hs

theorem PublishedValid.imageKey {key : Option String} (h : d.PublishedValid) :
    (d.change (.imageKey key)).PublishedValid := by
  intro e' h' hs
  obtain ⟨e, he, rfl⟩ := Option.map_eq_some_iff.1 h'
  exact h e he hs

end EventDesk

section Run

variable {slugify : String → Option String} {s : Tasks EventDesk EventStage}

abbrev WindowsKept (s : Tasks EventDesk EventStage) : Prop :=
  s.Sound EventDesk.PublishedValid EventStage.Passed

theorem mayPublish_first (q : EventRequest) : (q.first slugify).mayPublish = false := by
  cases q <;> rfl

/-- A publish goes on from a row it has read as valid, with the row as it is. -/
theorem mayPublish_assertMove {event : EventRecord} {target : EventStatus} {t : EventStage}
    (ht : EventDesk.assertMove event target = some t) (h : t.mayPublish = true) :
    event.windowValid = true := by
  unfold EventDesk.assertMove at ht
  split at ht
  · simp at ht
  · split_ifs at ht with hp
    · obtain rfl := Option.some.inj ht
      simpa [EventStage.mayPublish, hp] using h
    · obtain rfl := Option.some.inj ht
      simp [EventStage.mayPublish, hp] at h

/-- The statement of a stage, under the condition on the edits. -/
theorem next_windows {t : EventStage} {d : EventDesk} {others : List EventStage}
    (hI : d.PublishedValid) (ht : t.Passed d)
    (hedit : ∀ patch, t = .updating (.ok patch) → patch.windowValid = false →
      (∀ e, d.event = some e → e.status ≠ .published) ∧ ∀ u ∈ others, u.mayPublish = false) :
    (d.next t .ok).1.PublishedValid ∧
      (∀ t', (d.next t .ok).2 = some t' → t'.Passed (d.next t .ok).1) ∧
      ∀ u ∈ others, u.Passed d → u.Passed (d.next t .ok).1 := by
  cases t with
  | inserting values =>
    rcases values with _ | values
    · exact ⟨hI, by simp [EventDesk.next], fun _ _ h => h⟩
    · exact ⟨hI.insert, by simp [EventDesk.next], fun u _ h hu => (h hu).insert⟩
  | updating patch =>
    rcases patch with _ | patch
    · exact ⟨hI, by simp [EventDesk.next], fun _ _ h => h⟩
    rcases hp : patch.windowValid with _ | _
    · obtain ⟨hdraft, hnone⟩ := hedit patch rfl hp
      refine ⟨EventDesk.PublishedValid.update (.inr hdraft), by simp [EventDesk.next], ?_⟩
      intro u hu _ hmay
      simp [hnone u hu] at hmay
    · exact ⟨EventDesk.PublishedValid.update (.inl hp), by simp [EventDesk.next],
        fun u _ h hu => (h hu).update hp⟩
  | getting target =>
    rcases he : d.event with _ | event
    · simp only [EventDesk.next, he]
      exact ⟨hI, by simp, fun _ _ h => h⟩
    · simp only [EventDesk.next, he]
      exact ⟨hI, fun t' ht' hmay => ⟨event, he, mayPublish_assertMove ht' hmay⟩, fun _ _ h => h⟩
  | listing event target =>
    simp only [EventDesk.next]
    split
    · exact ⟨hI, by simp, fun _ _ h => h⟩
    · rename_i hok
      refine ⟨hI, fun t' ht' hmay => ?_, fun _ _ h => h⟩
      obtain rfl := Option.some.inj ht'
      refine ht ?_
      simpa [EventStage.mayPublish, windowValid_of_assertPublishable hok] using hmay
  | moving event target =>
    exact ⟨hI.transitionStatus fun hp => ht (by simpa [EventStage.mayPublish] using hp),
      by simp [EventDesk.next], fun u _ h hu => (h hu).transitionStatus⟩

theorem step_windows (e : Turn EventRequest Outcome DeskChange) (h : WindowsKept s)
    (he : EditsKeepWindow s e) : WindowsKept (s.step (eventWork slugify) e) := by
  cases e with
  | start q =>
    exact h.start fun hmay => by simp [eventWork, mayPublish_first] at hmay
  | world w =>
    cases w with
    | ticketTypes n => exact h.world h.state fun _ _ ht => ht
    | imageKey key => exact h.world h.state.imageKey fun _ _ ht hmay => (ht hmay).imageKey
    | clock t => exact h.world h.state fun _ _ ht => ht
  | go i out =>
    refine h.go fun t hi ht => ?_
    cases out with
    | failed => exact ⟨h.state, by simp [eventWork, EventDesk.next], fun _ _ hu => hu⟩
    | ok =>
      refine next_windows h.state ht fun patch hpatch hw => ?_
      obtain ⟨hdraft, hnone⟩ := he patch (hpatch ▸ hi) hw
      exact ⟨hdraft, fun u hu => hnone u (List.mem_of_mem_eraseIdx hu)⟩

end Run

/-- Nobody at work on an event that is not there yet. -/
def EventDesk.empty (ticketTypeCount : Nat) (now : Time) : Tasks EventDesk EventStage :=
  ⟨⟨none, ticketTypeCount, now⟩, []⟩

/-- Where no edit puts a window that is none on a published event or under a publish on its way, a
published event can be registered for, whatever the requests and their order. -/
theorem published_registrable (slugify : String → Option String) (ticketTypeCount : Nat)
    (now : Time) (turns : List (Turn EventRequest Outcome DeskChange))
    (hedits : EveryStep (Tasks.step (eventWork slugify)) EditsKeepWindow
      (EventDesk.empty ticketTypeCount now) turns) (e : EventRecord)
    (he : ((EventDesk.empty ticketTypeCount now).run (eventWork slugify) turns).state.event =
      some e) (hs : e.status = .published) : e.Registrable := by
  have start : WindowsKept (EventDesk.empty ticketTypeCount now) :=
    ⟨by simp [EventDesk.empty, EventDesk.PublishedValid], by simp [EventDesk.empty]⟩
  have kept := start.run (fun s e h => step_windows e h) hedits
  exact Event.Registrable.of_windowValid (kept.state e he hs)

/-- A show a hundred days after the clock's start, with the bounds the form was given. -/
def showInput (opens closes : Option Time) : EventFormInput :=
  { title := "Launch night", slug := some "launch", venue := some "Hall", venueHidden := false
    venueArea := none, hideAvailability := false, startsAt := 100 * dayMs, endsAt := none
    registrationOpensAt := opens, registrationClosesAt := closes }

def showForm (opens : Option Time) : EventForm :=
  ⟨showInput opens none, by cases opens <;> rfl⟩

/-- The show is created with blank bounds, published, and edited: registration is to open at
`opens`, and the closing bound stays blank. -/
def editAfterPublishing (opens : Time) : List (Turn EventRequest Outcome DeskChange) :=
  [.start (.createEvent (showForm none)), .go 0 .ok, .world (.ticketTypes 1),
    .world (.imageKey (some "cover")), .start (.changeEventStatus .published), .go 0 .ok,
    .go 0 .ok, .go 0 .ok, .start (.updateEvent (showForm (some opens))), .go 0 .ok]

def deskAfter (turns : List (Turn EventRequest Outcome DeskChange)) : Option EventRecord :=
  ((EventDesk.empty 0 0).run (eventWork fun _ => none) turns).state.event

theorem published_registrable_tenDays :
    ∃ e, deskAfter (editAfterPublishing (90 * dayMs)) = some e ∧ e.status = .published ∧
      e.Registrable := by
  refine ⟨_, rfl, rfl, published_registrable (fun _ => none) 0 0
    (editAfterPublishing (90 * dayMs)) ?_ _ rfl rfl⟩
  refine ⟨trivial, ?_, trivial, trivial, trivial, ?_, ?_, ?_, trivial, ?_, trivial⟩
  all_goals
    intro patch hpatch hw
    first
    | cases hpatch
      cases hw
    | cases hpatch

/-- An edit of a published event that opens registration two days before the show, with the closing
bound left blank, closes it for good: the bound filled in is three days earlier. -/
theorem published_neverOpens :
    ∃ e, deskAfter (editAfterPublishing (98 * dayMs)) = some e ∧ e.status = .published ∧
      ¬ e.Registrable ∧ ∀ availableTotal t, eventPhase e.toEvent availableTotal t = .closed ∨
        eventPhase e.toEvent availableTotal t = .past ∨
        eventPhase e.toEvent availableTotal t = .notOpen := by
  refine ⟨_, rfl, rfl, fun h => ?_, Event.phase_of_closes_le_opens rfl rfl (by decide)⟩
  exact absurd (Event.windowValid_iff.2 h.window) (by decide)

end EchoAndAura
