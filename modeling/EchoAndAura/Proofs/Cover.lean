import EchoAndAura.Cover

/-!
# The cover key names a stored image

A request deletes the object it found on the row, after it has written another key there, or none.
So the key a delete is about is not the row's (`NotShown`), as long as nobody writes it back
meanwhile: the one step that can is a `setCoverImage` with a key that another request has replaced
(`WritesStored`).
-/

namespace EchoAndAura

namespace CoverDesk

/-- The row's key names a stored object. -/
def Stored (d : CoverDesk) : Prop := ∀ key, d.imageKey = some key → (d.objects.lookup key).isSome

variable {d : CoverDesk}

theorem imageKey_setImageKey {key : Option String} {k : String}
    (h : (d.setImageKey key).imageKey = some k) : key = some k := by
  unfold imageKey setImageKey at h
  rcases he : d.event with _ | e
  · simp [he] at h
  · simpa [he] using h

theorem imageKey_delete {key : String} : (d.delete key).imageKey = d.imageKey := rfl

theorem imageKey_put {u : Upload} : (d.put u).imageKey = d.imageKey := rfl

theorem Stored.put {u : Upload} (h : d.Stored) : (d.put u).Stored := by
  intro key hkey
  rw [imageKey_put] at hkey
  show ((d.objects.insert u.key u.info).lookup key).isSome
  rw [Table.lookup_insert_eq]
  split_ifs
  · rfl
  · exact h key hkey

theorem Stored.delete {key : String} (h : d.Stored) (hk : d.imageKey ≠ some key) :
    (d.delete key).Stored := by
  intro k hkey
  rw [imageKey_delete] at hkey
  show ((d.objects.erase key).lookup k).isSome
  rw [Table.lookup_erase_eq, if_neg]
  · exact h k hkey
  · rintro rfl
    exact hk hkey

theorem Stored.setImageKey {key : Option String}
    (h : ∀ k, key = some k → (d.objects.lookup k).isSome) : (d.setImageKey key).Stored :=
  fun k hk => h k (imageKey_setImageKey hk)

end CoverDesk

/-- The key a delete is about is not the row's. -/
def CoverStage.NotShown (d : CoverDesk) (t : CoverStage) : Prop :=
  ∀ key, t = .deleting key → d.imageKey ≠ some key

/-- A key is written only while its object is stored and no request is about to delete it. -/
def WritesStored (s : Tasks CoverDesk CoverStage) : Turn CoverRequest CallOutcome Upload → Prop
  | .go i out => out ≠ .failed → ∀ key old, s.tasks[i]? = some (.writing (some key) old) →
      (s.state.objects.lookup key).isSome ∧ ∀ u ∈ s.tasks, u ≠ .deleting key
  | _ => True

section

variable {eventId : String} {d : CoverDesk} {s : Tasks CoverDesk CoverStage}

theorem notShown_cleanup {old key : Option String} {t : CoverStage} (h : cleanup old key = some t) :
    t.NotShown (d.setImageKey key) := by
  rintro k rfl hshown
  have hkey := CoverDesk.imageKey_setImageKey hshown
  unfold cleanup at h
  rcases old with _ | k'
  · simp at h
  · simp only [hkey, Option.some.injEq] at h
    split_ifs at h with hne
    simp only [Option.some.injEq, CoverStage.deleting.injEq] at h
    exact hne (.inr h.symm)

theorem notShown_afterGet {event : EventRecord} {q : CoverRequest} {t : CoverStage}
    (h : CoverDesk.afterGet eventId event q = some t) : t.NotShown d := by
  rintro k rfl
  cases q with
  | removeCoverImage => simp [CoverDesk.afterGet] at h
  | setCoverImage key =>
    simp only [CoverDesk.afterGet] at h
    split_ifs at h
    cases h

/-- A write that takes effect, with the deletes of the other requests. -/
theorem write_cover {key : Option String} {others : List CoverStage}
    (hwrite : ∀ k, key = some k →
      (d.objects.lookup k).isSome ∧ ∀ u ∈ others, u ≠ .deleting k) :
    (d.setImageKey key).Stored ∧ ∀ u ∈ others, u.NotShown (d.setImageKey key) := by
  refine ⟨CoverDesk.Stored.setImageKey fun k hk => (hwrite k hk).1, fun u hu k hdel hshown => ?_⟩
  exact (hwrite k (CoverDesk.imageKey_setImageKey hshown)).2 u hu hdel

theorem next_cover {t : CoverStage} {out : CallOutcome} {others : List CoverStage}
    (hI : d.Stored) (ht : t.NotShown d)
    (hwrite : out ≠ .failed → ∀ key old, t = .writing (some key) old →
      (d.objects.lookup key).isSome ∧ ∀ u ∈ others, u ≠ .deleting key) :
    (d.next eventId t out).1.Stored ∧
      (∀ t', (d.next eventId t out).2 = some t' → t'.NotShown (d.next eventId t out).1) ∧
      ∀ u ∈ others, u.NotShown d → u.NotShown (d.next eventId t out).1 := by
  have stays : d.Stored ∧ (∀ t' : CoverStage, none = some t' → t'.NotShown d) ∧
      ∀ u ∈ others, u.NotShown d → u.NotShown d := ⟨hI, by simp, fun _ _ h => h⟩
  have writes (key old) (hkey : t = .writing key old) (hout : out ≠ .failed) :=
    @write_cover d key others
      fun k hk => hwrite hout k old (hk ▸ hkey)
  cases t with
  | getting q =>
    cases out with
    | ok =>
      refine ⟨hI, fun t' ht' => ?_, fun _ _ h => h⟩
      obtain ⟨event, -, hget⟩ := Option.bind_eq_some_iff.1 ht'
      exact notShown_afterGet hget
    | failed => exact stays
    | lost => exact stays
  | heading key old =>
    cases out with
    | ok =>
      simp only [CoverDesk.next]
      split
      · exact stays
      · refine ⟨hI, fun t' ht' => ?_, fun _ _ h => h⟩
        obtain rfl := Option.some.inj ht'
        rintro k ⟨⟩
    | failed => exact stays
    | lost => exact stays
  | writing key old =>
    cases out with
    | ok =>
      simp only [CoverDesk.next]
      split
      · exact stays
      · obtain ⟨hstored, hothers⟩ := writes key old rfl (by simp)
        exact ⟨hstored, fun t' ht' => notShown_cleanup ht', fun u hu _ => hothers u hu⟩
    | failed => exact stays
    | lost =>
      obtain ⟨hstored, hothers⟩ := writes key old rfl (by simp)
      exact ⟨hstored, by simp [CoverDesk.next], fun u hu _ => hothers u hu⟩
  | deleting key =>
    have deleted : (d.delete key).Stored ∧
        (∀ t' : CoverStage, none = some t' → t'.NotShown (d.delete key)) ∧
        ∀ u ∈ others, u.NotShown d → u.NotShown (d.delete key) :=
      ⟨hI.delete (ht key rfl), by simp, fun _ _ h => h⟩
    cases out with
    | ok => exact deleted
    | failed => exact stays
    | lost => exact deleted

theorem step_cover (e : Turn CoverRequest CallOutcome Upload)
    (h : s.Sound CoverDesk.Stored CoverStage.NotShown) (he : WritesStored s e) :
    (s.step (coverWork eventId) e).Sound CoverDesk.Stored CoverStage.NotShown := by
  cases e with
  | start q => exact h.start fun key hkey => by cases hkey
  | world u => exact h.world h.state.put fun _ _ ht => ht
  | go i out =>
    refine h.go fun t hi ht => next_cover h.state ht fun hout key old hkey => ?_
    obtain ⟨hstored, hnone⟩ := he hout key old (hkey ▸ hi)
    exact ⟨hstored, fun u hu => hnone u (List.mem_of_mem_eraseIdx hu)⟩

end

/-- Where no key is written whose object is gone or about to be deleted by another request, the
event's key names a stored object, whatever the requests, their order and their failures. -/
theorem cover_stored (eventId : String) (d : CoverDesk) (hd : d.Stored)
    (turns : List (Turn CoverRequest CallOutcome Upload))
    (hwrites : EveryStep (Tasks.step (coverWork eventId)) WritesStored ⟨d, []⟩ turns) :
    ((⟨d, []⟩ : Tasks CoverDesk CoverStage).run (coverWork eventId) turns).state.Stored := by
  have start : (⟨d, []⟩ : Tasks CoverDesk CoverStage).Sound CoverDesk.Stored CoverStage.NotShown :=
    ⟨hd, by simp⟩
  exact (start.run (fun s e h => step_cover e h) hwrites).state

def coverA : String := "events/e1/cover-aaaaaaaaaaaa.jpg"
def coverB : String := "events/e1/cover-bbbbbbbbbbbb.png"

/-- A draft whose cover is the first of two uploads. -/
def coverShown : CoverDesk :=
  { event := some
      { title := "Launch night", slug := "launch", status := .draft, startsAt := 100 * dayMs
        endsAt := none, registrationOpensAt := some (80 * dayMs)
        registrationClosesAt := some (95 * dayMs), venue := none, venueHidden := false
        venueArea := none, hideAvailability := false, imageKey := some coverA }
    objects := ((∅ : Table String StoredObjectInfo).insert coverA
      ⟨some "image/jpeg", some 1024⟩).insert coverB ⟨some "image/png", some 2048⟩ }

/-- The second upload is set, call by call. -/
def replaceCover : List (Turn CoverRequest CallOutcome Upload) :=
  [.start (.setCoverImage coverB), .go 0 .ok, .go 0 .ok, .go 0 .ok, .go 0 .ok]

/-- Meanwhile the request that set the first one is sent again: it finds its object still there,
and writes its key after the other one's. -/
def replaceCoverResent : List (Turn CoverRequest CallOutcome Upload) :=
  [.start (.setCoverImage coverB), .start (.setCoverImage coverA), .go 0 .ok, .go 1 .ok,
    .go 0 .ok, .go 1 .ok, .go 0 .ok, .go 1 .ok, .go 0 .ok]

def coverAfter (turns : List (Turn CoverRequest CallOutcome Upload)) :
    Tasks CoverDesk CoverStage :=
  (⟨coverShown, []⟩ : Tasks CoverDesk CoverStage).run (coverWork "e1") turns

theorem coverShown_stored : coverShown.Stored := by
  intro key hkey
  obtain rfl := Option.some.inj hkey
  decide

theorem cover_stored_replaced :
    (coverAfter replaceCover).state.Stored ∧
      (coverAfter replaceCover).state.imageKey = some coverB := by
  refine ⟨cover_stored "e1" coverShown coverShown_stored replaceCover ?_, by decide⟩
  refine ⟨trivial, ?_, ?_, ?_, ?_, trivial⟩
  · rintro - key old ⟨⟩
  · rintro - key old ⟨⟩
  · rintro - key old ⟨⟩
    exact ⟨by decide, by decide⟩
  · rintro - key old ⟨⟩

/-- A key sent again between the other request's write and its delete ends up on the event, and its
object is deleted. -/
theorem cover_deleted_resent :
    coverShown.Stored ∧ (coverAfter replaceCoverResent).tasks = [] ∧
      (coverAfter replaceCoverResent).state.imageKey = some coverA ∧
      ¬ (coverAfter replaceCoverResent).state.Stored := by
  refine ⟨coverShown_stored, by decide, by decide, fun h => ?_⟩
  have hstored := h coverA (by decide)
  exact absurd hstored (by decide)

end EchoAndAura
