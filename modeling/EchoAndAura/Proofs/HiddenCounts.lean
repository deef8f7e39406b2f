import EchoAndAura.EventPages

/-!
# Hidden counts do not show

A type without its counts (`withoutCounts`) keeps whether it is sold out.  Every page of an event
that hides them says the same of its types as of the types without their counts, so two lists that
only differ in them show the same.
-/

namespace EchoAndAura

section Counts

/-- The counts of a type forgotten, but not that it is sold out. -/
def withoutCounts (t : Id × TicketType) : Id × TicketType :=
  (t.1, { t.2 with
    quantityTotal := if t.2.available ≤ 0 then 0 else 1
    quantitySold := 0
    quantityReserved := 0 })

variable {t t' : Id × TicketType} {now : Time}

theorem available_withoutCounts :
    (withoutCounts t).2.available = if t.2.available ≤ 0 then 0 else 1 := by
  unfold withoutCounts TicketType.available
  dsimp only
  split_ifs <;> rfl

theorem soldOut_withoutCounts : (withoutCounts t).2.available ≤ 0 ↔ t.2.available ≤ 0 := by
  rw [available_withoutCounts]
  split_ifs with h
  · exact iff_of_true (Int.le_refl 0) h
  · exact iff_of_false (by decide) h

theorem saleState_withoutCounts :
    ticketTypeSaleState (withoutCounts t).2 now = ticketTypeSaleState t.2 now := by
  unfold ticketTypeSaleState
  rw [if_congr soldOut_withoutCounts rfl rfl]
  rfl

/-- Two types that differ in their counts alone, and are both sold out or both not. -/
def SameButCounts (t t' : Id × TicketType) : Prop :=
  t'.1 = t.1 ∧ (t'.2 = { t.2 with
    quantityTotal := t'.2.quantityTotal
    quantitySold := t'.2.quantitySold
    quantityReserved := t'.2.quantityReserved }) ∧ (t'.2.available ≤ 0 ↔ t.2.available ≤ 0)

theorem SameButCounts.withoutCounts (h : SameButCounts t t') :
    withoutCounts t = withoutCounts t' := by
  obtain ⟨hid, htype, hsold⟩ := h
  unfold EchoAndAura.withoutCounts
  rw [hid, if_congr hsold rfl rfl, htype]

theorem map_withoutCounts {types types' : List (Id × TicketType)}
    (h : List.Forall₂ SameButCounts types types') :
    types.map withoutCounts = types'.map withoutCounts := by
  induction h with
  | nil => rfl
  | cons hsame _ ih => rw [List.map_cons, List.map_cons, hsame.withoutCounts, ih]

end Counts

section Phase

theorem availableTotal_pos : ∀ types : List (Id × TicketType),
    0 ≤ availableTotal types ∧
      (availableTotal types ≤ 0 ↔ ∀ t ∈ types, t.2.available ≤ 0)
  | [] => by simp [availableTotal]
  | t :: types => by
    obtain ⟨hnonneg, hiff⟩ := availableTotal_pos types
    have hcons : availableTotal (t :: types) = max 0 t.2.available + availableTotal types := by
      unfold availableTotal
      rw [List.map_cons, List.sum_cons]
    rw [hcons, List.forall_mem_cons, ← hiff]
    omega

/-- The phase asks of the sum only whether anything is left. -/
theorem eventPhase_congr {event : Event} {a b : Int} {now : Time} (h : a ≤ 0 ↔ b ≤ 0) :
    eventPhase event a now = eventPhase event b now := by
  unfold eventPhase
  simp only [h]

theorem phase_withoutCounts (event : Event) (types : List (Id × TicketType)) (now : Time) :
    eventPhase event (availableTotal (types.map withoutCounts)) now =
      eventPhase event (availableTotal types) now := by
  refine eventPhase_congr ?_
  rw [(availableTotal_pos _).2, (availableTotal_pos _).2, List.forall_mem_map]
  exact forall₂_congr fun t _ => soldOut_withoutCounts

end Phase

section Offer

variable {types : List (Id × TicketType)} {now : Time}

theorem stillAvailable_withoutCounts :
    stillAvailable now ∘ withoutCounts = stillAvailable now := by
  funext t
  unfold stillAvailable
  rw [Function.comp_apply, saleState_withoutCounts]

theorem filter_withoutCounts {p : Id × TicketType → Bool} (hp : p ∘ withoutCounts = p) :
    (types.map withoutCounts).filter p = (types.filter p).map withoutCounts := by
  rw [List.filter_map, hp]

theorem earlyBirdIds_withoutCounts (close : Option Time) :
    earlyBirdIds (types.map withoutCounts) close = earlyBirdIds types close := by
  unfold earlyBirdIds
  cases close with
  | none => rfl
  | some close =>
    have hruns : runsToClose close ∘ withoutCounts = runsToClose close := rfl
    dsimp only
    rw [filter_withoutCounts hruns, List.map_map]
    have hprices : ((fun t : Id × TicketType => t.2.pricePaisa) ∘ withoutCounts) =
        fun t => t.2.pricePaisa := rfl
    rw [hprices]
    cases minPrice ((types.filter (runsToClose close)).map fun t => t.2.pricePaisa) with
    | none => rfl
    | some regularPaisa =>
      dsimp only
      rw [filter_withoutCounts rfl, List.map_map]
      rfl

theorem cheapest_fold : ∀ (types : List (Id × TicketType)) (best : Option (Id × TicketType)),
    (types.map withoutCounts).foldl (fun best t =>
        if best.all fun b => t.2.pricePaisa < b.2.pricePaisa then some t else best)
      (best.map withoutCounts) =
    (types.foldl (fun best t =>
        if best.all fun b => t.2.pricePaisa < b.2.pricePaisa then some t else best) best).map
      withoutCounts
  | [], _ => rfl
  | t :: types, best => by
    rw [List.map_cons, List.foldl_cons, List.foldl_cons, ← cheapest_fold types]
    congr 1
    cases best with
    | none => rfl
    | some b =>
      simp only [Option.map_some, Option.all_some]
      have hless : decide ((withoutCounts t).2.pricePaisa < (withoutCounts b).2.pricePaisa) =
          decide (t.2.pricePaisa < b.2.pricePaisa) := rfl
      rw [hless]
      split_ifs <;> rfl

theorem cheapest_withoutCounts :
    cheapest (types.map withoutCounts) = (cheapest types).map withoutCounts :=
  cheapest_fold types none

/-- The counts forgotten of a type found by the end of its sales. -/
def endWithoutCounts (eb : Time × Id × TicketType) : Time × Id × TicketType :=
  (eb.1, withoutCounts eb.2)

theorem currentEarlyBird_withoutCounts (ids : List Id) :
    currentEarlyBird (types.map withoutCounts) ids now =
      (currentEarlyBird types ids now).map endWithoutCounts := by
  unfold currentEarlyBird
  dsimp only
  rw [filter_withoutCounts stillAvailable_withoutCounts, filter_withoutCounts rfl,
    List.filterMap_map]
  have hend : salesEnd ∘ withoutCounts = fun t => (salesEnd t).map endWithoutCounts := by
    funext t
    unfold salesEnd
    rw [Function.comp_apply, Option.map_map]
    rfl
  have hsort : ∀ ends : List (Time × Id × TicketType),
      ((ends.map endWithoutCounts).insertionSort fun a b => a.1 ≤ b.1) =
        (ends.insertionSort fun a b => a.1 ≤ b.1).map endWithoutCounts := fun ends =>
    (List.map_insertionSort _ _ endWithoutCounts ends fun _ _ _ _ => Iff.rfl).symm
  rw [hend, ← List.map_filterMap, hsort, List.head?_map]

theorem offerSummary_withoutCounts (event : Event) :
    offerSummary (types.map withoutCounts) event now = offerSummary types event now := by
  unfold offerSummary
  dsimp only
  rw [earlyBirdIds_withoutCounts, currentEarlyBird_withoutCounts,
    filter_withoutCounts stillAvailable_withoutCounts, List.length_map]
  have hfrom : cheapest (if ((types.filter (stillAvailable now)).map withoutCounts).isEmpty then
        types.map withoutCounts else (types.filter (stillAvailable now)).map withoutCounts) =
      (cheapest (if (types.filter (stillAvailable now)).isEmpty then types
        else types.filter (stillAvailable now))).map withoutCounts := by
    rw [List.isEmpty_map]
    split_ifs
    · exact cheapest_withoutCounts
    · exact cheapest_withoutCounts
  rw [hfrom]
  generalize cheapest _ = cheapestType
  cases currentEarlyBird types (earlyBirdIds types event.registrationClosesAt) now with
  | none => cases cheapestType <;> rfl
  | some eb =>
    have hstate : ticketTypeSaleState (endWithoutCounts eb).2.2 now =
        ticketTypeSaleState eb.2.2 now := saleState_withoutCounts
    simp only [Option.map_some, Option.any_some, hstate]
    cases cheapestType <;> rfl

end Offer

section Pages

variable {types types' : List (Id × TicketType)} {now : Time} {event : PublicEvent}

/-- What a type's availability is, but for how many are left. -/
def TicketAvailability.SameKind (a b : TicketAvailability) : Prop :=
  a = b ∨ ∃ n m, a = .left n ∧ b = .left m

theorem ticketAvailability_withoutCounts (t : Id × TicketType) (now : Time) :
    (ticketAvailability (withoutCounts t).2 now).SameKind (ticketAvailability t.2 now) := by
  unfold ticketAvailability
  rw [saleState_withoutCounts]
  cases ticketTypeSaleState t.2 now with
  | none => exact .inr ⟨_, _, rfl, rfl⟩
  | some state => cases state <;> exact .inl rfl

theorem registerOptions_withoutCounts (formats : Formats) (hide : event.hideAvailability = true) :
    registerOptions formats event (types.map withoutCounts) now =
      registerOptions formats event types now := by
  unfold registerOptions
  rw [List.map_map]
  refine List.map_congr_left fun t _ => ?_
  have hkind := ticketAvailability_withoutCounts t now
  rw [Function.comp_apply, hide]
  unfold optionReason ticketOption
  rcases hkind with heq | ⟨n, m, hn, hm⟩
  · rw [heq]
    rfl
  · rw [hn, hm]
    rfl

theorem ticketList_withoutCounts (w : Wording) (p : TicketListProps) (hide : p.hideCounts = true) :
    ticketList w p (types.map withoutCounts) = ticketList w p types := by
  unfold ticketList
  rw [List.isEmpty_map, List.map_map]
  refine if_congr Iff.rfl rfl (congrArg TicketListView.rows (List.map_congr_left fun t _ => ?_))
  have hkind := ticketAvailability_withoutCounts t p.now
  rw [Function.comp_apply]
  unfold ticketRow rowSubtitle rowChip
  rw [hide]
  rcases hkind with heq | ⟨n, m, hn, hm⟩
  · rw [heq]
    rfl
  · have hsold : (TicketAvailability.left n == .soldOut) = (TicketAvailability.left m == .soldOut) :=
      rfl
    have hclosed : (TicketAvailability.left n == .closed) = (TicketAvailability.left m == .closed) :=
      rfl
    simp only [hn, hm, hsold, hclosed]
    simp [withoutCounts]

theorem eventCta_hidden (w : Wording) (formats : Formats) (phase : EventPhase) (a b : Int)
    (facebookUrl : Option String) (hide : event.hideAvailability = true) :
    eventCta w formats event phase a facebookUrl now =
      eventCta w formats event phase b facebookUrl now := by
  unfold eventCta
  rw [hide]
  rfl

theorem heroCopy_hidden (w : Wording) (formats : Formats) (phase : EventPhase)
    (offer : OfferSummary) (a b : Int) (hide : event.hideAvailability = true) :
    heroCopy w formats phase event offer a now = heroCopy w formats phase event offer b now := by
  unfold heroCopy
  rw [hide]
  simp

theorem offerAvailability_withoutCounts (t : Id × TicketType) :
    offerAvailability (withoutCounts t).2 event.toEvent now =
      offerAvailability t.2 event.toEvent now := by
  unfold offerAvailability
  rw [saleState_withoutCounts]

theorem buildEventJsonLd_withoutCounts (formats : Formats) (siteUrl : String)
    (coverUrl : Option String) :
    buildEventJsonLd formats siteUrl event (types.map withoutCounts) coverUrl now =
      buildEventJsonLd formats siteUrl event types coverUrl now := by
  unfold buildEventJsonLd
  dsimp only
  rw [List.isEmpty_map, List.map_map]
  have hoffers : (fun t : Id × TicketType =>
      offerJsonLd formats event (siteUrl ++ "/events/" ++ event.slug) now t.2) ∘ withoutCounts =
        fun t => offerJsonLd formats event (siteUrl ++ "/events/" ++ event.slug) now t.2 := by
    funext t
    rw [Function.comp_apply]
    unfold offerJsonLd
    rw [offerAvailability_withoutCounts]
    rfl
  rw [hoffers]

/-- What a visitor can see of an event and its types at an instant. -/
structure PublicSurfaces where
  phase : EventPhase
  offer : OfferSummary
  options : List RegisterOption
  ticketList : Bool → TicketListView
  cta : Cta
  hero : HeroCopy
  jsonLd : JsonValue String

def publicSurfaces (w : Wording) (formats : Formats) (siteUrl : String)
    (facebookUrl coverUrl : Option String) (event : PublicEvent) (types : List (Id × TicketType))
    (now : Time) : PublicSurfaces :=
  let available := availableTotal types
  let phase := eventPhase event.toEvent available now
  let offer := offerSummary types event.toEvent now
  { phase, offer
    options := registerOptions formats event types now
    ticketList := fun compact =>
      ticketList w ⟨phase, now, compact, offer.highlightId, event.hideAvailability⟩ types
    cta := eventCta w formats event phase available facebookUrl now
    hero := heroCopy w formats phase event offer available now
    jsonLd := buildEventJsonLd formats siteUrl event types coverUrl now }

variable (w : Wording) (formats : Formats) (siteUrl : String) (facebookUrl coverUrl : Option String)

theorem publicSurfaces_withoutCounts (hide : event.hideAvailability = true) :
    publicSurfaces w formats siteUrl facebookUrl coverUrl event (types.map withoutCounts) now =
      publicSurfaces w formats siteUrl facebookUrl coverUrl event types now := by
  unfold publicSurfaces
  dsimp only
  rw [phase_withoutCounts, offerSummary_withoutCounts, registerOptions_withoutCounts formats hide,
    buildEventJsonLd_withoutCounts,
    eventCta_hidden w formats _ (availableTotal (types.map withoutCounts)) (availableTotal types)
      facebookUrl hide,
    heroCopy_hidden w formats _ _ (availableTotal (types.map withoutCounts)) (availableTotal types)
      hide]
  have hlist : (fun compact => ticketList w ⟨eventPhase event.toEvent (availableTotal types) now, now,
        compact, (offerSummary types event.toEvent now).highlightId, event.hideAvailability⟩
          (types.map withoutCounts)) =
      fun compact => ticketList w ⟨eventPhase event.toEvent (availableTotal types) now, now,
        compact, (offerSummary types event.toEvent now).highlightId, event.hideAvailability⟩
          types :=
    funext fun compact => ticketList_withoutCounts w _ hide
  rw [hlist]

/-- Nothing public tells two lists of types apart that differ in their counts alone. -/
theorem publicSurfaces_hidden (event : PublicEvent) (now : Time)
    (types types' : List (Id × TicketType)) (hide : event.hideAvailability = true)
    (hsame : List.Forall₂ SameButCounts types types') :
    publicSurfaces w formats siteUrl facebookUrl coverUrl event types now =
      publicSurfaces w formats siteUrl facebookUrl coverUrl event types' now := by
  rw [← publicSurfaces_withoutCounts w formats siteUrl facebookUrl coverUrl hide,
    map_withoutCounts hsame, publicSurfaces_withoutCounts w formats siteUrl facebookUrl coverUrl hide]

/-- Texts by their keys, numbers and times by their digits. -/
def keyWording : Wording where
  ticketList key _ := key
  cta key _ := key
  hero key _ := key
  localisedPath path := path
  plainDigits n := toString n
  groupDigits n := toString n
  formatBDT paisa := toString paisa
  formatDhakaLong t := toString t
  formatDhakaShort t := toString t

def digitFormats : Formats where
  dhakaDay t := (t + 21600000) / 86400000
  differenceInCalendarDays a b := a / 86400000 - b / 86400000
  formatDhakaLong t := toString t
  toDhakaIso t := toString t
  formatDecimalBDT paisa := toString paisa
  summary description := description.getD ""

def hiddenShow : PublicEvent where
  slug := "show"
  title := "Show"
  status := .published
  startsAt := 864000000
  endsAt := none
  registrationOpensAt := some 0
  registrationClosesAt := some 432000000
  venue := none
  venueHidden := false
  venueArea := none
  hideAvailability := true
  imageKey := none
  description := none

/-- An early bird, the regular ticket, and one that is sold out; of each, what is in all, sold and
held. -/
def hiddenTypes (early regular vip : Int × Int × Int) : List (Id × TicketType) :=
  [(1, ⟨1, "Early bird", 60000, early.1, early.2.1, early.2.2, none, some 259200000⟩),
    (2, ⟨1, "Regular", 90000, regular.1, regular.2.1, regular.2.2, none, none⟩),
    (3, ⟨1, "VIP", 200000, vip.1, vip.2.1, vip.2.2, none, none⟩)]

def lastFew : List (Id × TicketType) := hiddenTypes (50, 40, 9) (100, 90, 8) (20, 15, 5)

def hundreds : List (Id × TicketType) := hiddenTypes (200, 0, 1) (300, 100, 0) (40, 40, 0)

theorem publicSurfaces_hidden_two :
    (offerSummary lastFew hiddenShow.toEvent 1000).highlightId = some 1 ∧
    (lastFew.map fun t => ticketTypeSaleState t.2 1000) = [none, none, some .soldOut] ∧
    publicSurfaces keyWording digitFormats "" none none hiddenShow lastFew 1000 =
      publicSurfaces keyWording digitFormats "" none none hiddenShow hundreds 1000 := by
  refine ⟨by decide, by decide, ?_⟩
  exact publicSurfaces_hidden keyWording digitFormats "" none none hiddenShow 1000 _ _ rfl
    (.cons ⟨rfl, rfl, by decide⟩ (.cons ⟨rfl, rfl, by decide⟩ (.cons ⟨rfl, rfl, by decide⟩ .nil)))

end Pages

end EchoAndAura
