import Mathlib.Data.List.Perm.Subperm
import Mathlib.Tactic.SplitIfs

/-!
# Draining a queue in batches

A queue that is read from its front, so many items at a time, each tried once; an item that is done
leaves the queue, one that fails stays in it and is passed over from then on, the batch read so much
longer.  However many items fail and wherever they stand, each full batch tries as many new items as
a batch is long, and a batch that is not full is the last (`drain_fair`).
-/

namespace Drain

variable {σ ι : Type}

/-- A queue, as it stands in a state, and what trying an item comes to: the state with the item
done, or none when it fails and changes nothing. -/
structure Queue (σ ι : Type) where
  waiting : σ → List ι
  attempt : σ → ι → Option σ

namespace Queue

variable (Q : Queue σ ι)

/-- Trying an item that waits takes it out or leaves everything as it is. -/
structure Sound : Prop where
  nodup : ∀ s, (Q.waiting s).Nodup
  taken : ∀ {s s' i}, i ∈ Q.waiting s → Q.attempt s i = some s' →
    ∀ j, j ∈ Q.waiting s' ↔ j ∈ Q.waiting s ∧ j ≠ i

/-- Attempts one after another, with what came of each. -/
inductive Run : σ → List (ι × Bool) → σ → Prop
  | nil {s} : Run s [] s
  | done {s s₁ i tried s'} (ok : Q.attempt s i = some s₁) (rest : Run s₁ tried s') :
      Run s ((i, true) :: tried) s'
  | failed {s i tried s'} (error : Q.attempt s i = none) (rest : Run s tried s') :
      Run s ((i, false) :: tried) s'

/-- The items of one batch: what came of them, the state after, and the items to pass over. -/
def attemptAll : List ι → σ → List ι → List (ι × Bool) × σ × List ι
  | [], s, skipped => ([], s, skipped)
  | i :: items, s, skipped =>
    match Q.attempt s i with
    | some s₁ =>
      let r := attemptAll items s₁ skipped
      ((i, true) :: r.1, r.2)
    | none =>
      let r := attemptAll items s (i :: skipped)
      ((i, false) :: r.1, r.2)

/-- The items of a batch that failed, the last of them first. -/
def failures (tried : List (ι × Bool)) : List ι := ((tried.filter (!·.2)).map (·.1)).reverse

variable [DecidableEq ι]

/-- Batches as they are read: each tries the front of the queue as the ones before it have left it,
so much longer than a batch as items are passed over, less those items. -/
inductive Reads (batch : Nat) : σ → List ι → List (List (ι × Bool)) → σ → Prop
  | nil {s skipped} : Reads batch s skipped [] s
  | cons {s skipped tried s₁ batches s'} (some : tried ≠ [])
      (read : tried.map (·.1) =
        ((Q.waiting s).take (batch + skipped.length)).filter fun i => !skipped.contains i)
      (run : Q.Run s tried s₁) (rest : Reads batch s₁ (failures tried ++ skipped) batches s') :
      Reads batch s skipped (tried :: batches) s'

/-- Some rounds of batches: what came of each batch, and the state after. -/
def drain (batch : Nat) : Nat → σ → List ι → List (List (ι × Bool)) × σ
  | 0, s, _ => ([], s)
  | rounds + 1, s, skipped =>
    let limit := batch + skipped.length
    let fetched := (Q.waiting s).take limit
    let fresh := fetched.filter fun i => !skipped.contains i
    if fresh.isEmpty then ([], s)
    else
      let r := Q.attemptAll fresh s skipped
      if fetched.length < limit then ([r.1], r.2.1)
      else
        let rest := drain batch rounds r.2.1 r.2.2
        (r.1 :: rest.1, rest.2)

end Queue

variable {Q : Queue σ ι} {s s' s₁ : σ} {i : ι} {items skipped : List ι}
  {tried tried' : List (ι × Bool)}

theorem Queue.Run.append (h : Q.Run s tried s₁) (h' : Q.Run s₁ tried' s') :
    Q.Run s (tried ++ tried') s' := by
  induction h with
  | nil => exact h'
  | done ok _ ih => exact .done ok (ih h')
  | failed error _ ih => exact .failed error (ih h')

theorem Queue.Reads.run [DecidableEq ι] {batch : Nat} {batches : List (List (ι × Bool))}
    (h : Q.Reads batch s skipped batches s') : Q.Run s batches.flatten s' := by
  induction h with
  | nil => exact .nil
  | cons _ _ run _ ih => exact run.append ih

/-- What a batch failed on is passed over from then on. -/
theorem attemptAll_skipped : ∀ (items : List ι) (s : σ) (skipped : List ι),
    (Q.attemptAll items s skipped).2.2 =
      Queue.failures (Q.attemptAll items s skipped).1 ++ skipped
  | [], _, _ => rfl
  | i :: items, s, skipped => by
    unfold Queue.attemptAll
    rcases Q.attempt s i with _ | s₁
    · simp [attemptAll_skipped items, Queue.failures]
    · simp [attemptAll_skipped items, Queue.failures]

/-- Each attempt is made in a state that the attempts before it lead to, its item waiting. -/
theorem Queue.Run.turn (hQ : Q.Sound) (h : Q.Run s tried s') (hnodup : (tried.map (·.1)).Nodup)
    (hwaits : ∀ a ∈ tried, a.1 ∈ Q.waiting s) {a : ι × Bool} (ha : a ∈ tried) :
    ∃ before s₁, Q.Run s before s₁ ∧ a.1 ∈ Q.waiting s₁ ∧
      (a.2 = true ↔ (Q.attempt s₁ a.1).isSome) := by
  induction h with
  | nil => cases ha
  | @done s s₁ i tried s' ok rest ih =>
    rw [List.map_cons, List.nodup_cons] at hnodup
    have hi := hwaits _ List.mem_cons_self
    rcases List.mem_cons.1 ha with rfl | ha
    · exact ⟨[], _, .nil, hi, by simp [ok]⟩
    · have hstill : ∀ a ∈ tried, a.1 ∈ Q.waiting s₁ := fun b hb =>
        (hQ.taken hi ok b.1).2 ⟨hwaits b (List.mem_cons_of_mem _ hb),
          fun heq => hnodup.1 (heq ▸ List.mem_map_of_mem hb)⟩
      obtain ⟨before, s₁, hbefore, hturn⟩ := ih hnodup.2 hstill ha
      exact ⟨_, s₁, .done ok hbefore, hturn⟩
  | failed error rest ih =>
    rw [List.map_cons, List.nodup_cons] at hnodup
    rcases List.mem_cons.1 ha with rfl | ha
    · exact ⟨[], _, .nil, hwaits _ List.mem_cons_self, by simp [error]⟩
    · obtain ⟨before, s₁, hbefore, hturn⟩ :=
        ih hnodup.2 (fun b hb => hwaits b (List.mem_cons_of_mem _ hb)) ha
      exact ⟨_, s₁, .failed error hbefore, hturn⟩

/-- The items neither done nor passed over. -/
def Queue.Untried (Q : Queue σ ι) (s : σ) (skipped : List ι) (i : ι) : Prop :=
  i ∈ Q.waiting s ∧ i ∉ skipped

/-- What is passed over is in the queue still, once. -/
def Queue.PassedOver (Q : Queue σ ι) (s : σ) (skipped : List ι) : Prop :=
  skipped.Nodup ∧ ∀ i ∈ skipped, i ∈ Q.waiting s

/-- A batch tries its items, each once, and no other. -/
theorem attemptAll_spec (h : Q.Sound) : ∀ {items : List ι} {s : σ} {skipped : List ι},
    items.Nodup → (∀ i ∈ items, Q.Untried s skipped i) → Q.PassedOver s skipped →
      Q.Run s (Q.attemptAll items s skipped).1 (Q.attemptAll items s skipped).2.1 ∧
        (Q.attemptAll items s skipped).1.map (·.1) = items ∧
        Q.PassedOver (Q.attemptAll items s skipped).2.1 (Q.attemptAll items s skipped).2.2 ∧
        ∀ j, Q.Untried (Q.attemptAll items s skipped).2.1 (Q.attemptAll items s skipped).2.2 j ↔
          Q.Untried s skipped j ∧ j ∉ items
  | [], s, skipped, _, _, hskipped => ⟨.nil, rfl, hskipped, fun j => by simp [Queue.attemptAll]⟩
  | i :: items, s, skipped, hnodup, huntried, hskipped => by
    rw [List.nodup_cons] at hnodup
    obtain ⟨hwaits, hnew⟩ := huntried i List.mem_cons_self
    have hrest : ∀ j ∈ items, Q.Untried s skipped j ∧ j ≠ i := fun j hj =>
      ⟨huntried j (List.mem_cons_of_mem _ hj), fun heq => hnodup.1 (heq ▸ hj)⟩
    unfold Queue.attemptAll
    rcases hi : Q.attempt s i with _ | s₁
    · have hpassed : Q.PassedOver s (i :: skipped) := by
        refine ⟨List.nodup_cons.2 ⟨hnew, hskipped.1⟩, fun j hj => ?_⟩
        rcases List.mem_cons.1 hj with rfl | hj
        · exact hwaits
        · exact hskipped.2 j hj
      obtain ⟨hrun, hitems, hpassed', hleft⟩ := attemptAll_spec h hnodup.2
        (fun j hj => ⟨(hrest j hj).1.1, List.not_mem_cons_of_ne_of_not_mem (hrest j hj).2 (hrest j hj).1.2⟩)
        hpassed
      refine ⟨.failed hi hrun, congrArg (i :: ·) hitems, hpassed', fun j => ?_⟩
      rw [hleft]
      simp only [Queue.Untried, List.mem_cons, not_or]
      tauto
    · have htaken := h.taken hwaits hi
      have hpassed : Q.PassedOver s₁ skipped := by
        refine ⟨hskipped.1, fun j hj => (htaken j).2 ⟨hskipped.2 j hj, ?_⟩⟩
        rintro rfl
        exact hnew hj
      obtain ⟨hrun, hitems, hpassed', hleft⟩ := attemptAll_spec h hnodup.2
        (fun j hj => ⟨(htaken j).2 ⟨(hrest j hj).1.1, (hrest j hj).2⟩, (hrest j hj).1.2⟩) hpassed
      refine ⟨.done hi hrun, congrArg (i :: ·) hitems, hpassed', fun j => ?_⟩
      rw [hleft]
      simp only [Queue.Untried, List.mem_cons, not_or, htaken]
      tauto

variable [DecidableEq ι]

/-- A full batch has so many new items. -/
theorem fresh_length {fetched : List ι} {batch : Nat} (hfetched : fetched.Nodup)
    (hfull : batch + skipped.length ≤ fetched.length) :
    batch ≤ (fetched.filter fun i => !skipped.contains i).length := by
  have hsplit := List.length_eq_length_filter_add (l := fetched) (fun i => skipped.contains i)
  have hold : (fetched.filter fun i => skipped.contains i).length ≤ skipped.length := by
    refine (List.subperm_of_subset (hfetched.filter _) fun i hi => ?_).length_le
    simpa using (List.mem_filter.1 hi).2
  omega

/-- What the rounds of a drain try, from where some items are passed over. -/
structure Fair (Q : Queue σ ι) (batch rounds : Nat) (s : σ) (skipped : List ι)
    (r : List (List (ι × Bool)) × σ) : Prop where
  reads : Q.Reads batch s skipped r.1 r.2
  once : (r.1.flatten.map (·.1)).Nodup
  untried : ∀ a ∈ r.1.flatten, Q.Untried s skipped a.1
  bounded : r.1.length ≤ rounds
  full : ∀ b ∈ r.1.dropLast, batch ≤ b.length
  enough : (∀ i, Q.Untried s skipped i → i ∈ r.1.flatten.map (·.1)) ∨
    r.1.length = rounds ∧ ∀ b ∈ r.1, batch ≤ b.length

theorem drain_fair_from (h : Q.Sound) {batch : Nat} (hbatch : 0 < batch) :
    ∀ (rounds : Nat) {s : σ} {skipped : List ι}, Q.PassedOver s skipped →
      Fair Q batch rounds s skipped (Q.drain batch rounds s skipped)
  | 0, s, skipped, _ => ⟨.nil, .nil, by simp [Queue.drain], Nat.le_refl 0, by simp [Queue.drain],
      .inr ⟨rfl, by simp [Queue.drain]⟩⟩
  | rounds + 1, s, skipped, hskipped => by
    unfold Queue.drain
    dsimp only
    generalize hlimit : batch + skipped.length = limit
    generalize hfetch : (Q.waiting s).take limit = fetched
    generalize hfilter : (fetched.filter fun i => !skipped.contains i) = fresh
    have hfetched : fetched.Nodup := hfetch ▸ (h.nodup s).sublist (List.take_sublist _ _)
    have hfresh : ∀ i ∈ fresh, Q.Untried s skipped i := by
      intro i hi
      rw [← hfilter, List.mem_filter] at hi
      exact ⟨List.mem_of_mem_take (hfetch ▸ hi.1), by simpa using hi.2⟩
    have hmany : limit ≤ fetched.length → batch ≤ fresh.length := fun hfull =>
      hfilter ▸ fresh_length hfetched (hlimit.symm ▸ hfull)
    have hshort : fetched.length < limit → ∀ i, Q.Untried s skipped i → i ∈ fresh := by
      intro hlt i hi
      rw [← hfetch, List.length_take] at hlt
      have hall : fetched = Q.waiting s := hfetch ▸ List.take_of_length_le (by omega)
      rw [← hfilter, List.mem_filter, hall]
      exact ⟨hi.1, by simpa using hi.2⟩
    have hnodup : fresh.Nodup := hfilter ▸ hfetched.filter _
    obtain ⟨hrun, hitems, hpassed, hleft⟩ := attemptAll_spec h hnodup hfresh hskipped
    have hread : (Q.attemptAll fresh s skipped).1.map (·.1) =
        ((Q.waiting s).take (batch + skipped.length)).filter fun i => !skipped.contains i := by
      rw [hitems, hlimit, hfetch, hfilter]
    have hsome : fresh.isEmpty = false → (Q.attemptAll fresh s skipped).1 ≠ [] := by
      rintro hne hnil
      rw [hnil, List.map_nil] at hitems
      rw [← hitems] at hne
      cases hne
    have hlength := congrArg List.length hitems
    rw [List.length_map] at hlength
    split_ifs with hnone hlt
    · rw [List.isEmpty_iff] at hnone
      have hlt : fetched.length < limit := by
        by_contra hfull
        have := hmany (Nat.le_of_not_lt hfull)
        rw [hnone, List.length_nil] at this
        omega
      refine ⟨.nil, .nil, by simp, Nat.zero_le _, by simp, .inl fun i hi => ?_⟩
      have hmem := hshort hlt i hi
      rw [hnone] at hmem
      cases hmem
    · refine ⟨.cons (hsome (by simpa using hnone)) hread hrun .nil, ?_, ?_, by simp, by simp,
        .inl fun i hi => ?_⟩
      · simpa [hitems] using hnodup
      · intro a ha
        rw [List.flatten_singleton] at ha
        exact hfresh a.1 (hitems ▸ List.mem_map_of_mem ha)
      · rw [List.flatten_singleton, hitems]
        exact hshort hlt i hi
    · have ih := drain_fair_from h hbatch rounds hpassed
      have hbig := hlength.symm ▸ hmany (Nat.le_of_not_lt hlt)
      refine ⟨.cons (hsome (by simpa using hnone)) hread hrun (attemptAll_skipped fresh .. ▸ ih.reads),
        ?_, ?_, Nat.succ_le_succ ih.bounded, ?_, ?_⟩
      · rw [List.flatten_cons, List.map_append, hitems, List.nodup_append]
        refine ⟨hnodup, ih.once, fun i hi j hj heq => ?_⟩
        obtain ⟨a, ha, rfl⟩ := List.mem_map.1 hj
        exact ((hleft a.1).1 (ih.untried a ha)).2 (heq ▸ hi)
      · intro a ha
        rcases List.mem_append.1 ha with ha | ha
        · exact hfresh a.1 (hitems ▸ List.mem_map_of_mem ha)
        · exact ((hleft a.1).1 (ih.untried a ha)).1
      · intro b hb
        rcases hrest : (Q.drain batch rounds _ _).1 with _ | ⟨b', bs⟩
        · rw [hrest] at hb
          simp at hb
        · rw [hrest, List.dropLast_cons_of_ne_nil (List.cons_ne_nil _ _)] at hb
          rcases List.mem_cons.1 hb with rfl | hb
          · exact hbig
          · exact ih.full b (hrest ▸ hb)
      · rcases ih.enough with hall | ⟨hrounds, hfull⟩
        · refine .inl fun i hi => ?_
          rw [List.flatten_cons, List.map_append, hitems, List.mem_append]
          by_cases hmem : i ∈ fresh
          · exact .inl hmem
          · exact .inr (hall i ((hleft i).2 ⟨hi, hmem⟩))
        · refine .inr ⟨congrArg Nat.succ hrounds, fun b hb => ?_⟩
          rcases List.mem_cons.1 hb with rfl | hb
          · exact hbig
          · exact hfull b hb

theorem drain_fair (h : Q.Sound) {batch : Nat} (hbatch : 0 < batch) (rounds : Nat) (s : σ) :
    Fair Q batch rounds s [] (Q.drain batch rounds s []) :=
  drain_fair_from h hbatch rounds ⟨.nil, by simp⟩

theorem length_flatten_ge {α : Type} {batch : Nat} : ∀ {bs : List (List α)},
    (∀ b ∈ bs, batch ≤ b.length) → batch * bs.length ≤ bs.flatten.length
  | [], _ => by simp
  | b :: bs, h => by
    have hb := h b List.mem_cons_self
    have hbs := length_flatten_ge fun b hb => h b (List.mem_cons_of_mem _ hb)
    rw [List.flatten_cons, List.length_append, List.length_cons, Nat.mul_succ]
    omega

/-- A queue that its rounds have room for is tried through. -/
theorem Fair.all {batch rounds : Nat} {r : List (List (ι × Bool)) × σ}
    (h : Fair Q batch rounds s [] r) (hroom : (Q.waiting s).length ≤ batch * rounds) :
    ∀ i ∈ Q.waiting s, i ∈ r.1.flatten.map (·.1) := by
  intro i hi
  rcases h.enough with hall | ⟨hrounds, hfull⟩
  · exact hall i ⟨hi, by simp⟩
  · have hmany := length_flatten_ge hfull
    rw [hrounds] at hmany
    have hsubset : r.1.flatten.map (·.1) ⊆ Q.waiting s := by
      intro j hj
      obtain ⟨a, ha, rfl⟩ := List.mem_map.1 hj
      exact (h.untried a ha).1
    have hperm := (List.subperm_of_subset h.once hsubset).perm_of_length_le (by
      rw [List.length_map]
      omega)
    exact hperm.mem_iff.2 hi

end Drain
