import EchoAndAura.SponsorLogos
import EchoAndAura.Proofs.Sponsors

/-!
# A logo for every sponsor

Every key has one owner: the row that names it or the request that holds it.  A transaction passes
keys on between its request and the rows (`commit_named`), and nothing else moves a key to a row, so
the key a request deletes is no row's.  A request lets go of a stored object that it holds in two
ways only: its delete fails, or its upload loses its answer.
-/

namespace EchoAndAura

/-- The keys the rows name. -/
def Sponsors.named (t : Sponsors) : List String := (Table.rows t).map (·.logoKey)

section Named

variable {t t' : Sponsors} {id : Id} {row r : SponsorRecord}

theorem named_insert : Sponsors.named (t.insert id row) = row.logoKey :: Sponsors.named (t.erase id) := by
  unfold Sponsors.named
  rw [Table.rows_insert]
  rfl

theorem named_perm_of_lookup (h : t.lookup id = some row) :
    t.named.Perm (row.logoKey :: Sponsors.named (t.erase id)) :=
  (Table.rows_perm_of_lookup h).map SponsorRecord.logoKey

theorem named_insert_new (h : t.lookup id = none) :
    Sponsors.named (t.insert id row) = row.logoKey :: t.named := by
  rw [named_insert, Table.erase_of_lookup_none h]

theorem named_mapRows {f : Id → SponsorRecord → SponsorRecord}
    (hf : ∀ id row, (f id row).logoKey = row.logoKey) : Sponsors.named (t.mapRows f) = t.named := by
  unfold Sponsors.named Table.rows Table.mapRows
  simp only [List.map_map]
  exact List.map_congr_left fun e _ => hf e.1 e.2

theorem shiftPartner_logoKey (id : Id) (row : SponsorRecord) :
    (sponsorsRepository.shiftPartner id row).logoKey = row.logoKey := by
  unfold sponsorsRepository.shiftPartner
  split_ifs <;> rfl

theorem renumberRow_logoKey (ids : List Id) (id : Id) (row : SponsorRecord) :
    (sponsorsRepository.renumberRow ids id row).logoKey = row.logoKey := by
  unfold sponsorsRepository.renumberRow
  split_ifs <;> rfl

theorem renumber_named {ids : List Id} {u : Unit}
    (h : sponsorsRepository.renumber ids t = .ok (u, t')) : t'.named = t.named := by
  cases h
  exact named_mapRows (renumberRow_logoKey ids)

/-- The demotion changes nobody's key. -/
theorem demoteFor_named {level : SponsorLevel} {keepId : Option Id} {time : Time}
    {found : Option SponsorRecord}
    (h : sponsorsService.demoteFor level keepId time t = .ok (found, t')) :
    t'.named.Perm t.named ∧
      ∀ a, (t'.lookup a).map (·.logoKey) = (t.lookup a).map (·.logoKey) := by
  unfold sponsorsService.demoteFor at h
  split_ifs at h
  · obtain ⟨t₀, s, hget, h⟩ := SponsorTx.bind_ok h
    cases hget
    rcases hfind : t.entries.find? fun e => e.2.level == .presenting && keepId != some e.1 with _ | e
    · rw [hfind] at h
      obtain ⟨-, rfl⟩ := SponsorTx.pure_ok h
      exact ⟨List.Perm.refl _, fun _ => rfl⟩
    · rw [hfind] at h
      obtain ⟨u, s, hshift, h⟩ := SponsorTx.bind_ok h
      cases hshift
      have hrow : t.lookup e.1 = some e.2 :=
        AList.mem_lookup_iff.2 (List.mem_of_find?_eq_some hfind)
      have hkeys : ∀ a, ((t.mapRows sponsorsRepository.shiftPartner).lookup a).map (·.logoKey) =
          (t.lookup a).map (·.logoKey) := by
        intro a
        rw [Table.lookup_mapRows, Option.map_map]
        exact Option.map_congr fun row _ => shiftPartner_logoKey a row
      rcases update_ok h with ⟨hnone, -⟩ | ⟨row, hrow', rfl⟩
      · rw [Table.lookup_mapRows, hrow] at hnone
        cases hnone
      · constructor
        · have hperm := named_perm_of_lookup hrow'
          rw [named_mapRows shiftPartner_logoKey] at hperm
          rw [named_insert]
          exact hperm.symm
        · intro a
          rw [← hkeys, Table.lookup_insert_eq]
          split_ifs with ha
          · rw [ha, hrow']
            rfl
          · rfl
  · obtain ⟨-, rfl⟩ := SponsorTx.pure_ok h
    exact ⟨List.Perm.refl _, fun _ => rfl⟩

end Named

section Transactions

variable {t t' : Sponsors} {id : Id} {input : SponsorInput} {time : Time} {r : SponsorRecord}

theorem storeLogo_key {logo : LogoFile} {key : String}
    (h : sponsorsService.storeLogo logo.stored t = .ok (key, t')) : key = logo.key := by
  cases h
  rfl

theorem create_named {logo : LogoFile}
    (hrun : sponsorsService.create id input logo.stored time t = .ok (r, t')) :
    t'.named.Perm (logo.key :: t.named) := by
  obtain ⟨shape, s₁, hcheck, hrun⟩ := SponsorTx.bind_ok hrun
  obtain ⟨key, s₂, hstore, hrun⟩ := SponsorTx.bind_ok hrun
  obtain ⟨demoted, s₃, hdemote, hrun⟩ := SponsorTx.bind_ok hrun
  obtain ⟨order, s₄, hlist, hrun⟩ := SponsorTx.bind_ok hrun
  obtain ⟨row, s₅, hinsert, hrun⟩ := SponsorTx.bind_ok hrun
  obtain ⟨u, s₆, hrenumber, hrun⟩ := SponsorTx.bind_ok hrun
  obtain ⟨-, rfl⟩ := SponsorTx.pure_ok hrun
  rw [(storeLogo_ok hstore).trans (checkLogo_ok hcheck)] at hdemote
  obtain ⟨hnew, hs₅⟩ := insert_ok hinsert
  rw [renumber_named hrenumber, hs₅, named_insert_new hnew, (listIdsByLevel_ok hlist).2,
    ← storeLogo_key hstore]
  exact (demoteFor_named hdemote).1.cons key

theorem mapM_some {α β : Type} {f : α → SponsorTx β} {a : α} {r : Option β}
    (h : (some a).mapM f t = .ok (r, t')) : ∃ b s, f a t = .ok (b, s) ∧ r = some b := by
  have h : ((f a t).bind fun p => .ok (some p.1, p.2)) = .ok (r, t') := h
  rcases hfa : f a t with e | ⟨b, s⟩
  · rw [hfa] at h
    cases h
  · rw [hfa] at h
    cases h
    exact ⟨b, _, rfl, rfl⟩

/-- The key an update leaves on its row. -/
theorem updatedRow_logoKey {logo : Option LogoFile} {s₁ s₂ s₃ : Sponsors}
    {shape : Option (Rat × Rat)} {key : Option String} {position : Nat} {row : SponsorRecord}
    (hcheck : (logo.map (·.stored)).mapM sponsorsService.checkLogo t = .ok (shape, s₁))
    (hstore : (logo.map (·.stored)).mapM sponsorsService.storeLogo s₂ = .ok (key, s₃)) :
    (sponsorsService.updatedRow input (shape.bind fun s => key.map (Prod.mk s)) position time
      row).logoKey = (logo.map (·.key)).getD row.logoKey := by
  rcases logo with _ | logo
  · cases hcheck
    rfl
  · obtain ⟨b, s, -, rfl⟩ := mapM_some hcheck
    obtain ⟨key', s', hkey, rfl⟩ := mapM_some hstore
    exact storeLogo_key hkey

/-- The keys an update of a sponsor takes in and gives out. -/
theorem update_service_named {logo : Option LogoFile}
    (hrun : sponsorsService.update id input (logo.map (·.stored)) time t = .ok (r, t')) :
    ∃ row rest, t.lookup id = some row ∧ t.named.Perm (row.logoKey :: rest) ∧
      t'.named.Perm ((logo.map (·.key)).getD row.logoKey :: rest) := by
  obtain ⟨shape, s₁, hcheck, hrun⟩ := SponsorTx.bind_ok hrun
  obtain ⟨found, s₂, hfound, hrun⟩ := SponsorTx.bind_ok hrun
  obtain ⟨key, s₃, hstore, hrun⟩ := SponsorTx.bind_ok hrun
  obtain ⟨current, s₄, hcurrent, hrun⟩ := SponsorTx.bind_ok hrun
  obtain ⟨demoted, s₅, hdemote, hrun⟩ := SponsorTx.bind_ok hrun
  obtain ⟨order, s₆, hlist, hrun⟩ := SponsorTx.bind_ok hrun
  obtain ⟨row, s₇, hupdate, hrun⟩ := SponsorTx.bind_ok hrun
  have hs₃ : s₃ = t := (mapM_ok (fun _ _ _ => storeLogo_ok) hstore).trans
    ((get_ok hfound).2.trans (mapM_ok (fun _ _ _ => checkLogo_ok) hcheck))
  obtain ⟨hrow, hs₄⟩ := get_ok hcurrent
  rw [hs₄, hs₃] at hdemote
  rw [hs₃] at hrow
  rw [(listIdsByLevel_ok hlist).2] at hupdate
  rcases row with _ | row
  · cases hrun
  rcases update_ok hupdate with ⟨-, hnone, -⟩ | ⟨row', hrow', hs₇⟩
  · cases hnone
  obtain ⟨u, s₈, hrenumber, hrun⟩ := SponsorTx.bind_ok hrun
  have hnamed : t'.named = s₇.named := by
    rw [← renumber_named hrenumber]
    by_cases hsame : current.level = input.level
    · rw [if_neg (not_not.2 hsame)] at hrun
      rw [(SponsorTx.pure_ok hrun).2]
    · rw [if_pos hsame] at hrun
      obtain ⟨left, s₉, hleft, hrun⟩ := SponsorTx.bind_ok hrun
      obtain ⟨u', s₁₀, hclose, hrun⟩ := SponsorTx.bind_ok hrun
      rw [(SponsorTx.pure_ok hrun).2, renumber_named hclose, (listIdsByLevel_ok hleft).2]
  obtain ⟨hperm, hkeys⟩ := demoteFor_named hdemote
  have hkey := hkeys id
  rw [hrow', hrow] at hkey
  have hkey : row'.logoKey = current.logoKey := Option.some.inj hkey
  refine ⟨current, _, hrow, hperm.symm.trans (hkey ▸ named_perm_of_lookup hrow'), ?_⟩
  rw [hnamed, hs₇, named_insert, updatedRow_logoKey hcheck hstore, hkey]

theorem delete_named {u : Unit} (hrun : sponsorsService.delete id t = .ok (u, t')) :
    ∃ row, t.lookup id = some row ∧ t.named.Perm (row.logoKey :: t'.named) := by
  obtain ⟨row, s, hdelete, hrun⟩ := SponsorTx.bind_ok hrun
  have hrow : row = t.lookup id ∧ s = t.erase id := by
    cases hdelete
    exact ⟨rfl, rfl⟩
  rcases row with _ | deleted
  · cases hrun
  obtain ⟨left, s₂, hleft, hclose⟩ := SponsorTx.bind_ok hrun
  refine ⟨deleted, hrow.1.symm, ?_⟩
  rw [renumber_named hclose, (listIdsByLevel_ok hleft).2, hrow.2]
  exact named_perm_of_lookup hrow.1.symm

end Transactions

section Owners

variable {d : LogoDesk} {u u' : LogoStage} {stages stages' rest : List LogoStage}
  {future : List String} {q : LogoRequest} {key : String}

theorem map_ok {ε α β : Type} {x : Except ε α} {f : α → β} {b : β} (h : x.map f = .ok b) :
    ∃ a, x = .ok a ∧ f a = b := by
  rcases x with e | a
  · cases h
  · exact ⟨a, rfl, Except.ok.inj h⟩

/-- A transaction passes keys on between its request and the rows. -/
theorem commit_named {t t' : Sponsors} {old : Option String} (h : q.commit t = .ok (t', old)) :
    (t'.named ++ old.toList).Perm (t.named ++ q.key.toList) := by
  cases q with
  | create id input logo time =>
    obtain ⟨r, hrun, heq⟩ := map_ok h
    cases heq
    rw [Option.toList_none, List.append_nil]
    exact (create_named hrun).trans (List.perm_append_singleton logo.key t.named).symm
  | update id input logo time =>
    obtain ⟨r, hrun, heq⟩ := map_ok h
    cases heq
    obtain ⟨row, rest, hrow, hbefore, hafter⟩ := update_service_named hrun
    rw [hrow]
    rcases logo with _ | logo
    · exact (hafter.trans hbefore.symm).append_right []
    · refine (hafter.append_right [row.logoKey]).trans ?_
      refine List.Perm.trans ?_ (hbefore.append_right [logo.key]).symm
      have hswap := List.Perm.swap logo.key row.logoKey rest
      exact (List.perm_append_singleton ..).trans (hswap.trans (List.perm_append_singleton ..).symm)
  | delete id =>
    obtain ⟨r, hrun, heq⟩ := map_ok h
    cases heq
    obtain ⟨row, hrow, hperm⟩ := delete_named hrun
    rw [hrow]
    show (Sponsors.named r.2 ++ [row.logoKey]).Perm (t.named ++ [])
    rw [List.append_nil]
    exact List.perm_append_comm.trans hperm.symm

/-- The key a request has and no row. -/
def LogoStage.held : LogoStage → Option String
  | .getting q | .committing q => q.key
  | .putting key _ | .deleting key => some key

/-- Where the object of the key it holds is. -/
def LogoStage.Ready (objects : List String) : LogoStage → Prop
  | .getting q => ∀ key, q.key = some key → key ∉ objects
  | .putting key q => q.key = some key ∧ key ∉ objects
  | .committing q => ∀ key, q.key = some key → key ∈ objects
  | .deleting _ => True

/-- Its delete failed, or its upload lost its answer. -/
def LogoDesk.Excused (d : LogoDesk) (key : String) : Prop := key ∈ d.warned ∨ key ∈ d.lost

/-- Every key, of the rows, of the requests and of the uploads still to come, has one owner. -/
structure LogosSound (future : List String) (d : LogoDesk) (stages : List LogoStage) : Prop where
  owners : (d.sponsors.named ++ (stages.filterMap LogoStage.held ++ future)).Nodup
  rows : ∀ key ∈ d.sponsors.named, key ∈ d.objects
  ready : ∀ u ∈ stages, u.Ready d.objects
  unused : ∀ key ∈ future, key ∉ d.objects
  left : ∀ key ∈ d.objects,
    key ∈ d.sponsors.named ∨ key ∈ stages.filterMap LogoStage.held ∨ d.Excused key

theorem LogosSound.perm (h : LogosSound future d stages) (hp : stages.Perm stages') :
    LogosSound future d stages' := by
  have hheld := hp.filterMap LogoStage.held
  refine ⟨?_, h.rows, fun u hu => h.ready u (hp.mem_iff.2 hu), h.unused, fun key hkey => ?_⟩
  · exact (((hheld.append_right future).append_left _).nodup_iff).1 h.owners
  · exact (h.left key hkey).imp_right (Or.imp_left hheld.mem_iff.1)

theorem filterMap_cons_held : (u :: rest).filterMap LogoStage.held =
    u.held.toList ++ rest.filterMap LogoStage.held := by
  rcases hu : u.held with _ | key
  · rw [List.filterMap_cons_none hu]
    rfl
  · rw [List.filterMap_cons_some hu]
    rfl

/-- The key a request holds is nobody else's. -/
theorem LogosSound.alone (h : LogosSound future d (u :: rest)) (hu : u.held = some key) :
    key ∉ d.sponsors.named ∧ key ∉ rest.filterMap LogoStage.held ∧ key ∉ future := by
  have howners := h.owners
  rw [filterMap_cons_held, hu, Option.toList_some, List.singleton_append, List.cons_append,
    List.nodup_middle, List.nodup_cons] at howners
  simpa [not_or] using howners.1

/-- The next stage holds the same key. -/
theorem LogosSound.turn (h : LogosSound future d (u :: rest)) (hheld : u'.held = u.held)
    (hready : u'.Ready d.objects) : LogosSound future d (u' :: rest) := by
  have heq : (u' :: rest).filterMap LogoStage.held = (u :: rest).filterMap LogoStage.held := by
    rw [filterMap_cons_held, filterMap_cons_held, hheld]
  refine ⟨heq ▸ h.owners, h.rows, fun v hv => ?_, h.unused, heq ▸ h.left⟩
  rcases List.mem_cons.1 hv with rfl | hv
  · exact hready
  · exact h.ready v (List.mem_cons_of_mem u hv)

/-- A request that ends leaves no object behind. -/
theorem LogosSound.drop (h : LogosSound future d (u :: rest))
    (hheld : ∀ key, u.held = some key → key ∉ d.objects) : LogosSound future d rest := by
  refine ⟨?_, h.rows, fun v hv => h.ready v (List.mem_cons_of_mem u hv), h.unused,
    fun key hkey => ?_⟩
  · refine h.owners.sublist (List.Sublist.append_left (List.Sublist.append_right ?_ future) _)
    exact (List.sublist_cons_self u rest).filterMap _
  · rcases h.left key hkey with hrow | hstage | hwarned
    · exact .inl hrow
    · rw [filterMap_cons_held, List.mem_append, Option.mem_toList] at hstage
      rcases hstage with hmine | hother
      · exact absurd hkey (hheld key hmine)
      · exact .inr (.inl hother)
    · exact .inr (.inr hwarned)

theorem LogosSound.put (h : LogosSound future d (.putting key q :: rest)) :
    LogosSound future (d.put key) (.committing q :: rest) := by
  obtain ⟨hrow, hrest, hfuture⟩ := h.alone rfl
  obtain ⟨hq, hnew⟩ := h.ready _ List.mem_cons_self
  have heq : (LogoStage.committing q :: rest).filterMap LogoStage.held =
      (LogoStage.putting key q :: rest).filterMap LogoStage.held := by
    rw [filterMap_cons_held, filterMap_cons_held]
    exact congrArg (·.toList ++ _) hq
  refine ⟨heq ▸ h.owners, fun k hk => List.mem_cons_of_mem key (h.rows k hk), fun u hu => ?_,
    fun k hk => ?_, fun k hk => ?_⟩
  · rcases List.mem_cons.1 hu with rfl | hu
    · intro k hk
      cases hq.symm.trans hk
      exact List.mem_cons_self
    · have hready := h.ready u (List.mem_cons_of_mem _ hu)
      have hother : ∀ k, u.held = some k → k ≠ key := by
        rintro k hk rfl
        exact hrest (List.mem_filterMap.2 ⟨u, hu, hk⟩)
      cases u with
      | getting q' => exact fun k hk => List.not_mem_cons_of_ne_of_not_mem (hother k hk) (hready k hk)
      | putting k q' => exact ⟨hready.1, List.not_mem_cons_of_ne_of_not_mem (hother k rfl) hready.2⟩
      | committing q' => exact fun k hk => List.mem_cons_of_mem key (hready k hk)
      | deleting k => trivial
  · refine List.not_mem_cons_of_ne_of_not_mem ?_ (h.unused k hk)
    rintro rfl
    exact hfuture hk
  · rw [heq]
    rcases List.mem_cons.1 hk with rfl | hk
    · exact .inr (.inl (List.mem_filterMap.2 ⟨_, List.mem_cons_self, rfl⟩))
    · exact h.left k hk

theorem LogosSound.commit (h : LogosSound future d (.committing q :: rest)) {t : Sponsors}
    {old : Option String} (hrun : q.commit d.sponsors = .ok (t, old)) :
    LogosSound future { d with sponsors := t } ((old.map LogoStage.deleting).toList ++ rest) := by
  have hperm := commit_named hrun
  have hready := h.ready _ List.mem_cons_self
  have hheld : ((old.map LogoStage.deleting).toList ++ rest).filterMap LogoStage.held =
      old.toList ++ rest.filterMap LogoStage.held := by
    rw [List.filterMap_append]
    rcases old with _ | k <;> rfl
  have howners := h.owners
  have hleft := h.left
  rw [filterMap_cons_held, List.append_assoc, ← List.append_assoc] at howners
  refine ⟨?_, fun k hk => ?_, fun u hu => ?_, h.unused, fun k hk => ?_⟩
  · rw [hheld, List.append_assoc, ← List.append_assoc]
    exact ((hperm.append_right _).nodup_iff).2 howners
  · rcases List.mem_append.1 (hperm.mem_iff.1 (List.mem_append_left _ hk)) with hk | hk
    · exact h.rows k hk
    · exact hready k (Option.mem_toList.1 hk)
  · rcases List.mem_append.1 hu with hu | hu
    · rcases old with _ | k
      · cases hu
      · cases List.mem_singleton.1 hu
        trivial
    · exact h.ready u (List.mem_cons_of_mem _ hu)
  · rw [hheld, List.mem_append]
    have hsame : k ∈ t.named ∨ k ∈ old.toList ↔ k ∈ d.sponsors.named ∨ k ∈ q.key.toList := by
      rw [← List.mem_append, hperm.mem_iff, List.mem_append]
    have hk := h.left k hk
    rw [filterMap_cons_held, List.mem_append] at hk
    have hk' : k ∈ d.sponsors.named ∨ (k ∈ q.key.toList ∨ _) ∨ _ := hk
    tauto

theorem LogosSound.delete (h : LogosSound future d (.deleting key :: rest)) :
    LogosSound future (d.delete key) rest := by
  obtain ⟨hrow, hrest, hfuture⟩ := h.alone rfl
  have hkept : ∀ k, k ≠ key → k ∈ d.objects → k ∈ (d.delete key).objects := fun k hne hk =>
    List.mem_filter.2 ⟨hk, decide_eq_true hne⟩
  have hless : ∀ k, k ∉ d.objects → k ∉ (d.delete key).objects := fun k hk hmem =>
    hk (List.mem_of_mem_filter hmem)
  refine ⟨?_, fun k hk => hkept k (fun heq => hrow (heq ▸ hk)) (h.rows k hk), fun u hu => ?_,
    fun k hk => hless k (h.unused k hk), fun k hk => ?_⟩
  · refine h.owners.sublist (List.Sublist.append_left (List.Sublist.append_right ?_ future) _)
    exact (List.sublist_cons_self _ rest).filterMap _
  · have hready := h.ready u (List.mem_cons_of_mem _ hu)
    cases u with
    | getting q' => exact fun k hk => hless k (hready k hk)
    | putting k q' => exact ⟨hready.1, hless k hready.2⟩
    | committing q' =>
      refine fun k hk => hkept k ?_ (hready k hk)
      rintro rfl
      exact hrest (List.mem_filterMap.2 ⟨_, hu, hk⟩)
    | deleting k => trivial
  · have hne := of_decide_eq_true (List.mem_filter.1 hk).2
    have hk := h.left k (List.mem_of_mem_filter hk)
    rw [filterMap_cons_held, List.mem_append] at hk
    refine hk.imp_right (Or.imp_left fun hheld => hheld.resolve_left fun hmine => hne ?_)
    exact List.mem_singleton.1 hmine

/-- The key a request ends with is let go. -/
theorem LogosSound.leave (h : LogosSound future d (u :: rest)) {d' : LogoDesk}
    (hsponsors : d'.sponsors = d.sponsors) (hobjects : d'.objects = d.objects)
    (hold : ∀ k, d.Excused k → d'.Excused k) (hheld : ∀ k, u.held = some k → d'.Excused k) :
    LogosSound future d' rest := by
  refine ⟨?_, ?_, fun v hv => ?_, ?_, fun k hk => ?_⟩
  · rw [hsponsors]
    refine h.owners.sublist (List.Sublist.append_left (List.Sublist.append_right ?_ future) _)
    exact (List.sublist_cons_self u rest).filterMap _
  · rw [hsponsors, hobjects]
    exact h.rows
  · rw [hobjects]
    exact h.ready v (List.mem_cons_of_mem u hv)
  · rw [hobjects]
    exact h.unused
  · rw [hobjects] at hk
    have hk := h.left k hk
    rw [filterMap_cons_held, List.mem_append, Option.mem_toList] at hk
    rw [hsponsors]
    rcases hk with hrow | (hmine | hother) | hexcused
    · exact .inl hrow
    · exact .inr (.inr (hheld k hmine))
    · exact .inr (.inl hother)
    · exact .inr (.inr (hold k hexcused))

theorem LogoDesk.Excused.warn {k : String} (h : d.Excused k) (key : String) :
    (d.warn key).Excused k :=
  h.imp_left (List.mem_cons_of_mem key)

/-- A key whose delete failed is let go, with a line in the log. -/
theorem LogosSound.warn (h : LogosSound future d (.deleting key :: rest)) :
    LogosSound future (d.warn key) rest := by
  refine h.leave rfl rfl (fun _ hk => hk.warn key) fun k hk => ?_
  cases hk
  exact .inl List.mem_cons_self

/-- An upload that is stored and loses its answer is let go, with no word of it. -/
theorem LogosSound.lose (h : LogosSound future d (.putting key q :: rest)) :
    LogosSound future ((d.put key).lose key) rest := by
  obtain ⟨hq, -⟩ := h.ready _ List.mem_cons_self
  refine h.put.leave rfl rfl (fun _ hk => hk.imp_right (List.mem_cons_of_mem key)) fun k hk => ?_
  cases hq.symm.trans hk
  exact .inr List.mem_cons_self

theorem LogosSound.warned (h : LogosSound future d rest) : LogosSound future (d.warn key) rest :=
  ⟨h.owners, h.rows, h.ready, h.unused, fun k hk =>
    (h.left k hk).imp_right (Or.imp_right fun hexcused => hexcused.warn key)⟩

/-- An upload to come is the new request's. -/
theorem LogosSound.start (h : LogosSound (q.key.toList ++ future) d stages) :
    LogosSound future d (q.first :: stages) := by
  have hheld : q.first.held = q.key := by cases q <;> rfl
  have hunused : ∀ k, q.key = some k → k ∉ d.objects := fun k hk =>
    h.unused k (List.mem_append_left _ (Option.mem_toList.2 hk))
  refine ⟨?_, h.rows, fun u hu => ?_, fun k hk => h.unused k (List.mem_append_right _ hk),
    fun k hk => ?_⟩
  · have howners := h.owners
    rw [filterMap_cons_held, hheld]
    refine ((List.Perm.append_left _ ?_).nodup_iff).1 howners
    rw [← List.append_assoc]
    exact List.perm_append_comm.append_right future
  · rcases List.mem_cons.1 hu with rfl | hu
    · cases q with
      | create id input logo time => exact ⟨rfl, hunused logo.key rfl⟩
      | update id input logo time => exact hunused
      | delete id => exact nofun
    · exact h.ready u hu
  · rw [filterMap_cons_held, List.mem_append]
    exact (h.left k hk).imp_right (Or.imp_left .inr)

theorem LogosSound.giveUp (h : LogosSound future d (.committing q :: rest)) :
    LogosSound future d ((q.key.map LogoStage.deleting).toList ++ rest) := by
  rcases hq : q.key with _ | k
  · exact h.drop fun k hk => by cases hq.symm.trans hk
  · exact h.turn hq.symm trivial

/-- One call of one request. -/
theorem LogosSound.next (h : LogosSound future d (u :: rest)) (out : CallOutcome) :
    LogosSound future (d.next u out).1 ((d.next u out).2.toList ++ rest) := by
  have hready := h.ready u List.mem_cons_self
  cases u with
  | getting q =>
    have ended : LogosSound future d rest := h.drop hready
    cases out with
    | ok =>
      simp only [LogoDesk.next]
      split_ifs
      · exact ended
      · unfold LogoRequest.afterGet
        rcases hq : q.key with _ | k
        · exact h.turn rfl fun k hk => by cases hq.symm.trans hk
        · exact h.turn hq.symm ⟨hq, hready k hq⟩
    | failed => exact ended
    | lost => exact ended
  | putting k q =>
    have ended : LogosSound future d rest := h.drop fun k' hk' => by
      cases hk'
      exact hready.2
    cases out with
    | ok =>
      simp only [LogoDesk.next]
      split_ifs
      · exact ended
      · exact h.put
    | failed => exact ended
    | lost =>
      simp only [LogoDesk.next]
      split_ifs
      · exact ended
      · exact h.lose
  | committing q =>
    cases out with
    | ok =>
      simp only [LogoDesk.next]
      rcases hrun : q.commit d.sponsors with e | ⟨t, old⟩
      · exact h.giveUp
      · exact h.commit hrun
    | failed => exact h.giveUp
    | lost => exact h.giveUp
  | deleting k =>
    cases out with
    | ok => exact h.delete
    | failed => exact h.warn
    | lost => exact h.delete.warned

end Owners

section Runs

variable {s : Tasks LogoDesk LogoStage} {future : List String}

/-- The keys the requests of a run upload to. -/
def uploads : List (Turn LogoRequest CallOutcome Empty) → List String
  | [] => []
  | .start q :: turns => q.key.toList ++ uploads turns
  | _ :: turns => uploads turns

/-- Every key is used for one upload, and for no object there already. -/
structure FreshUploads (d : LogoDesk) (turns : List (Turn LogoRequest CallOutcome Empty)) :
    Prop where
  nodup : (uploads turns).Nodup
  fresh : ∀ key ∈ uploads turns, key ∉ d.objects

/-- Every row names a stored object, no two the same one, and of each object no row names the delete
failed or the upload lost its answer. -/
structure LogoDesk.Tidy (d : LogoDesk) : Prop where
  nodup : d.sponsors.named.Nodup
  stored : ∀ key ∈ d.sponsors.named, key ∈ d.objects
  left : ∀ key ∈ d.objects, key ∉ d.sponsors.named → d.Excused key

theorem LogosSound.go (h : LogosSound future s.state s.tasks) (i : Nat) (out : CallOutcome) :
    LogosSound future (s.step logoWork (.go i out)).state (s.step logoWork (.go i out)).tasks := by
  simp only [Tasks.step]
  rcases hu : s.tasks[i]? with _ | u
  · exact h
  obtain ⟨hi, rfl⟩ := List.getElem?_eq_some_iff.1 hu
  have hnext := (h.perm (List.getElem_cons_eraseIdx_perm hi).symm).next out
  dsimp only
  have hw : logoWork.next s.state s.tasks[i] out = s.state.next s.tasks[i] out := rfl
  rw [hw]
  rcases hstage : (s.state.next s.tasks[i] out).2 with _ | u'
  · rw [hstage] at hnext
    exact hnext
  · rw [hstage] at hnext
    exact hnext.perm (List.set_perm_cons_eraseIdx hi u').symm

theorem LogosSound.startTurn {q : LogoRequest}
    (h : LogosSound (q.key.toList ++ future) s.state s.tasks) :
    LogosSound future (s.step logoWork (.start q)).state (s.step logoWork (.start q)).tasks := by
  show LogosSound future s.state (s.tasks ++ [q.first])
  exact h.start.perm (List.perm_append_singleton q.first s.tasks).symm

theorem LogosSound.run {turns : List (Turn LogoRequest CallOutcome Empty)}
    (h : LogosSound (uploads turns) s.state s.tasks) :
    LogosSound [] (s.run logoWork turns).state (s.run logoWork turns).tasks := by
  induction turns generalizing s with
  | nil => exact h
  | cons turn turns ih =>
    cases turn with
    | start q => exact ih (LogosSound.startTurn h)
    | go i out => exact ih (LogosSound.go h i out)
    | world w => cases w

theorem LogoDesk.Tidy.sound {d : LogoDesk} (hd : d.Tidy)
    {turns : List (Turn LogoRequest CallOutcome Empty)} (h : FreshUploads d turns) :
    LogosSound (uploads turns) d [] := by
  refine ⟨?_, hd.stored, by simp, h.fresh, fun key hkey => ?_⟩
  · refine List.nodup_append.2 ⟨hd.nodup, h.nodup, ?_⟩
    rintro key hrow _ hkey rfl
    exact h.fresh key hkey (hd.stored key hrow)
  · by_cases hrow : key ∈ d.sponsors.named
    · exact .inl hrow
    · exact .inr (.inr (hd.left key hkey hrow))

/-- Whatever the requests, their order and their failures, every sponsor's logo is stored; and once
they have all ended, an object no sponsor names is one whose delete failed or whose upload lost its
answer. -/
theorem sponsor_logos_stored (d : LogoDesk) (hd : d.Tidy)
    (turns : List (Turn LogoRequest CallOutcome Empty)) (hfresh : FreshUploads d turns) :
    (∀ id row,
      ((⟨d, []⟩ : Tasks LogoDesk LogoStage).run logoWork turns).state.sponsors.lookup id = some row →
        row.logoKey ∈ ((⟨d, []⟩ : Tasks LogoDesk LogoStage).run logoWork turns).state.objects) ∧
    (((⟨d, []⟩ : Tasks LogoDesk LogoStage).run logoWork turns).tasks = [] →
      ∀ key ∈ ((⟨d, []⟩ : Tasks LogoDesk LogoStage).run logoWork turns).state.objects,
        (∃ id row, ((⟨d, []⟩ : Tasks LogoDesk LogoStage).run logoWork turns).state.sponsors.lookup
          id = some row ∧ row.logoKey = key) ∨
        ((⟨d, []⟩ : Tasks LogoDesk LogoStage).run logoWork turns).state.Excused key) := by
  have h : LogosSound [] ((⟨d, []⟩ : Tasks LogoDesk LogoStage).run logoWork turns).state
      ((⟨d, []⟩ : Tasks LogoDesk LogoStage).run logoWork turns).tasks := (hd.sound hfresh).run
  refine ⟨fun id row hrow => h.rows _ (List.mem_map_of_mem (Table.mem_rows.2 ⟨id, hrow⟩)),
    fun hended key hkey => ?_⟩
  have hleft := h.left key hkey
  rw [hended] at hleft
  rcases hleft with hrow | hheld | hexcused
  · obtain ⟨row, hmem, hk⟩ := List.mem_map.1 hrow
    obtain ⟨id, hid⟩ := Table.mem_rows.1 hmem
    exact .inl ⟨id, row, hid, hk⟩
  · cases hheld
  · exact .inr hexcused

/-- The three sponsors with their logos. -/
def threeLogos : LogoDesk := ⟨threeSponsors, ["a.svg", "b.svg", "c.svg"], [], []⟩

def newLogo (key : String) : LogoRequest :=
  .update 2 ⟨"Sponsor", none, .partner, .light, true, none⟩ (some ⟨.ok (3, 1), key⟩) 7

/-- Two new logos for one sponsor at once: both are uploaded, then one is saved and its delete of
the old one fails, then the other is saved and deletes the first one's.  A third is stored, and the
answer to its upload lost. -/
def twoLogos : List (Turn LogoRequest CallOutcome Empty) :=
  [.start (newLogo "d.svg"), .start (newLogo "e.svg"), .go 0 .ok, .go 1 .ok, .go 0 .ok, .go 1 .ok,
    .go 0 .ok, .go 0 .failed, .go 0 .ok, .go 0 .ok, .start (newLogo "f.svg"), .go 0 .ok,
    .go 0 .lost]

theorem threeLogos_tidy : threeLogos.Tidy := by
  refine ⟨by decide +kernel, by decide +kernel, fun key hkey hnot => ?_⟩
  have hnamed : ∀ key ∈ threeLogos.objects, key ∈ threeLogos.sponsors.named := by decide +kernel
  exact absurd (hnamed key hkey) hnot

theorem sponsor_logos_stored_twice :
    let s := (⟨threeLogos, []⟩ : Tasks LogoDesk LogoStage).run logoWork twoLogos
    s.tasks.length = 0 ∧ s.state.objects = ["f.svg", "e.svg", "a.svg", "b.svg", "c.svg"] ∧
      s.state.warned = ["b.svg"] ∧ s.state.lost = ["f.svg"] ∧
      ∀ id row, s.state.sponsors.lookup id = some row → row.logoKey ∈ s.state.objects :=
  ⟨by decide +kernel, by decide +kernel, by decide +kernel, by decide +kernel,
    (sponsor_logos_stored threeLogos threeLogos_tidy twoLogos
      ⟨by decide +kernel, by decide +kernel⟩).1⟩

/-- The upload is stored and throws: no delete failed, and nothing names the object. -/
def lostUpload : List (Turn LogoRequest CallOutcome Empty) :=
  [.start (newLogo "d.svg"), .go 0 .ok, .go 0 .lost]

theorem sponsor_logo_orphaned :
    ¬ ∀ (d : LogoDesk) (turns : List (Turn LogoRequest CallOutcome Empty)), d.Tidy →
      FreshUploads d turns →
      ((⟨d, []⟩ : Tasks LogoDesk LogoStage).run logoWork turns).tasks = [] →
      ∀ key ∈ ((⟨d, []⟩ : Tasks LogoDesk LogoStage).run logoWork turns).state.objects,
        (∃ id row, ((⟨d, []⟩ : Tasks LogoDesk LogoStage).run logoWork turns).state.sponsors.lookup
          id = some row ∧ row.logoKey = key) ∨
        key ∈ ((⟨d, []⟩ : Tasks LogoDesk LogoStage).run logoWork turns).state.warned := by
  intro h
  have hended : ((⟨threeLogos, []⟩ : Tasks LogoDesk LogoStage).run logoWork lostUpload).tasks = [] :=
    List.length_eq_zero_iff.1 (by decide +kernel)
  rcases h threeLogos lostUpload threeLogos_tidy ⟨by decide +kernel, by decide +kernel⟩ hended
    "d.svg" (by decide +kernel) with ⟨id, row, hrow, hkey⟩ | hwarned
  · have hnamed : "d.svg" ∉ ((⟨threeLogos, []⟩ : Tasks LogoDesk LogoStage).run logoWork
        lostUpload).state.sponsors.named := by decide +kernel
    exact hnamed (hkey ▸ List.mem_map_of_mem (Table.mem_rows.2 ⟨id, hrow⟩))
  · revert hwarned
    decide +kernel

end Runs

end EchoAndAura
