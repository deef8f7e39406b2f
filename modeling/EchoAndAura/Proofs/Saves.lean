import EchoAndAura.SavedPage

/-!
# What a save leaves

One save alone, the caches working, run to its end (`settle`).  It is followed stage by stage
backwards from the end: `Settles` says where a phone ends up, and a step before that ends up there
too.
-/

namespace EchoAndAura

section Alone

/-- What the worker's registration and the network come to during one save; none is a failure.
`pageFirst` is which of the two caches opens first. -/
structure LoadAnswers where
  loaded : Option (List String)
  page : Option WebAnswer
  file : String → Option WebAnswer
  pageFirst : Bool

def answerOf : Option WebAnswer → DoorOutcome
  | some r => .answered r
  | none => .failed

def LoadAnswers.outcome (net : LoadAnswers) : DoorStage → DoorOutcome
  | .keep _ .registering => (net.loaded.map DoorOutcome.loaded).getD .failed
  | .keep _ (.fetchingPage _) => answerOf net.page
  | .keep _ (.opening _ _ none none) => .opened (if net.pageFirst then .page else .files)
  | .keep _ (.opening _ _ none (some _)) => .opened .page
  | .keep _ (.opening _ _ (some _) _) => .opened .files
  | .keep _ (.fetchingFile _ path _) => answerOf (net.file path)
  | _ => .ok

/-- The first call goes on as long as there is one. -/
def settle (net : LoadAnswers) : Nat → DoorPhone → DoorPhone
  | 0, d => d
  | fuel + 1, d =>
    match d.calls with
    | [] => d
    | stage :: _ => settle net fuel (d.step (.go 0 (net.outcome stage)))

def Settles (net : LoadAnswers) (d d' : DoorPhone) : Prop :=
  ∃ enough, ∀ fuel, enough ≤ fuel → settle net fuel d = d'

/-- What opening a cache and looking a key up in it gives. -/
def DoorPhone.kept (d : DoorPhone) (cache : DoorCache) (key : String) : Option WebAnswer :=
  d.caches.find (d.handle cache) key

variable {net : LoadAnswers} {d d' b : DoorPhone} {gen : Nat}

theorem settle_idle (h : d.calls = []) : ∀ fuel, settle net fuel d = d
  | 0 => rfl
  | fuel + 1 => by
    unfold settle
    rw [h]

theorem settles_idle (h : d.calls = []) : Settles net d d := ⟨0, fun fuel _ => settle_idle h fuel⟩

theorem settle_busy {stage : DoorStage} {rest : List DoorStage} (h : d.calls = stage :: rest)
    (fuel : Nat) :
    settle net (fuel + 1) d = settle net fuel (d.step (.go 0 (net.outcome stage))) := by
  rw [settle, h]

theorem settle_add (net : LoadAnswers) : ∀ (n more : Nat) (d : DoorPhone),
    settle net (n + more) d = settle net more (settle net n d)
  | 0, more, d => by
    rw [Nat.zero_add]
    rfl
  | n + 1, more, d => by
    rw [Nat.succ_add]
    cases hcalls : d.calls with
    | nil => rw [settle_idle hcalls, settle_idle hcalls, settle_idle hcalls]
    | cons stage rest => rw [settle_busy hcalls, settle_busy hcalls, settle_add net n more]

theorem settles_of_idle {n : Nat} (h : (settle net n d).calls = []) :
    Settles net d (settle net n d) := by
  refine ⟨n, fun fuel hfuel => ?_⟩
  obtain ⟨more, rfl⟩ := Nat.exists_eq_add_of_le hfuel
  rw [settle_add]
  exact settle_idle h more

/-- A stage's result, with the calls it goes on as. -/
def resumed (r : DoorPhone × List DoorStage) : DoorPhone := { r.1 with calls := r.1.calls ++ r.2 }

theorem resumed_one {stage : DoorStage} (hb : b.calls = []) :
    resumed (b, [stage]) = { b with calls := [stage] } := by
  unfold resumed
  rw [hb]
  rfl

theorem settles_next {stage : DoorStage} (hb : b.calls = [])
    (h : Settles net (resumed (b.next stage (net.outcome stage))) d') :
    Settles net (resumed (b, [stage])) d' := by
  obtain ⟨enough, h⟩ := h
  have hidle : { b with calls := [] } = b := by
    rw [← hb]
  refine ⟨enough + 1, fun fuel hfuel => ?_⟩
  obtain ⟨fuel, rfl⟩ : ∃ n, fuel = n + 1 := ⟨fuel - 1, by omega⟩
  rw [resumed_one hb]
  unfold settle
  dsimp only
  have hstep : ({ b with calls := [stage] } : DoorPhone).step (.go 0 (net.outcome stage)) =
      resumed (b.next stage (net.outcome stage)) := by
    unfold DoorPhone.step
    dsimp only [List.getElem?_cons_zero, List.eraseIdx_cons_zero]
    rw [hidle]
    rfl
  rw [hstep]
  exact h fuel (by omega)

theorem settles_ended (hb : b.calls = []) (result : SavedCopy) :
    Settles net (resumed (b.ended result)) { b with saves := result :: b.saves } := by
  have hended : resumed (b.ended result) = { b with saves := result :: b.saves } := by
    unfold resumed DoorPhone.ended
    dsimp only
    rw [List.append_nil]
  rw [hended]
  exact settles_idle hb

end Alone

section Backwards

variable {net : LoadAnswers} {gen : Nat}

/-- The old files go one after the other. -/
def dropAll (c : CacheStorage WebAnswer) (h : CacheHandle) (paths : List String) :
    CacheStorage WebAnswer :=
  paths.foldl (fun c path => c.remove h path) c

theorem settles_drop (h : CacheHandle) (result : SavedCopy) : ∀ (paths : List String)
    {b : DoorPhone}, b.calls = [] → Settles net (resumed (b.afterDrop gen h result paths))
      { b with caches := dropAll b.caches h paths, saves := result :: b.saves }
  | [], _, hb => settles_ended hb result
  | path :: paths, b, hb =>
    settles_next hb
      (settles_drop h result paths (b := { b with caches := b.caches.remove h path }) hb)

/-- What the loop over the files stores before it ends, or before the fetch that fails. -/
def fill (net : LoadAnswers) (h : CacheHandle) :
    List String → CacheStorage WebAnswer → CacheStorage WebAnswer
  | [], c => c
  | path :: rest, c =>
    match net.file path with
    | none => c
    | some r => fill net h rest (if r.ok then c.put h path r else c)

theorem next_unanswered {s : Saving} {path : String} {rest : List String}
    (h : net.file path = none) (b : DoorPhone) :
    b.next (.keep gen (.fetchingFile s path rest))
      (net.outcome (.keep gen (.fetchingFile s path rest))) = b.ended .failed := by
  unfold LoadAnswers.outcome
  dsimp only
  rw [h]
  rfl

theorem next_answered {s : Saving} {path : String} {rest : List String} {r : WebAnswer}
    (h : net.file path = some r) (b : DoorPhone) :
    b.next (.keep gen (.fetchingFile s path rest))
      (net.outcome (.keep gen (.fetchingFile s path rest))) =
        if r.ok then (b, [.keep gen (.puttingFile s path r rest)]) else b.nextFile gen s rest := by
  unfold LoadAnswers.outcome
  dsimp only
  rw [h]
  rfl

theorem settles_fill_failed (gen : Nat) (s : Saving) : ∀ (todo : List String) {b : DoorPhone}, b.calls = [] →
    (∃ path ∈ todo, net.file path = none) → Settles net (resumed (b.nextFile gen s todo))
      { b with caches := fill net s.fileCache todo b.caches, saves := .failed :: b.saves }
  | [], _, _, h => by
    obtain ⟨path, hpath, -⟩ := h
    exact absurd hpath List.not_mem_nil
  | path :: rest, b, hb, h => by
    refine settles_next hb ?_
    unfold fill
    cases hfile : net.file path with
    | none =>
      rw [next_unanswered hfile]
      exact settles_ended hb .failed
    | some r =>
      have hrest : ∃ path ∈ rest, net.file path = none := by
        obtain ⟨path', hpath', hnone⟩ := h
        rcases List.mem_cons.1 hpath' with rfl | hpath'
        · rw [hfile] at hnone
          cases hnone
        · exact ⟨path', hpath', hnone⟩
      rw [next_answered hfile]
      dsimp only
      split_ifs with hok
      · refine settles_next hb ?_
        exact settles_fill_failed gen s rest hb hrest
      · exact settles_fill_failed gen s rest hb hrest

/-- Every fetch was answered: the page is put, and the old files go. -/
theorem settles_fill_saved (s : Saving) : ∀ (todo : List String) {b : DoorPhone}, b.calls = [] →
    b.generation = gen → (∀ path ∈ todo, net.file path ≠ none) →
      Settles net (resumed (b.nextFile gen s todo))
        { b with
          caches := dropAll ((fill net s.fileCache todo b.caches).put s.pageCache pagePath s.page)
            s.fileCache (s.had.filter (· ∉ s.files))
          saves := .saved :: b.saves }
  | [], b, hb, hgen, _ => by
    have hput : b.nextFile gen s [] = (b, [.keep gen (.puttingPage s)]) := by
      unfold DoorPhone.nextFile
      rw [if_neg fun h => h hgen.symm]
    rw [hput]
    refine settles_next hb ?_
    exact settles_drop s.fileCache .saved _ hb
  | path :: rest, b, hb, hgen, h => by
    have hrest : ∀ path ∈ rest, net.file path ≠ none :=
      fun path' hpath' => h path' (List.mem_cons_of_mem path hpath')
    refine settles_next hb ?_
    unfold fill
    cases hfile : net.file path with
    | none => exact absurd hfile (h path List.mem_cons_self)
    | some r =>
      rw [next_answered hfile]
      dsimp only
      split_ifs with hok
      · refine settles_next hb ?_
        exact settles_fill_saved s rest hb hgen hrest
      · exact settles_fill_saved s rest hb hgen hrest

end Backwards

section Contents

variable {net : LoadAnswers} {h h' : CacheHandle} {key : String}

theorem find_put (c : CacheStorage WebAnswer) (r : WebAnswer) (path : String) :
    (c.put h path r).find h' key = if h' = h ∧ key = path then some r else c.find h' key := by
  unfold CacheStorage.find
  rw [CacheStorage.entries_put]
  by_cases hh : h' = h
  · subst hh
    rw [if_pos rfl, Table.lookup_insert_eq]
    simp
  · simp [hh]

theorem find_remove (c : CacheStorage WebAnswer) (path : String) :
    (c.remove h path).find h' key = if h' = h ∧ key = path then none else c.find h' key := by
  unfold CacheStorage.find
  rw [CacheStorage.entries_remove]
  by_cases hh : h' = h
  · subst hh
    rw [if_pos rfl, Table.lookup_erase_eq]
    simp
  · simp [hh]

theorem find_dropAll : ∀ (paths : List String) (c : CacheStorage WebAnswer),
    (dropAll c h paths).find h' key = if h' = h ∧ key ∈ paths then none else c.find h' key
  | [], c => by simp [dropAll]
  | path :: paths, c => by
    have hrest := find_dropAll paths (c.remove h path)
    have hcons : dropAll c h (path :: paths) = dropAll (c.remove h path) h paths := rfl
    rw [hcons, hrest, find_remove]
    by_cases hh : h' = h
    · by_cases hkey : key = path <;> simp [hh, hkey]
    · simp [hh]

/-- Only what was to be fetched is stored. -/
theorem find_fill_other : ∀ (todo : List String) (c : CacheStorage WebAnswer),
    ¬ (h' = h ∧ key ∈ todo) → (fill net h todo c).find h' key = c.find h' key
  | [], _, _ => rfl
  | path :: rest, c, hother => by
    have hrest : ¬ (h' = h ∧ key ∈ rest) :=
      fun hmem => hother ⟨hmem.1, List.mem_cons_of_mem path hmem.2⟩
    unfold fill
    cases net.file path with
    | none => rfl
    | some r =>
      dsimp only
      rw [find_fill_other rest _ hrest]
      split_ifs
      · rw [find_put, if_neg]
        rintro ⟨hh, rfl⟩
        exact hother ⟨hh, List.mem_cons_self⟩
      · rfl

theorem find_fill : ∀ (todo : List String) (c : CacheStorage WebAnswer),
    (∀ path ∈ todo, net.file path ≠ none) → key ∈ todo →
      (fill net h todo c).find h key =
        if ∃ r ∈ net.file key, r.ok = true then net.file key else c.find h key
  | [], _, _, hkey => absurd hkey List.not_mem_nil
  | path :: rest, c, hall, hkey => by
    have hrest : ∀ path ∈ rest, net.file path ≠ none :=
      fun path' hpath' => hall path' (List.mem_cons_of_mem path hpath')
    unfold fill
    cases hfile : net.file path with
    | none => exact absurd hfile (hall path List.mem_cons_self)
    | some r =>
      dsimp only
      by_cases hmem : key ∈ rest
      · rw [find_fill rest _ hrest hmem]
        by_cases hok : ∃ r ∈ net.file key, r.ok = true
        · rw [if_pos hok, if_pos hok]
        · rw [if_neg hok, if_neg hok]
          split_ifs with hr
          · rw [find_put, if_neg]
            rintro ⟨-, rfl⟩
            exact hok ⟨r, hfile, hr⟩
          · rfl
      · obtain rfl : key = path := (List.mem_cons.1 hkey).resolve_right hmem
        rw [find_fill_other rest _ fun hboth => hmem hboth.2, hfile]
        by_cases hr : r.ok = true
        · rw [if_pos hr, find_put, if_pos ⟨rfl, rfl⟩, if_pos ⟨r, rfl, hr⟩]
        · rw [if_neg hr, if_neg]
          rintro ⟨r', hr', hok⟩
          cases hr'
          exact hr hok

end Contents

section Opening

variable {c c' : CacheStorage WebAnswer} {name name' key : String} {h : CacheHandle}

theorem openCache_live (hlive : c'.live = c.live) (hopen : c.openCache name = (c, h)) :
    c'.openCache name = (c', h) := by
  unfold CacheStorage.openCache at hopen ⊢
  rw [hlive]
  cases hlookup : c.live.lookup name with
  | none =>
    rw [hlookup] at hopen
    have hmade := congrArg (fun r => r.1.made) hopen
    exact absurd hmade (Nat.succ_ne_self c.made)
  | some n =>
    rw [hlookup] at hopen
    exact congrArg (fun r => (c', r.2)) hopen

/-- A cache opened once stays the one its name opens. -/
theorem openCache_again (c : CacheStorage WebAnswer) (name : String) :
    (c.openCache name).1.openCache name = c.openCache name := by
  rcases c.openCache_cases name with ⟨n, hn, heq⟩ | ⟨-, heq⟩ <;> rw [heq]
  · exact heq
  · unfold CacheStorage.openCache
    dsimp only
    rw [AList.lookup_insert]

theorem openCache_still (hopen : c.openCache name = (c, h)) (name' : String) :
    (c.openCache name').1.openCache name = ((c.openCache name').1, h) := by
  rcases c.openCache_cases name' with ⟨n, -, heq⟩ | ⟨hnone, heq⟩ <;> rw [heq]
  · exact hopen
  · unfold CacheStorage.openCache at hopen ⊢
    dsimp only
    have hne : name ≠ name' := by
      rintro rfl
      rw [hnone] at hopen
      have hmade := congrArg (fun r => r.1.made) hopen
      exact absurd hmade (Nat.succ_ne_self c.made)
    rw [AList.lookup_insert_ne hne]
    cases hlookup : c.live.lookup name with
    | none =>
      rw [hlookup] at hopen
      have hmade := congrArg (fun r => r.1.made) hopen
      exact absurd hmade (Nat.succ_ne_self c.made)
    | some n =>
      rw [hlookup] at hopen
      exact congrArg (fun r => (_, r.2)) hopen

theorem find_opened (c : CacheStorage WebAnswer) (name : String) (h : CacheHandle) (key : String) :
    (c.openCache name).1.find h key = c.find h key := by
  unfold CacheStorage.find
  rw [CacheStorage.openCache_entries]

/-- Opening a cache changes what no name's cache holds. -/
theorem find_openCache (hmade : c.Made) (name name' key : String) :
    (c.openCache name').1.find ((c.openCache name').1.openCache name).2 key =
      c.find (c.openCache name).2 key := by
  rw [find_opened]
  unfold CacheStorage.find
  rcases c.openCache_cases name' with ⟨n, -, heq⟩ | ⟨hnone, heq⟩ <;> rw [heq]
  by_cases hname : name = name'
  · subst hname
    unfold CacheStorage.openCache
    rw [hnone, AList.lookup_insert]
  · rcases c.openCache_cases name with ⟨n, hn, hopen⟩ | ⟨hn, hopen⟩ <;> rw [hopen] <;>
      unfold CacheStorage.openCache <;> dsimp only <;> rw [AList.lookup_insert_ne hname, hn]
    dsimp only
    rw [hmade.stored ⟨name, c.made⟩ (Nat.le_refl _),
      hmade.stored ⟨name, c.made + 1⟩ (Nat.le_succ _)]

end Opening

section Save

variable {net : LoadAnswers} {d : DoorPhone}

/-- The caches of a save, both open. -/
structure BothOpen (c : CacheStorage WebAnswer) (p f : CacheHandle) : Prop where
  page : c.openCache DoorCache.page.name = (c, p)
  files : c.openCache DoorCache.files.name = (c, f)

theorem BothOpen.ne {c : CacheStorage WebAnswer} {p f : CacheHandle} (h : BothOpen c p f) :
    p ≠ f := by
  have hp : (c.openCache DoorCache.page.name).2.name = _ := CacheStorage.openCache_name
  have hf : (c.openCache DoorCache.files.name).2.name = _ := CacheStorage.openCache_name
  rw [h.page] at hp
  rw [h.files] at hf
  rintro rfl
  rw [hp] at hf
  exact absurd hf (by decide)

theorem BothOpen.kept {c : CacheStorage WebAnswer} {p f : CacheHandle} (h : BothOpen c p f)
    (hc : d.caches.live = c.live) (key : String) :
    d.kept .page key = d.caches.find p key ∧ d.kept .files key = d.caches.find f key := by
  unfold DoorPhone.kept DoorPhone.handle
  rw [openCache_live hc h.page, openCache_live hc h.files]
  exact ⟨rfl, rfl⟩

/-- Whichever opens first, the save goes on with both, which hold what they held. -/
theorem settles_open (net : LoadAnswers) (hidle : d.calls = []) (hmade : d.caches.Made) (gen : Nat)
    (files : List String) (page : WebAnswer) : ∃ c p f, BothOpen c p f ∧
      (∀ key, c.find p key = d.kept .page key ∧ c.find f key = d.kept .files key) ∧
      ∀ d', Settles net
          (resumed ({ d with caches := c }, [.keep gen (.listing ⟨files, page, p, f, []⟩)])) d' →
        Settles net (resumed (d, [.keep gen (.opening files page none none)])) d' := by
  cases hfirst : net.pageFirst with
  | true =>
    have hagain := openCache_again d.caches DoorCache.page.name
    refine ⟨_, _, _, ⟨openCache_still hagain DoorCache.files.name, openCache_again _ _⟩,
      fun key => ⟨?_, ?_⟩, fun d' h => ?_⟩
    · rw [find_opened, find_opened]
      rfl
    · rw [find_opened]
      exact find_openCache hmade _ _ key
    · refine settles_next hidle ?_
      unfold LoadAnswers.outcome
      rw [hfirst]
      refine settles_next (b := d.opened .page) hidle ?_
      exact h
  | false =>
    have hagain := openCache_again d.caches DoorCache.files.name
    refine ⟨_, _, _, ⟨openCache_again _ _, openCache_still hagain DoorCache.page.name⟩,
      fun key => ⟨?_, ?_⟩, fun d' h => ?_⟩
    · rw [find_opened]
      exact find_openCache hmade _ _ key
    · rw [find_opened, find_opened]
      rfl
    · refine settles_next hidle ?_
      unfold LoadAnswers.outcome
      rw [hfirst]
      refine settles_next (b := d.opened .files) hidle ?_
      exact h

/-- The files the load used. -/
def LoadAnswers.files (net : LoadAnswers) : List String := filesToKeep (net.loaded.getD [])

/-- What the gate may take a save's result for: saved, the page just fetched and a good answer for
every file the load used are there; failed, nothing that was there is lost. -/
def Usable (net : LoadAnswers) (d d' : DoorPhone) : SavedCopy → Prop
  | .saved => (∃ page, net.page = some page ∧ d'.kept .page pagePath = some page) ∧
      ∀ path ∈ net.files, ∃ r, d'.kept .files path = some r ∧ r.ok = true
  | .failed => ∀ cache key r, d.kept cache key = some r → d'.kept cache key = some r
  | .unsupported => True

/-- The worker or the page does not load, or a file's fetch throws. -/
def NotLoaded (net : LoadAnswers) (d : DoorPhone) : Prop :=
  net.loaded = none ∨ (∀ page, net.page = some page → (!page.ok || page.redirected) = true) ∨
    ∃ path ∈ net.files, d.kept .files path = none ∧ net.file path = none

/-- Every file was held with a good answer, or is fetched with one. -/
def AllFetched (net : LoadAnswers) (d : DoorPhone) : Prop :=
  ∀ path ∈ net.files, (∃ r, d.kept .files path = some r ∧ r.ok = true) ∨
    d.kept .files path = none ∧ ∃ r, net.file path = some r ∧ r.ok = true

/-- A run of one save, its result, and what can be made of it. -/
def SavesAs (net : LoadAnswers) (d d' : DoorPhone) (result : SavedCopy) : Prop :=
  Settles net (d.step (.keep true)) d' ∧ d'.calls = [] ∧ d'.saves = result :: d.saves

theorem savesAs_failed (hidle : d.calls = []) (hloaded : net.loaded = none ∨
    ∀ page, net.page = some page → (!page.ok || page.redirected) = true) :
    SavesAs net d { d with saves := .failed :: d.saves } .failed := by
  refine ⟨settles_next hidle ?_, hidle, rfl⟩
  unfold LoadAnswers.outcome
  cases hpaths : net.loaded with
  | none => exact settles_ended hidle .failed
  | some paths =>
    refine settles_next hidle ?_
    unfold LoadAnswers.outcome
    cases hpage : net.page with
    | none => exact settles_ended hidle .failed
    | some page =>
      have hbad : (!page.ok || page.redirected) = true := by
        rcases hloaded with hnone | hbad
        · rw [hpaths] at hnone
          cases hnone
        · exact hbad page hpage
      unfold answerOf DoorPhone.next DoorPhone.keepNext
      dsimp only
      rw [if_pos hbad]
      exact settles_ended hidle .failed

theorem mem_keys {c : CacheStorage WebAnswer} {h : CacheHandle} {key : String} :
    key ∈ c.keys h ↔ c.find h key ≠ none := by
  unfold CacheStorage.keys CacheStorage.find
  rw [← AList.mem_keys, Ne, AList.lookup_eq_none, not_not]

/-- A save whose page has loaded goes through the files its cache does not have. -/
theorem settles_files (hidle : d.calls = []) (hmade : d.caches.Made) {paths : List String}
    (hpaths : net.loaded = some paths) {page : WebAnswer} (hpage : net.page = some page)
    (hgood : ¬ (!page.ok || page.redirected) = true) : ∃ c p f, BothOpen c p f ∧
      (∀ key, c.find p key = d.kept .page key ∧ c.find f key = d.kept .files key) ∧
      ∀ d', Settles net (resumed (DoorPhone.nextFile { d with caches := c } d.generation
          ⟨net.files, page, p, f, c.keys f⟩ (net.files.filter (· ∉ c.keys f)))) d' →
        Settles net (d.step (.keep true)) d' := by
  obtain ⟨c, p, f, hopen, hkept, hsettles⟩ :=
    settles_open net hidle hmade d.generation net.files page
  refine ⟨c, p, f, hopen, hkept, fun d' h => settles_next hidle ?_⟩
  unfold LoadAnswers.outcome
  rw [hpaths]
  refine settles_next hidle ?_
  unfold LoadAnswers.outcome
  rw [hpage]
  unfold answerOf DoorPhone.next DoorPhone.keepNext
  dsimp only
  rw [if_neg hgood]
  have hfiles : net.files = filesToKeep paths := by
    unfold LoadAnswers.files
    rw [hpaths]
    rfl
  rw [← hfiles]
  refine hsettles d' (settles_next (b := { d with caches := c }) hidle ?_)
  exact h

theorem live_dropAll (h : CacheHandle) : ∀ (paths : List String) (c : CacheStorage WebAnswer),
    (dropAll c h paths).live = c.live
  | [], _ => rfl
  | path :: paths, c => live_dropAll h paths (c.remove h path)

theorem live_fill (h : CacheHandle) : ∀ (todo : List String) (c : CacheStorage WebAnswer),
    (fill net h todo c).live = c.live
  | [], _ => rfl
  | path :: rest, c => by
    unfold fill
    cases net.file path with
    | none => rfl
    | some r =>
      dsimp only
      rw [live_fill h rest]
      split_ifs <;> rfl

variable {c : CacheStorage WebAnswer} {p f : CacheHandle} {page : WebAnswer}

/-- A save that fails on the way has only added files. -/
theorem usable_failed (hopen : BothOpen c p f)
    (hkept : ∀ key, c.find p key = d.kept .page key ∧ c.find f key = d.kept .files key)
    {d' : DoorPhone}
    (hcaches : d'.caches = fill net f (net.files.filter (· ∉ c.keys f)) c) :
    Usable net d d' .failed := by
  have hlive : d'.caches.live = c.live := by
    rw [hcaches, live_fill]
  intro cache key r hr
  cases cache with
  | page =>
    rw [(hopen.kept hlive key).1, hcaches, find_fill_other _ _ fun hmem => hopen.ne hmem.1,
      (hkept key).1, hr]
  | files =>
    have hnot : key ∉ net.files.filter (· ∉ c.keys f) := by
      rw [List.mem_filter, decide_eq_true_eq, mem_keys, not_not, (hkept key).2, hr]
      exact fun hmem => Option.some_ne_none r hmem.2
    rw [(hopen.kept hlive key).2, hcaches, find_fill_other _ _ fun hmem => hnot hmem.2,
      (hkept key).2, hr]

/-- What a save that came to its end has of a file the load used. -/
theorem kept_saved (hopen : BothOpen c p f)
    (hkept : ∀ key, c.find p key = d.kept .page key ∧ c.find f key = d.kept .files key)
    (hall : ∀ path ∈ net.files.filter (· ∉ c.keys f), net.file path ≠ none) (d' : DoorPhone)
    (hcaches : d'.caches = dropAll
      ((fill net f (net.files.filter (· ∉ c.keys f)) c).put p pagePath page) f
        ((c.keys f).filter (· ∉ net.files))) :
    d'.kept .page pagePath = some page ∧ ∀ path ∈ net.files,
      ((∃ r, d'.kept .files path = some r ∧ r.ok = true) ↔
        (∃ r, d.kept .files path = some r ∧ r.ok = true) ∨
          d.kept .files path = none ∧ ∃ r, net.file path = some r ∧ r.ok = true) := by
  have hlive : d'.caches.live = c.live := by
    rw [hcaches, live_dropAll]
    exact live_fill f _ c
  refine ⟨?_, fun path hpath => ?_⟩
  · rw [(hopen.kept hlive pagePath).1, hcaches, find_dropAll, if_neg fun h => hopen.ne h.1,
      find_put, if_pos ⟨rfl, rfl⟩]
  · have hstays : ¬ (f = f ∧ path ∈ (c.keys f).filter (· ∉ net.files)) := by
      rw [List.mem_filter, decide_eq_true_eq]
      exact fun h => h.2.2 hpath
    rw [(hopen.kept hlive path).2, hcaches, find_dropAll, if_neg hstays, find_put,
      if_neg fun h => hopen.ne h.1.symm]
    cases hheld : d.kept .files path with
    | some r =>
      have hnot : path ∉ net.files.filter (· ∉ c.keys f) := by
        rw [List.mem_filter, decide_eq_true_eq, mem_keys, not_not, (hkept path).2, hheld]
        exact fun hmem => Option.some_ne_none r hmem.2
      rw [find_fill_other _ _ fun h => hnot h.2, (hkept path).2, hheld]
      simp
    | none =>
      have htodo : path ∈ net.files.filter (· ∉ c.keys f) := by
        rw [List.mem_filter, decide_eq_true_eq, mem_keys, not_not, (hkept path).2]
        exact ⟨hpath, hheld⟩
      rw [find_fill _ _ hall htodo, (hkept path).2, hheld]
      split_ifs with hok
      · simp
      · simpa using hok

/-- A save keeps its word unless it comes to its end with a file missing: one the network answered
with an error, or one whose answer in the cache is one. -/
theorem keepPageOffline_usable_iff (net : LoadAnswers) (d : DoorPhone) (hidle : d.calls = [])
    (hmade : d.caches.Made) : ∃ d' result, SavesAs net d d' result ∧
      (Usable net d d' result ↔ NotLoaded net d ∨ AllFetched net d) := by
  by_cases hloaded : net.loaded = none ∨
      ∀ page, net.page = some page → (!page.ok || page.redirected) = true
  · refine ⟨_, .failed, savesAs_failed hidle hloaded, fun _ => .inl ?_, fun _ => ?_⟩
    · rcases hloaded with h | h
      · exact .inl h
      · exact .inr (.inl h)
    · exact fun cache key r hr => hr
  · obtain ⟨hsome, hgood⟩ := not_or.1 hloaded
    obtain ⟨paths, hpaths⟩ := Option.ne_none_iff_exists'.1 hsome
    obtain ⟨page, hpage, hok⟩ : ∃ page, net.page = some page ∧
        ¬ (!page.ok || page.redirected) = true := by simpa using hgood
    obtain ⟨c, p, f, hopen, hkept, hsettles⟩ := settles_files hidle hmade hpaths hpage hok
    have htodo : ∀ path, path ∈ net.files.filter (· ∉ c.keys f) ↔
        path ∈ net.files ∧ d.kept .files path = none := by
      intro path
      rw [List.mem_filter, decide_eq_true_eq, mem_keys, not_not, (hkept path).2]
    by_cases hthrown : ∃ path ∈ net.files.filter (· ∉ c.keys f), net.file path = none
    · have hfailed := settles_fill_failed d.generation ⟨net.files, page, p, f, c.keys f⟩ _
        (b := { d with caches := c }) hidle hthrown
      refine ⟨_, .failed, ⟨hsettles _ hfailed, hidle, rfl⟩, fun _ => .inl (.inr (.inr ?_)),
        fun _ => usable_failed hopen hkept rfl⟩
      obtain ⟨path, hpath, hnone⟩ := hthrown
      exact ⟨path, ((htodo path).1 hpath).1, ((htodo path).1 hpath).2, hnone⟩
    · have hall : ∀ path ∈ net.files.filter (· ∉ c.keys f), net.file path ≠ none :=
        fun path hpath hnone => hthrown ⟨path, hpath, hnone⟩
      have hsaved := settles_fill_saved ⟨net.files, page, p, f, c.keys f⟩ _
        (b := { d with caches := c }) hidle rfl hall
      have hnotLoaded : ¬ NotLoaded net d := by
        rintro (h | h | ⟨path, hpath, hheld, hnone⟩)
        · exact hsome h
        · exact hok (h page hpage)
        · exact hthrown ⟨path, (htodo path).2 ⟨hpath, hheld⟩, hnone⟩
      obtain ⟨hput, hfiles⟩ := kept_saved hopen hkept hall { d with
        caches := dropAll ((fill net f (net.files.filter (· ∉ c.keys f)) c).put p pagePath page) f
          ((c.keys f).filter (· ∉ net.files))
        saves := .saved :: d.saves } rfl
      refine ⟨_, .saved, ⟨hsettles _ hsaved, hidle, rfl⟩, ?_⟩
      rw [or_iff_right hnotLoaded]
      constructor
      · exact fun h path hpath => (hfiles path hpath).1 (h.2 path hpath)
      · exact fun h => ⟨⟨page, hpage, hput⟩, fun path hpath => (hfiles path hpath).2 (h path hpath)⟩

/-- A load of one file. -/
def oneFile (answer : WebAnswer) : LoadAnswers where
  loaded := some ["/_next/static/door.js"]
  page := some ⟨200, false, "the gate"⟩
  file := fun _ => some answer
  pageFirst := true

/-- The file is answered: the save is as good as its word. -/
theorem keepPageOffline_usable_answered : ∃ d' result,
    SavesAs (oneFile ⟨200, false, "the scanner"⟩) DoorPhone.fresh d' result ∧
      (Usable (oneFile ⟨200, false, "the scanner"⟩) DoorPhone.fresh d' result ↔
        NotLoaded (oneFile ⟨200, false, "the scanner"⟩) DoorPhone.fresh ∨
          AllFetched (oneFile ⟨200, false, "the scanner"⟩) DoorPhone.fresh) :=
  keepPageOffline_usable_iff _ _ rfl CacheStorage.Made.empty

/-- The file is gone from the server: the save says it is saved without it. -/
theorem keepPageOffline_saved_without :
    ∃ d', SavesAs (oneFile ⟨404, false, "gone"⟩) DoorPhone.fresh d' .saved ∧
      "/_next/static/door.js" ∈ (oneFile ⟨404, false, "gone"⟩).files ∧
        d'.kept .files "/_next/static/door.js" = none := by
  have hidle : (settle (oneFile ⟨404, false, "gone"⟩) 9
      (DoorPhone.fresh.step (.keep true))).calls = [] := by decide +kernel
  exact ⟨_, ⟨settles_of_idle hidle, hidle, by decide +kernel⟩, by decide +kernel,
    by decide +kernel⟩

end Save

end EchoAndAura
