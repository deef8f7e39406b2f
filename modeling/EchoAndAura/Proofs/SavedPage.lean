import EchoAndAura.SavedPage

/-!
# No page of a gate that is closed

After a delete that no save has followed, a save still in flight either has not made its last check,
and fails it, or has made it before the delete was called, with a handle to a cache that has lost
its name (`Forgotten`).  So the cache that gets the name next stays empty.
-/

namespace EchoAndAura

section Stages

/-- A handle to a cache of the name, made by now. -/
def DoorCache.Opened (cache : DoorCache) (made : Nat) (h : CacheHandle) : Prop :=
  h.name = cache.name ∧ h.number < made

def Saving.Sane (made : Nat) (s : Saving) : Prop :=
  DoorCache.page.Opened made s.pageCache ∧ DoorCache.files.Opened made s.fileCache

def KeepStage.Sane (made : Nat) : KeepStage → Prop
  | .opening _ _ p f => (∀ h, p = some h → DoorCache.page.Opened made h) ∧ ∀ h, f = some h → DoorCache.files.Opened made h
  | .listing s | .fetchingFile s _ _ | .puttingFile s _ _ _ | .puttingPage s => s.Sane made
  | .dropping fileCache _ _ => DoorCache.files.Opened made fileCache
  | .registering | .fetchingPage _ => True

def DoorStage.Sane (made generation : Nat) : DoorStage → Prop
  | .keep gen stage => gen ≤ generation ∧ stage.Sane made
  | .file (.matching cache _) | .file (.fetching cache _) | .file (.putting cache _ _) =>
    DoorCache.files.Opened made cache
  | _ => True

variable {made made' generation : Nat} {cache : DoorCache} {h : CacheHandle}

theorem DoorCache.Opened.mono (hle : made ≤ made') (hh : cache.Opened made h) : cache.Opened made' h :=
  ⟨hh.1, Nat.lt_of_lt_of_le hh.2 hle⟩

theorem KeepStage.Sane.mono (hle : made ≤ made') {stage : KeepStage} (h : stage.Sane made) :
    stage.Sane made' := by
  cases stage with
  | opening files page p f => exact ⟨fun x hx => (h.1 x hx).mono hle, fun x hx => (h.2 x hx).mono hle⟩
  | listing s => exact ⟨h.1.mono hle, h.2.mono hle⟩
  | fetchingFile s path rest => exact ⟨h.1.mono hle, h.2.mono hle⟩
  | puttingFile s path r rest => exact ⟨h.1.mono hle, h.2.mono hle⟩
  | puttingPage s => exact ⟨h.1.mono hle, h.2.mono hle⟩
  | dropping fileCache paths result => exact DoorCache.Opened.mono hle h
  | registering => trivial
  | fetchingPage files => trivial

theorem DoorStage.Sane.mono (hle : made ≤ made') {stage : DoorStage}
    (h : stage.Sane made generation) : stage.Sane made' generation := by
  cases stage with
  | keep gen stage => exact ⟨h.1, h.2.mono hle⟩
  | file stage =>
    cases stage with
    | opening path => trivial
    | matching cache path => exact DoorCache.Opened.mono hle h
    | fetching cache path => exact DoorCache.Opened.mono hle h
    | putting cache path r => exact DoorCache.Opened.mono hle h
  | forget gen => trivial
  | page stage => trivial
  | stray cache => trivial

theorem DoorStage.Sane.le {generation' : Nat} (hle : generation ≤ generation') {stage : DoorStage}
    (h : stage.Sane made generation) : stage.Sane made generation' := by
  cases stage with
  | keep gen stage => exact ⟨Nat.le_trans h.1 hle, h.2⟩
  | file stage => cases stage <;> exact h
  | forget gen => trivial
  | page stage => trivial
  | stray cache => trivial

/-- What the await of a stage does to the caches. -/
inductive CacheEffect (caches : CacheStorage WebAnswer) (stage : DoorStage) :
    CacheStorage WebAnswer → Prop
  | same : CacheEffect caches stage caches
  | opened (cache : DoorCache) : CacheEffect caches stage (caches.openCache cache.name).1
  | deleted : CacheEffect caches stage (caches.delete DoorCache.page.name)
  | file {h key r} (hh : DoorCache.files.Opened caches.made h) :
      CacheEffect caches stage (caches.put h key r)
  | removed {h key} (hh : DoorCache.files.Opened caches.made h) :
      CacheEffect caches stage (caches.remove h key)
  | page {gen s} (hstage : stage = .keep gen (.puttingPage s))
      (hh : DoorCache.page.Opened caches.made s.pageCache) :
      CacheEffect caches stage (caches.put s.pageCache pagePath s.page)

/-- What the await of a stage does to the page answers: a saved page is one it has just matched. -/
def AnswersEffect (d : DoorPhone) (stage : DoorStage) (answers : List PageAnswer) : Prop :=
  answers = d.answers ∨ ∃ a, answers = a :: d.answers ∧ ∀ w, a = .saved w →
    ∃ h fallback, stage = .page (.matching h fallback) ∧ d.caches.findPath h pagePath = some w

/-- What comes after a stage: a save goes on under its generation, and writes only if that is the
phone's; an answer matches in the cache it has just opened. -/
structure Follows (d : DoorPhone) (made : Nat) (stage stage' : DoorStage) : Prop where
  sane : stage'.Sane made d.generation
  keep : ∀ gen k, stage' = .keep gen k → ∃ k', stage = .keep gen k'
  page : ∀ gen s, stage' = .keep gen (.puttingPage s) → gen = d.generation
  matching : ∀ h fallback, stage' = .page (.matching h fallback) → h = d.handle .page

/-- An await that ends: the phone and the stages it gives way to. -/
structure NextOk (d : DoorPhone) (stage : DoorStage) (r : DoorPhone × List DoorStage) : Prop where
  generation : r.1.generation = d.generation
  calls : r.1.calls = d.calls
  answers : AnswersEffect d stage r.1.answers
  effect : CacheEffect d.caches stage r.1.caches
  stages : ∀ stage' ∈ r.2, Follows d r.1.caches.made stage stage'

end Stages

section Awaits

variable {d d' : DoorPhone} {stage : DoorStage} {gen : Nat}

theorem CacheEffect.made_le {c : CacheStorage WebAnswer} (h : CacheEffect d.caches stage c) :
    d.caches.made ≤ c.made := by
  cases h with
  | opened cache => exact CacheStorage.made_le_openCache
  | same => exact Nat.le_refl _
  | deleted => exact Nat.le_refl _
  | file hh => exact Nat.le_refl _
  | removed hh => exact Nat.le_refl _
  | page hstage hh => exact Nat.le_refl _

theorem follows_of_file {stage' : FileStage} {made : Nat}
    (hsane : DoorStage.Sane made d.generation (.file stage')) :
    Follows d made stage (.file stage') :=
  ⟨hsane, fun _ _ => nofun, fun _ _ => nofun, fun _ _ => nofun⟩

theorem nextOk_done (hgen : d'.generation = d.generation) (hcalls : d'.calls = d.calls)
    (hanswers : AnswersEffect d stage d'.answers) (heffect : CacheEffect d.caches stage d'.caches) :
    NextOk d stage (d', []) :=
  ⟨hgen, hcalls, hanswers, heffect, fun _ h => absurd h List.not_mem_nil⟩

theorem nextOk_one {stage' : DoorStage} (hgen : d'.generation = d.generation)
    (hcalls : d'.calls = d.calls) (hanswers : AnswersEffect d stage d'.answers)
    (heffect : CacheEffect d.caches stage d'.caches)
    (hfollows : Follows d d'.caches.made stage stage') : NextOk d stage (d', [stage']) := by
  refine ⟨hgen, hcalls, hanswers, heffect, fun c hc => ?_⟩
  rw [List.mem_singleton.1 hc]
  exact hfollows

/-- A save that goes on, without writing the page next. -/
theorem nextOk_keep {k k' : KeepStage} (hgen : d'.generation = d.generation)
    (hcalls : d'.calls = d.calls) (hanswers : AnswersEffect d (.keep gen k) d'.answers)
    (heffect : CacheEffect d.caches (.keep gen k) d'.caches) (hle : gen ≤ d.generation)
    (hsane : k'.Sane d'.caches.made) (hpage : ∀ s, k' ≠ .puttingPage s) :
    NextOk d (.keep gen k) (d', [.keep gen k']) := by
  refine nextOk_one hgen hcalls hanswers heffect ⟨⟨hle, hsane⟩, ?_, ?_, fun _ _ => nofun⟩
  · rintro _ _ ⟨⟩
    exact ⟨k, rfl⟩
  · rintro _ s ⟨⟩
    exact absurd rfl (hpage s)

theorem nextOk_ended {r : SavedCopy} : NextOk d stage (d.ended r) :=
  nextOk_done rfl rfl (.inl rfl) .same

theorem nextFile_ok {k : KeepStage} {s : Saving} {rest : List String}
    (hgen : d'.generation = d.generation) (hcalls : d'.calls = d.calls)
    (hanswers : AnswersEffect d (.keep gen k) d'.answers)
    (heffect : CacheEffect d.caches (.keep gen k) d'.caches) (hle : gen ≤ d.generation)
    (hs : s.Sane d'.caches.made) : NextOk d (.keep gen k) (d'.nextFile gen s rest) := by
  unfold DoorPhone.nextFile
  split
  · exact nextOk_keep hgen hcalls hanswers heffect hle hs fun _ => nofun
  · split_ifs with hcheck
    · exact nextOk_done hgen hcalls hanswers heffect
    · refine nextOk_one hgen hcalls hanswers heffect ⟨⟨hle, hs⟩, ?_, ?_, fun _ _ => nofun⟩
      · rintro _ _ ⟨⟩
        exact ⟨k, rfl⟩
      · rintro _ _ ⟨⟩
        exact (not_not.1 hcheck).trans hgen

theorem afterOpen_ok {k : KeepStage} {files : List String} {page : WebAnswer}
    {p f : Option CacheHandle} (hgen : d'.generation = d.generation) (hcalls : d'.calls = d.calls)
    (hanswers : AnswersEffect d (.keep gen k) d'.answers)
    (heffect : CacheEffect d.caches (.keep gen k) d'.caches) (hle : gen ≤ d.generation)
    (hp : ∀ h, p = some h → DoorCache.page.Opened d'.caches.made h)
    (hf : ∀ h, f = some h → DoorCache.files.Opened d'.caches.made h) :
    NextOk d (.keep gen k) (d'.afterOpen gen files page p f) := by
  unfold DoorPhone.afterOpen
  split
  · exact nextOk_keep hgen hcalls hanswers heffect hle ⟨hp _ rfl, hf _ rfl⟩ fun _ => nofun
  · exact nextOk_keep hgen hcalls hanswers heffect hle ⟨hp, hf⟩ fun _ => nofun

theorem afterDrop_ok {k : KeepStage} {fileCache : CacheHandle} {result : SavedCopy}
    {paths : List String} (hgen : d'.generation = d.generation) (hcalls : d'.calls = d.calls)
    (hanswers : AnswersEffect d (.keep gen k) d'.answers)
    (heffect : CacheEffect d.caches (.keep gen k) d'.caches) (hle : gen ≤ d.generation)
    (hf : DoorCache.files.Opened d'.caches.made fileCache) :
    NextOk d (.keep gen k) (d'.afterDrop gen fileCache result paths) := by
  unfold DoorPhone.afterDrop
  split
  · exact nextOk_done hgen hcalls hanswers heffect
  · exact nextOk_keep hgen hcalls hanswers heffect hle hf fun _ => nofun

theorem mem_strays {p f : Option CacheHandle} {refused : DoorCache} {stage' : DoorStage}
    (h : stage' ∈ DoorPhone.strays p f refused) : ∃ cache, stage' = .stray cache := by
  unfold DoorPhone.strays at h
  rcases List.mem_append.1 h with h | h <;> split_ifs at h
  · exact ⟨_, List.mem_singleton.1 h⟩
  · cases h
  · exact ⟨_, List.mem_singleton.1 h⟩
  · cases h

theorem opened_made (hmade : d.caches.Made) (cache : DoorCache) :
    cache.Opened (d.opened cache).caches.made (d.handle cache) :=
  ⟨CacheStorage.openCache_name, (hmade.openCache cache.name).2⟩

theorem keepNext_ok (hmade : d.caches.Made) {k : KeepStage}
    (hsane : DoorStage.Sane d.caches.made d.generation (.keep gen k)) (out : DoorOutcome) :
    NextOk d (.keep gen k) (d.keepNext gen k out) := by
  obtain ⟨hle, hsane⟩ := hsane
  unfold DoorPhone.keepNext
  split
  · exact nextOk_keep rfl rfl (.inl rfl) .same hle trivial fun _ => nofun
  · split_ifs
    · exact nextOk_ended
    · exact nextOk_keep rfl rfl (.inl rfl) .same hle ⟨fun _ => nofun, fun _ => nofun⟩ fun _ => nofun
  · refine afterOpen_ok rfl rfl (.inl rfl) (.opened .page) hle ?_ fun h hh => (hsane.2 h hh).mono ?_
    · rintro h ⟨⟩
      exact opened_made hmade .page
    · exact CacheStorage.made_le_openCache
  · refine afterOpen_ok rfl rfl (.inl rfl) (.opened .files) hle (fun h hh => (hsane.1 h hh).mono ?_) ?_
    · exact CacheStorage.made_le_openCache
    · rintro h ⟨⟩
      exact opened_made hmade .files
  · refine ⟨rfl, rfl, .inl rfl, .same, fun stage' hmem => ?_⟩
    obtain ⟨cache, rfl⟩ := mem_strays hmem
    exact ⟨trivial, fun _ _ => nofun, fun _ _ => nofun, fun _ _ => nofun⟩
  · exact nextFile_ok rfl rfl (.inl rfl) .same hle hsane
  · split_ifs
    · exact nextOk_keep rfl rfl (.inl rfl) .same hle hsane fun _ => nofun
    · exact nextFile_ok rfl rfl (.inl rfl) .same hle hsane
  · exact nextFile_ok rfl rfl (.inl rfl) (.file hsane.2) hle hsane
  · exact afterDrop_ok rfl rfl (.inl rfl) (.page rfl hsane.1) hle hsane.2
  · exact afterDrop_ok rfl rfl (.inl rfl) (.removed hsane) hle hsane
  · exact afterDrop_ok rfl rfl (.inl rfl) .same hle hsane
  · exact nextOk_ended

theorem nextOk_page {k k' : AnswerStage} (hgen : d'.generation = d.generation)
    (hcalls : d'.calls = d.calls) (hanswers : d'.answers = d.answers)
    (heffect : CacheEffect d.caches (.page k) d'.caches)
    (hmatching : ∀ h fallback, k' = .matching h fallback → h = d.handle .page) :
    NextOk d (.page k) (d', [.page k']) := by
  refine nextOk_one hgen hcalls (.inl hanswers) heffect ⟨trivial, fun _ _ => nofun,
    fun _ _ => nofun, ?_⟩
  rintro h fallback ⟨⟩
  exact hmatching h fallback rfl

theorem nextOk_answered {a : PageAnswer} (ha : ∀ w, a = .saved w → ∃ h fallback,
    stage = .page (.matching h fallback) ∧ d.caches.findPath h pagePath = some w) :
    NextOk d stage (d.answered a) := nextOk_done rfl rfl (.inr ⟨a, rfl, ha⟩) .same

theorem pageNext_ok (k : AnswerStage) (out : DoorOutcome) :
    NextOk d (.page k) (d.pageNext k out) := by
  unfold DoorPhone.pageNext
  split
  · split_ifs
    · exact nextOk_answered fun _ => nofun
    · exact nextOk_page rfl rfl rfl .same fun _ _ => nofun
  · exact nextOk_page rfl rfl rfl .same fun _ _ => nofun
  · exact nextOk_page rfl rfl rfl .same fun _ _ => nofun
  · refine nextOk_page rfl rfl rfl (.opened .page) ?_
    rintro h _ ⟨⟩
    rfl
  · rename_i cache fallback
    split
    · rename_i r hr
      refine nextOk_answered ?_
      rintro w ⟨⟩
      exact ⟨cache, fallback, rfl, hr⟩
    · unfold DoorPhone.fallBack
      split
      · exact nextOk_answered fun _ => nofun
      · exact nextOk_answered fun _ => nofun
      · exact nextOk_page rfl rfl rfl .same fun _ _ => nofun
  · exact nextOk_answered fun _ => nofun
  · exact nextOk_answered fun _ => nofun
  · exact nextOk_done rfl rfl (.inl rfl) .same
  · exact nextOk_done rfl rfl (.inl rfl) .same

theorem fileNext_ok (hmade : d.caches.Made) {k : FileStage}
    (hsane : DoorStage.Sane d.caches.made d.generation (.file k)) (out : DoorOutcome) :
    NextOk d (.file k) (d.fileNext k out) := by
  unfold DoorPhone.fileNext
  split
  · exact nextOk_one rfl rfl (.inl rfl) (.opened .files)
      (follows_of_file (opened_made hmade .files))
  · split
    · exact nextOk_done rfl rfl (.inl rfl) .same
    · exact nextOk_one rfl rfl (.inl rfl) .same (follows_of_file hsane)
  · split_ifs
    · exact nextOk_one rfl rfl (.inl rfl) .same (follows_of_file hsane)
    · exact nextOk_done rfl rfl (.inl rfl) .same
  · exact nextOk_done rfl rfl (.inl rfl) (.file hsane)
  · exact nextOk_done rfl rfl (.inl rfl) .same

theorem next_ok (hmade : d.caches.Made) (hsane : stage.Sane d.caches.made d.generation)
    (out : DoorOutcome) : NextOk d stage (d.next stage out) := by
  cases stage with
  | keep gen k => exact keepNext_ok hmade hsane out
  | forget gen => exact nextOk_done rfl rfl (.inl rfl) .deleted
  | page k => exact pageNext_ok k out
  | file k => exact fileNext_ok hmade hsane out
  | stray cache =>
    have stays : NextOk d (.stray cache) (d, []) := nextOk_done rfl rfl (.inl rfl) .same
    cases out with
    | ok => exact nextOk_done rfl rfl (.inl rfl) (.opened cache)
    | _ => exact stays

end Awaits

section Runs

variable {d : DoorPhone} {turns : List DoorTurn} {n : Nat}

/-- What holds of the phone whatever it does. -/
structure DoorPhone.Sane (d : DoorPhone) : Prop where
  made : d.caches.Made
  calls : ∀ c ∈ d.calls, c.Sane d.caches.made d.generation

/-- What holds from the resolution of a delete on, while no save begins: `n` caches were made
before it. -/
structure Forgotten (n : Nat) (d : DoorPhone) : Prop where
  sane : d.Sane
  keep : ∀ gen k, .keep gen k ∈ d.calls → gen < d.generation
  page : ∀ gen s, .keep gen (.puttingPage s) ∈ d.calls → s.pageCache.number < n
  named : ∀ m, d.caches.live.lookup DoorCache.page.name = some m → n ≤ m
  empty : ∀ h : CacheHandle, h.name = DoorCache.page.name → n ≤ h.number → d.caches.entries h = ∅
  before : n ≤ d.caches.made

theorem CacheEffect.made {stage : DoorStage} {c : CacheStorage WebAnswer}
    (h : CacheEffect d.caches stage c) (hmade : d.caches.Made) : c.Made := by
  cases h with
  | same => exact hmade
  | opened cache => exact (hmade.openCache cache.name).1
  | deleted => exact hmade.delete
  | file hh => exact hmade.put hh.2
  | removed hh => exact hmade.remove hh.2
  | page hstage hh => exact hmade.put hh.2

/-- One await: the call it is of, and what becomes of the phone and of its other calls. -/
theorem go_cases (hsane : d.Sane) (i : Nat) (out : DoorOutcome) : d.step (.go i out) = d ∨
    ∃ stage r, d.calls[i]? = some stage ∧ NextOk { d with calls := d.calls.eraseIdx i } stage r ∧
      r = ({ d with calls := d.calls.eraseIdx i } : DoorPhone).next stage out ∧
      d.step (.go i out) = { r.1 with calls := r.1.calls ++ r.2 } := by
  rcases hstage : d.calls[i]? with _ | stage
  · refine .inl ?_
    simp only [DoorPhone.step, hstage]
  · have hmem := hsane.calls stage (List.mem_of_getElem? hstage)
    refine .inr ⟨stage, _, rfl, next_ok (d := { d with calls := d.calls.eraseIdx i }) hsane.made hmem
      out, rfl, ?_⟩
    simp only [DoorPhone.step, hstage]

theorem DoorPhone.Sane.step (h : d.Sane) (turn : DoorTurn) : (d.step turn).Sane := by
  have called : ∀ c : DoorStage, c.Sane d.caches.made d.generation → (d.call c).Sane := by
    refine fun c hc => ⟨h.made, fun c' hc' => ?_⟩
    rcases List.mem_append.1 hc' with hc' | hc'
    · exact h.calls c' hc'
    · exact List.mem_singleton.1 hc' ▸ hc
  cases turn with
  | keep supported =>
    cases supported with
    | true => exact called _ ⟨Nat.le_refl _, trivial⟩
    | false => exact ⟨h.made, h.calls⟩
  | forget =>
    refine ⟨h.made, fun c hc => ?_⟩
    rcases List.mem_append.1 hc with hc | hc
    · exact (h.calls c hc).le (Nat.le_succ d.generation)
    · rw [List.mem_singleton.1 hc]
      trivial
  | page onLine => exact called _ trivial
  | file path => exact called _ trivial
  | go i out =>
    rcases go_cases h i out with heq | ⟨stage, r, hstage, hnext, -, heq⟩
    · rwa [heq]
    · rw [heq]
      refine ⟨hnext.effect.made h.made, fun c hc => ?_⟩
      rcases List.mem_append.1 hc with hc | hc
      · rw [hnext.calls] at hc
        show c.Sane r.1.caches.made r.1.generation
        rw [hnext.generation]
        exact (h.calls c (List.mem_of_mem_eraseIdx hc)).mono hnext.effect.made_le
      · show c.Sane r.1.caches.made r.1.generation
        rw [hnext.generation]
        exact (hnext.stages c hc).sane

theorem DoorPhone.Sane.run (h : d.Sane) : (d.run turns).Sane := by
  induction turns generalizing d with
  | nil => exact h
  | cons turn turns ih => exact ih (h.step turn)

/-- A turn that is no save beginning keeps the saves of an older generation to it. -/
theorem keep_step (h : d.Sane) {turn : DoorTurn} (hturn : turn ≠ .keep true) {gen : Nat}
    {k : KeepStage} (hmem : .keep gen k ∈ (d.step turn).calls) :
    d.generation ≤ (d.step turn).generation ∧ ∃ k', .keep gen k' ∈ d.calls := by
  cases turn with
  | keep supported =>
    cases supported with
    | true => exact absurd rfl hturn
    | false => exact ⟨Nat.le_refl _, k, hmem⟩
  | forget =>
    rcases List.mem_append.1 hmem with hmem | hmem
    · exact ⟨Nat.le_succ _, k, hmem⟩
    · cases List.mem_singleton.1 hmem
  | page onLine =>
    rcases List.mem_append.1 hmem with hmem | hmem
    · exact ⟨Nat.le_refl _, k, hmem⟩
    · cases List.mem_singleton.1 hmem
  | file path =>
    rcases List.mem_append.1 hmem with hmem | hmem
    · exact ⟨Nat.le_refl _, k, hmem⟩
    · cases List.mem_singleton.1 hmem
  | go i out =>
    rcases go_cases h i out with heq | ⟨stage, r, hstage, hnext, -, heq⟩
    · rw [heq] at hmem ⊢
      exact ⟨Nat.le_refl _, k, hmem⟩
    · rw [heq] at hmem ⊢
      refine ⟨Nat.le_of_eq hnext.generation.symm, ?_⟩
      rcases List.mem_append.1 hmem with hmem | hmem
      · rw [hnext.calls] at hmem
        exact ⟨k, List.mem_of_mem_eraseIdx hmem⟩
      · obtain ⟨k', rfl⟩ := (hnext.stages _ hmem).keep gen k rfl
        exact ⟨k', List.mem_of_getElem? hstage⟩

theorem Forgotten.effect {stage : DoorStage} {c : CacheStorage WebAnswer} (h : Forgotten n d)
    (hmem : stage ∈ d.calls) (heffect : CacheEffect d.caches stage c) :
    (∀ m, c.live.lookup DoorCache.page.name = some m → n ≤ m) ∧
      ∀ h : CacheHandle, h.name = DoorCache.page.name → n ≤ h.number → c.entries h = ∅ := by
  cases heffect with
  | same => exact ⟨h.named, h.empty⟩
  | opened cache =>
    constructor
    · intro m hm
      rcases d.caches.openCache_cases cache.name with ⟨k, -, heq⟩ | ⟨-, heq⟩ <;> rw [heq] at hm
      · exact h.named m hm
      · have hm : (d.caches.live.insert cache.name d.caches.made).lookup _ = some m := hm
        rw [Table.lookup_insert_eq] at hm
        split_ifs at hm
        · cases hm
          exact h.before
        · exact h.named m hm
    · intro x hx hn
      rw [CacheStorage.openCache_entries]
      exact h.empty x hx hn
  | deleted =>
    refine ⟨fun m hm => ?_, h.empty⟩
    have hm : (d.caches.live.erase DoorCache.page.name).lookup _ = some m := hm
    rw [Table.lookup_erase_eq, if_pos rfl] at hm
    cases hm
  | file hh =>
    refine ⟨h.named, fun x hx hn => ?_⟩
    rw [CacheStorage.entries_put, if_neg]
    · exact h.empty x hx hn
    · rintro rfl
      exact absurd (hh.1.symm.trans hx) (by decide)
  | removed hh =>
    refine ⟨h.named, fun x hx hn => ?_⟩
    rw [CacheStorage.entries_remove, if_neg]
    · exact h.empty x hx hn
    · rintro rfl
      exact absurd (hh.1.symm.trans hx) (by decide)
  | page hstage hh =>
    refine ⟨h.named, fun x hx hn => ?_⟩
    rw [CacheStorage.entries_put, if_neg]
    · exact h.empty x hx hn
    · rintro rfl
      exact Nat.not_lt_of_le hn (h.page _ _ (hstage ▸ hmem))

theorem Forgotten.step (h : Forgotten n d) {turn : DoorTurn} (hturn : turn ≠ .keep true) :
    Forgotten n (d.step turn) := by
  have hkeep : ∀ gen k, .keep gen k ∈ (d.step turn).calls → gen < (d.step turn).generation := by
    intro gen k hmem
    obtain ⟨hle, k', hmem'⟩ := keep_step h.sane hturn hmem
    exact Nat.lt_of_lt_of_le (h.keep gen k' hmem') hle
  have called : ∀ c : DoorStage, (∀ gen s, c ≠ .keep gen (.puttingPage s)) → ∀ gen s,
      .keep gen (.puttingPage s) ∈ d.calls ++ [c] → s.pageCache.number < n := by
    intro c hc gen s hmem
    rcases List.mem_append.1 hmem with hmem | hmem
    · exact h.page gen s hmem
    · exact absurd (List.mem_singleton.1 hmem).symm (hc gen s)
  cases turn with
  | keep supported =>
    cases supported with
    | true => exact absurd rfl hturn
    | false => exact ⟨h.sane.step _, hkeep, h.page, h.named, h.empty, h.before⟩
  | forget =>
    exact ⟨h.sane.step _, hkeep, called _ fun _ _ => nofun, h.named, h.empty, h.before⟩
  | page onLine =>
    exact ⟨h.sane.step _, hkeep, called _ fun _ _ => nofun, h.named, h.empty, h.before⟩
  | file path =>
    exact ⟨h.sane.step _, hkeep, called _ fun _ _ => nofun, h.named, h.empty, h.before⟩
  | go i out =>
    have hsane := h.sane.step (.go i out)
    rcases go_cases h.sane i out with heq | ⟨stage, r, hstage, hnext, -, heq⟩
    · rwa [heq]
    · have hmem := List.mem_of_getElem? hstage
      obtain ⟨hnamed, hempty⟩ := h.effect hmem hnext.effect
      refine ⟨hsane, hkeep, fun gen s hs => ?_, ?_, ?_, ?_⟩ <;> rw [heq] at *
      · rcases List.mem_append.1 hs with hs | hs
        · rw [hnext.calls] at hs
          exact h.page gen s (List.mem_of_mem_eraseIdx hs)
        · -- it has just passed the check, which no save of an older generation does
          obtain ⟨k', hk'⟩ := (hnext.stages _ hs).keep gen _ rfl
          have hlt := h.keep gen k' (hk' ▸ hmem)
          exact absurd ((hnext.stages _ hs).page gen s rfl) (Nat.ne_of_lt hlt)
      · exact hnamed
      · exact hempty
      · exact Nat.le_trans h.before hnext.effect.made_le

/-- A delete that resolves, with no save begun since it was called. -/
theorem Forgotten.start (h : d.Sane) (hkeep : ∀ gen k, .keep gen k ∈ d.calls → gen < d.generation)
    {i gen : Nat} (out : DoorOutcome) (hi : d.calls[i]? = some (.forget gen)) :
    Forgotten d.caches.made (d.step (.go i out)) := by
  have heq : d.step (.go i out) =
      { d with caches := d.caches.delete DoorCache.page.name, calls := d.calls.eraseIdx i ++ [] } := by
    simp only [DoorPhone.step, hi]
    rfl
  have hcalls : ∀ c, c ∈ (d.step (.go i out)).calls → c ∈ d.calls := by
    intro c hc
    rw [heq, List.append_nil] at hc
    exact List.mem_of_mem_eraseIdx hc
  refine ⟨h.step _, fun g k hmem => ?_, fun g s hmem => ?_, fun m hm => ?_, fun x hx hn => ?_, ?_⟩
  · have hlt := hkeep g k (hcalls _ hmem)
    rw [heq]
    exact hlt
  · exact (h.calls _ (hcalls _ hmem)).2.1.2
  · rw [heq] at hm
    have hm : (d.caches.live.erase DoorCache.page.name).lookup _ = some m := hm
    rw [Table.lookup_erase_eq, if_pos rfl] at hm
    cases hm
  · rw [heq]
    exact h.made.stored x hn
  · rw [heq]
    exact Nat.le_refl _

/-- The saves in progress are older than the delete, from its call on. -/
theorem older_run (h : d.Sane) (hkeep : ∀ gen k, .keep gen k ∈ d.calls → gen < d.generation)
    (hturns : .keep true ∉ turns) :
    ∀ gen k, .keep gen k ∈ (d.run turns).calls → gen < (d.run turns).generation := by
  induction turns generalizing d with
  | nil => exact hkeep
  | cons turn turns ih =>
    have hturn : turn ≠ .keep true := fun heq => hturns (heq ▸ List.mem_cons_self)
    refine ih (h.step turn) (fun gen k hmem => ?_) fun hmem => hturns (List.mem_cons_of_mem _ hmem)
    obtain ⟨hle, k', hmem'⟩ := keep_step h hturn hmem
    exact Nat.lt_of_lt_of_le (hkeep gen k' hmem') hle

theorem older_forget (h : d.Sane) :
    ∀ gen k, .keep gen k ∈ (d.step .forget).calls → gen < (d.step .forget).generation := by
  intro gen k hmem
  rcases List.mem_append.1 hmem with hmem | hmem
  · exact Nat.lt_succ_of_le (h.calls _ hmem).1
  · cases List.mem_singleton.1 hmem

theorem Forgotten.run (h : Forgotten n d) (hturns : .keep true ∉ turns) :
    Forgotten n (d.run turns) := by
  induction turns generalizing d with
  | nil => exact h
  | cons turn turns ih =>
    have hturn : turn ≠ .keep true := fun heq => hturns (heq ▸ List.mem_cons_self)
    exact ih (h.step hturn) fun hmem => hturns (List.mem_cons_of_mem _ hmem)

/-- An open after the delete is of a cache made after it. -/
theorem Forgotten.handle (h : Forgotten n d) :
    (d.handle .page).name = DoorCache.page.name ∧ n ≤ (d.handle .page).number := by
  refine ⟨CacheStorage.openCache_name, ?_⟩
  unfold DoorPhone.handle
  rcases d.caches.openCache_cases DoorCache.page.name with ⟨m, hm, heq⟩ | ⟨-, heq⟩ <;> rw [heq]
  · exact h.named m hm
  · exact h.before

theorem Forgotten.findPath (h : Forgotten n d) {x : CacheHandle}
    (hx : x.name = DoorCache.page.name) (hn : n ≤ x.number) :
    d.caches.findPath x pagePath = none := by
  unfold CacheStorage.findPath
  rw [h.empty x hx hn]
  rfl

/-- Every page answer that is about to match opened the cache after the delete. -/
def OpenedSince (n : Nat) (d : DoorPhone) : Prop :=
  ∀ x fallback, .page (.matching x fallback) ∈ d.calls →
    x.name = DoorCache.page.name ∧ n ≤ x.number

theorem OpenedSince.step (h : Forgotten n d) (hopened : OpenedSince n d) (turn : DoorTurn) :
    OpenedSince n (d.step turn) ∧ ∀ w, .saved w ∈ (d.step turn).answers → .saved w ∈ d.answers := by
  have called : ∀ c : DoorStage, (∀ x fallback, c ≠ .page (.matching x fallback)) →
      OpenedSince n (d.call c) := by
    intro c hc x fallback hmem
    rcases List.mem_append.1 hmem with hmem | hmem
    · exact hopened x fallback hmem
    · exact absurd (List.mem_singleton.1 hmem).symm (hc x fallback)
  cases turn with
  | keep supported =>
    cases supported with
    | true => exact ⟨called _ fun _ _ => nofun, fun _ hw => hw⟩
    | false => exact ⟨hopened, fun _ hw => hw⟩
  | forget => exact ⟨called _ fun _ _ => nofun, fun _ hw => hw⟩
  | page onLine =>
    cases onLine with
    | true => exact ⟨called _ fun _ _ => nofun, fun _ hw => hw⟩
    | false => exact ⟨called _ fun _ _ => nofun, fun _ hw => hw⟩
  | file path => exact ⟨called _ fun _ _ => nofun, fun _ hw => hw⟩
  | go i out =>
    rcases go_cases h.sane i out with heq | ⟨stage, r, hstage, hnext, -, heq⟩
    · rw [heq]
      exact ⟨hopened, fun _ hw => hw⟩
    · rw [heq]
      constructor
      · intro x fallback hmem
        rcases List.mem_append.1 hmem with hmem | hmem
        · rw [hnext.calls] at hmem
          exact hopened x fallback (List.mem_of_mem_eraseIdx hmem)
        · rw [(hnext.stages _ hmem).matching x fallback rfl]
          exact h.handle
      · intro w hw
        rcases hnext.answers with hsame | ⟨a, hadded, ha⟩
        · exact hsame ▸ hw
        · have hw : PageAnswer.saved w ∈ r.1.answers := hw
          rw [hadded] at hw
          rcases List.mem_cons.1 hw with hw | hw
          · obtain ⟨x, fallback, rfl, hfound⟩ := ha w hw.symm
            obtain ⟨hx, hn⟩ := hopened x fallback (List.mem_of_getElem? hstage)
            cases (h.findPath hx hn).symm.trans hfound
          · exact hw

theorem OpenedSince.run (h : Forgotten n d) (hopened : OpenedSince n d)
    (hturns : .keep true ∉ turns) : ∀ w, .saved w ∈ (d.run turns).answers → .saved w ∈ d.answers := by
  induction turns generalizing d with
  | nil => exact fun _ hw => hw
  | cons turn turns ih =>
    have hturn : turn ≠ .keep true := fun heq => hturns (heq ▸ List.mem_cons_self)
    obtain ⟨hopened', hanswers⟩ := OpenedSince.step h hopened turn
    intro w hw
    exact hanswers w (ih (h.step hturn) hopened' (fun hmem => hturns (List.mem_cons_of_mem _ hmem)) w hw)

end Runs

/-- The phone when a `forgetPageOffline` called after `before` resolves as the `i`th call, `between`
its call and now. -/
def forgottenAt (before between : List DoorTurn) (i : Nat) (out : DoorOutcome) : DoorPhone :=
  ((DoorPhone.fresh.run before).run (.forget :: between)).step (.go i out)

/-- Once a delete has resolved and no save has begun since it was called: a page answer that opens
the cache then or later finds nothing in it, whenever it looks; so unless one had opened it before,
none is answered with a saved page any more. -/
theorem saved_page_forgotten (before between after later : List DoorTurn) (i : Nat)
    (out : DoorOutcome)
    (hi : ((DoorPhone.fresh.run before).run (.forget :: between)).calls[i]? =
      some (.forget ((DoorPhone.fresh.run before).generation + 1)))
    (hbetween : .keep true ∉ between) (hafter : .keep true ∉ after) (hlater : .keep true ∉ later) :
    let d := forgottenAt before between i out
    ((d.run after).run later).caches.findPath ((d.run after).handle .page) pagePath = none ∧
      ((∀ x fallback, .page (.matching x fallback) ∉ d.calls) →
        ∀ w, .saved w ∈ (d.run after).answers → .saved w ∈ d.answers) := by
  have hsane : (DoorPhone.fresh.run before).Sane :=
    DoorPhone.Sane.run ⟨CacheStorage.Made.empty, fun _ h => absurd h List.not_mem_nil⟩
  have holder := older_run (hsane.step .forget) (older_forget hsane) hbetween
  have hstart := Forgotten.start (hsane.step .forget).run holder out hi
  constructor
  · have hopen := (hstart.run hafter).handle
    exact ((hstart.run hafter).run hlater).findPath hopen.1 hopen.2
  · intro hnone
    exact OpenedSince.run hstart (fun x fallback hmem => absurd hmem (hnone x fallback)) hafter

def gatePage : WebAnswer := ⟨200, false, "the gate's last scans"⟩

/-- A save from beginning to end. -/
def savedOnce : List DoorTurn :=
  [.keep true, .go 0 (.loaded []), .go 0 (.answered gatePage), .go 0 (.opened .page),
    .go 0 (.opened .files), .go 0 .ok, .go 0 .ok]

/-- The page is saved, forgotten, and opened without signal. -/
theorem saved_page_forgotten_after :
    (DoorPhone.fresh.run savedOnce).saves = [.saved] ∧
      ((forgottenAt savedOnce [] 0 .ok).caches.findPath
        ((forgottenAt savedOnce [] 0 .ok).handle .page) pagePath = none) ∧
      ((forgottenAt savedOnce [] 0 .ok).run [.page false, .go 0 .ok, .go 0 .ok]).answers =
        [.noSignal] :=
  ⟨by decide +kernel,
    (saved_page_forgotten savedOnce [] [] [] 0 .ok (by decide +kernel) (by decide) (by decide)
      (by decide)).1, by decide +kernel⟩

/-- An answer that has opened the cache before the delete matches the saved page after it. -/
theorem saved_page_matched :
    ((DoorPhone.fresh.run (savedOnce ++ [.page false, .go 0 .ok])).run [.forget]).calls[1]? =
        some (.forget 1) ∧
      (forgottenAt (savedOnce ++ [.page false, .go 0 .ok]) [] 1 .ok).answers = [] ∧
      ((forgottenAt (savedOnce ++ [.page false, .go 0 .ok]) [] 1 .ok).run [.go 0 .ok]).answers =
        [.saved gatePage] :=
  ⟨by decide +kernel, by decide +kernel, by decide +kernel⟩

end EchoAndAura
