import EchoAndAura.ErrorPrivacy

/-!
# Error reports leak nothing

A file name a report keeps is one of the policy's own or one made of a debug id (`codeFile_shape`),
and such a name is kept as it is whatever the ids (`codeFile_fixed`).  So every text of a report is
the policy's or has one of its shapes, and a report is its own report.
-/

namespace EchoAndAura

namespace ErrorTracking

section Shapes

variable {pathname : String → Option String}

theorem mem_intercalate {α : Type} {sep x : α} : ∀ {parts : List (List α)},
    x ∈ [sep].intercalate parts → x = sep ∨ ∃ part ∈ parts, x ∈ part
  | [], h => by simp at h
  | [part], h => by
    rw [List.intercalate_singleton] at h
    exact .inr ⟨part, List.mem_cons_self, h⟩
  | part :: part' :: parts, h => by
    rw [List.intercalate_cons_cons, List.append_assoc, List.mem_append, List.singleton_append,
      List.mem_cons] at h
    rcases h with h | rfl | h
    · exact .inr ⟨part, List.mem_cons_self, h⟩
    · exact .inl rfl
    · rcases mem_intercalate h with rfl | ⟨p, hp, hx⟩
      · exact .inl rfl
      · exact .inr ⟨p, List.mem_cons_of_mem _ hp, hx⟩

/-- A debug id is no path. -/
theorem debugId_path {id : List Char} (h : debugIdPattern id = true) : id ≠ [] ∧ '/' ∉ id := by
  unfold debugIdPattern at h
  simp only [Bool.and_eq_true, beq_iff_eq, List.all_eq_true] at h
  obtain ⟨hlengths, hhex⟩ := h
  refine ⟨?_, fun hslash => ?_⟩
  · rintro rfl
    simp at hlengths
  · have hsplit : ['-'].intercalate (id.splitOn '-') = id := List.intercalate_splitOn '-'
    rw [← hsplit] at hslash
    rcases mem_intercalate hslash with h | ⟨part, hpart, hin⟩
    · exact absurd h (by decide)
    · exact absurd (hhex part hpart _ hin) (by decide)

theorem canonicalId_nextFile {id : List Char} (hnil : id ≠ []) (hslash : '/' ∉ id) :
    canonicalId (nextFile id) = some id := by
  have hdrop : (nextFile id).toList.drop nextStart.length = id ++ scriptEnd := by
    rw [nextFile, String.toList_ofList, List.drop_left]
  have hid : (id ++ scriptEnd).take ((id ++ scriptEnd).length - scriptEnd.length) = id := by
    rw [List.length_append, Nat.add_sub_cancel, List.take_left]
  have hstart : nextStart.isPrefixOf (nextFile id).toList = true := by
    rw [nextFile, String.toList_ofList]
    exact List.isPrefixOf_iff_prefix.2 (List.prefix_append _ _)
  unfold canonicalId
  dsimp only
  rw [hdrop, hid, if_pos]
  exact ⟨hstart, List.isSuffixOf_iff_suffix.2 (List.suffix_append _ _), hnil, hslash⟩

theorem eq_nextFile {value : String} {id : List Char} (h : canonicalId value = some id) :
    value = nextFile id := by
  unfold canonicalId at h
  dsimp only at h
  rw [Option.ite_none_right_eq_some] at h
  obtain ⟨⟨hstart, hsuffix, -, -⟩, hid⟩ := h
  obtain ⟨rest, hrest⟩ := List.isPrefixOf_iff_prefix.1 hstart
  rw [← hrest, List.drop_left] at hsuffix hid
  obtain ⟨front, rfl⟩ := List.isSuffixOf_iff_suffix.1 hsuffix
  rw [List.length_append, Nat.add_sub_cancel, List.take_left, Option.some.injEq] at hid
  subst hid
  rw [nextFile, hrest, String.ofList_toList]

/-- The names a report keeps for files. -/
def KeptFile (file : String) : Prop :=
  file = workerFile ∨ file = nextFile unmapped ∨
    ∃ id, debugIdPattern id = true ∧ file = nextFile id

theorem codeFile_shape {value debugId : Option String} {file : String}
    (h : codeFile pathname value debugId = some file) : KeptFile file := by
  unfold codeFile at h
  cases value with
  | none => cases h
  | some value =>
    dsimp only at h
    split_ifs at h with hempty hworker hcanonical
    · cases h
      exact .inl hworker
    · cases h
      unfold isCanonical at hcanonical
      obtain ⟨id, hid, hshape⟩ := (Option.any_eq_true _ _).1 hcanonical
      rw [Bool.or_eq_true, beq_iff_eq] at hshape
      rcases hshape with rfl | hshape
      · exact .inr (.inl (eq_nextFile hid))
      · exact .inr (.inr ⟨id, hshape, eq_nextFile hid⟩)
    · cases hpath : codePath pathname value with
      | none =>
        rw [hpath] at h
        cases h
      | some path =>
        rw [hpath] at h
        dsimp only at h
        split_ifs at h with hw ha hs
        · cases h
          exact .inl rfl
        · cases debugId with
          | none =>
            cases h
            exact .inr (.inl rfl)
          | some id =>
            dsimp only at h
            split_ifs at h with hid
            · cases h
              exact .inr (.inr ⟨id.toList, hid, rfl⟩)
            · cases h
              exact .inr (.inl rfl)

theorem isCanonical_nextFile {id : List Char} (h : id = unmapped ∨ debugIdPattern id = true) :
    isCanonical (nextFile id) = true := by
  have hpath : id ≠ [] ∧ '/' ∉ id := by
    rcases h with rfl | h
    · exact ⟨by decide, by decide⟩
    · exact debugId_path h
  unfold isCanonical
  rw [canonicalId_nextFile hpath.1 hpath.2, Option.any_some, Bool.or_eq_true, beq_iff_eq]
  exact h

/-- A kept name is kept as it is. -/
theorem codeFile_fixed {file : String} (h : KeptFile file) (debugId : Option String) :
    codeFile pathname (some file) debugId = some file := by
  have hcanonical : ∀ {id : List Char}, id = unmapped ∨ debugIdPattern id = true →
      codeFile pathname (some (nextFile id)) debugId = some (nextFile id) := fun {id} hid => by
    have hne : nextFile id ≠ "" := fun hn => by
      have hl := congrArg String.toList hn
      rw [nextFile, String.toList_ofList] at hl
      exact absurd hl (by simp [nextStart])
    unfold codeFile
    dsimp only
    rw [if_neg hne, if_pos (isCanonical_nextFile hid)]
    split_ifs <;> rfl
  rcases h with rfl | rfl | ⟨id, hid, rfl⟩
  · unfold codeFile
    dsimp only
    rw [if_neg (by decide +kernel), if_pos rfl]
  · exact hcanonical (.inl rfl)
  · exact hcanonical (.inr hid)

end Shapes

section Strings

def StackFrame.strings (f : StackFrame) : List String :=
  f.filename.toList ++ f.abs_path.toList ++ JsonValue.fieldStrings f.rest

def Mechanism.strings (m : Mechanism) : List String :=
  m.type.toList ++ JsonValue.fieldStrings m.rest

def Stacktrace.strings (t : Stacktrace) : List String :=
  (t.frames.getD []).flatMap StackFrame.strings ++ JsonValue.fieldStrings t.rest

def Exception.strings (e : Exception) : List String :=
  e.type.toList ++ e.value.toList ++ e.mechanism.toList.flatMap Mechanism.strings ++
    e.stacktrace.toList.flatMap Stacktrace.strings ++ JsonValue.fieldStrings e.rest

def DebugImage.strings (i : DebugImage) : List String :=
  i.type :: (i.code_file.toList ++ i.debug_id.toList ++ JsonValue.fieldStrings i.rest)

def DebugMeta.strings (m : DebugMeta) : List String :=
  (m.images.getD []).flatMap DebugImage.strings ++ JsonValue.fieldStrings m.rest

def ErrorValues.strings (v : ErrorValues) : List String :=
  (v.values.getD []).flatMap Exception.strings ++ JsonValue.fieldStrings v.rest

/-- Every text anywhere in an event. -/
def Event.strings (e : Event) : List String :=
  e.type.toList ++ e.platform.toList ++ e.event_id.toList ++ e.release.toList ++
    e.environment.toList ++ e.level.toList ++ e.exception.toList.flatMap ErrorValues.strings ++
    JsonValue.fieldStrings (e.tags.getD []) ++ e.debug_meta.toList.flatMap DebugMeta.strings ++
    JsonValue.fieldStrings e.rest

/-- The policy's own words. -/
def policyWords : List String :=
  components ++ operations ++ queues ++ routes ++ types ++
    [omitted, "generic", "sourcemap", "node", "javascript", "staging", "production", "fatal",
      "error", "component", "operation", "queue", "route", workerFile, nextFile unmapped]

/-- A text a report may hold. -/
def Allowed (s : String) : Prop :=
  s ∈ policyWords ∨ isHexOf 32 s.toList = true ∨ isHexOf 40 s.toList = true ∨
    debugIdPattern s.toList = true ∨ ∃ id, debugIdPattern id = true ∧ s = nextFile id

variable {pathname : String → Option String}

theorem allowed_word {s : String} (h : s ∈ policyWords) : Allowed s := .inl h

theorem KeptFile.allowed {file : String} (h : KeptFile file) : Allowed file := by
  rcases h with rfl | rfl | h
  · exact allowed_word (by simp [policyWords])
  · exact allowed_word (by simp [policyWords])
  · exact .inr (.inr (.inr (.inr h)))

theorem safeFrame_allowed {ids : DebugIds} {frame safe : StackFrame}
    (h : safeFrame pathname ids frame = some safe) : ∀ s ∈ safe.strings, Allowed s := by
  unfold safeFrame at h
  obtain ⟨file, hfile, rfl⟩ := Option.map_eq_some_iff.1 h
  have hkept := (codeFile_shape hfile).allowed
  intro s hs
  simp only [StackFrame.strings, Option.toList_some, JsonValue.fieldStrings, List.append_nil,
    List.mem_append, List.mem_singleton, or_self] at hs
  rw [hs]
  exact hkept

theorem safeType_allowed (type : Option String) : Allowed (safeType type) := by
  have herror : Allowed "Error" := allowed_word (by simp [policyWords, types])
  cases type with
  | none => exact herror
  | some type =>
    unfold safeType
    dsimp only
    split_ifs with h
    · exact allowed_word (by simp [policyWords, h])
    · exact herror

theorem safeException_allowed (ids : DebugIds) (e : Exception) :
    ∀ s ∈ (safeException pathname ids e).strings, Allowed s := by
  have homitted : Allowed omitted := allowed_word (by simp [policyWords])
  have hgeneric : Allowed "generic" := allowed_word (by simp [policyWords])
  have hframes : ∀ s ∈ ((lastOf 50 ((e.stacktrace.bind (·.frames)).getD [])).filterMap
      (safeFrame pathname ids)).flatMap StackFrame.strings, Allowed s := fun s hs => by
    obtain ⟨frame, hframe, hin⟩ := List.mem_flatMap.1 hs
    obtain ⟨raw, -, hsafe⟩ := List.mem_filterMap.1 hframe
    exact safeFrame_allowed hsafe s hin
  simp only [Exception.strings, safeException, Option.toList_some, Mechanism.strings,
    Stacktrace.strings, Option.getD_some, JsonValue.fieldStrings, List.append_nil,
    List.flatMap_cons, List.flatMap_nil, List.forall_mem_append, List.forall_mem_singleton]
  exact ⟨⟨⟨safeType_allowed _, homitted⟩, hgeneric⟩, hframes⟩

theorem safeImage_allowed {image safe : DebugImage} (h : safeImage pathname image = some safe) :
    ∀ s ∈ safe.strings, Allowed s := by
  unfold safeImage at h
  split at h
  · rename_i file id hfile hid
    rw [Option.ite_none_right_eq_some] at h
    obtain ⟨⟨-, hshape⟩, hsafe⟩ := h
    cases hsafe
    simp only [DebugImage.strings, Option.toList_some, JsonValue.fieldStrings, List.append_nil,
      List.forall_mem_cons, List.forall_mem_append, List.not_mem_nil, IsEmpty.forall_iff,
      implies_true, and_true]
    exact ⟨allowed_word (by simp [policyWords]), (codeFile_shape hfile).allowed,
      .inr (.inr (.inr (.inl hshape)))⟩
  · cases h

theorem safeTag_allowed (tags : Option Fields) {key : String} {allow : List String}
    (hkey : key ∈ policyWords) (hallow : allow ⊆ policyWords) :
    ∀ s ∈ JsonValue.fieldStrings (safeTag tags key allow), Allowed s := by
  unfold safeTag
  split
  · split_ifs with hvalue
    · simp only [JsonValue.fieldStrings, JsonValue.strings, List.append_nil,
        List.forall_mem_cons, List.not_mem_nil, IsEmpty.forall_iff, implies_true, and_true]
      exact ⟨allowed_word hkey, allowed_word (hallow hvalue)⟩
    · simp [JsonValue.fieldStrings]
  · simp [JsonValue.fieldStrings]

theorem fieldStrings_append (f g : Fields) : JsonValue.fieldStrings (f ++ g) =
    JsonValue.fieldStrings f ++ JsonValue.fieldStrings g := by
  induction f with
  | nil => rfl
  | cons field f ih =>
    simp [JsonValue.fieldStrings, ih]

theorem safeTags_allowed (tags : Option Fields) :
    ∀ s ∈ JsonValue.fieldStrings (safeTags tags), Allowed s := by
  unfold safeTags
  simp only [fieldStrings_append, List.forall_mem_append]
  refine ⟨⟨⟨safeTag_allowed tags ?_ ?_, safeTag_allowed tags ?_ ?_⟩, safeTag_allowed tags ?_ ?_⟩,
    safeTag_allowed tags ?_ ?_⟩
  · simp [policyWords]
  · intro s hs
    simp [policyWords, hs]
  · simp [policyWords]
  · intro s hs
    simp [policyWords, hs]
  · simp [policyWords]
  · intro s hs
    simp [policyWords, hs]
  · simp [policyWords]
  · intro s hs
    simp [policyWords, hs]

/-- The report of an event that has one. -/
theorem privateErrorEvent_eq {event out : Event} (h : privateErrorEvent pathname event = some out) :
    (event.exception.bind (·.values)).getD [] ≠ [] ∧ out =
      { type := none
        platform := some (if event.platform = some "node" then "node" else "javascript")
        event_id := event.event_id.filter fun id => isHexOf 32 id.toList
        release := event.release.filter fun release => isHexOf 40 release.toList
        environment := some (if event.environment = some "staging" then "staging" else "production")
        level := some (if event.level = some "fatal" then "fatal" else "error")
        exception := some ⟨some ((lastOf 5 ((event.exception.bind (·.values)).getD [])).map
          (safeException pathname (imageIds (DebugMeta.list event.debug_meta)))), []⟩
        tags := some (safeTags event.tags)
        debug_meta :=
          if (DebugMeta.list event.debug_meta).filterMap (safeImage pathname) = [] then none
          else some ⟨some ((DebugMeta.list event.debug_meta).filterMap (safeImage pathname)), []⟩
        rest := [] } := by
  unfold privateErrorEvent at h
  dsimp only at h
  rw [Option.ite_none_left_eq_some] at h
  obtain ⟨hno, hout⟩ := h
  rw [not_or] at hno
  exact ⟨hno.2, (Option.some.inj hout).symm⟩

theorem private_allowed {event out : Event} (h : privateErrorEvent pathname event = some out) :
    ∀ s ∈ out.strings, Allowed s := by
  obtain ⟨-, rfl⟩ := privateErrorEvent_eq h
  have hchoice : ∀ {p : Prop} [Decidable p] {a b : String}, a ∈ policyWords → b ∈ policyWords →
      Allowed (if p then a else b) := fun ha hb => by
    split_ifs
    · exact allowed_word ha
    · exact allowed_word hb
  have hfilter : ∀ {o : Option String} {n : Nat}, (n = 32 ∨ n = 40) →
      ∀ s ∈ (o.filter fun s => isHexOf n s.toList).toList, Allowed s := fun hn s hs => by
    rw [Option.mem_toList, Option.filter_eq_some_iff] at hs
    rcases hn with rfl | rfl
    · exact .inr (.inl hs.2)
    · exact .inr (.inr (.inl hs.2))
  have himages : ∀ s ∈ ((DebugMeta.list event.debug_meta).filterMap
      (safeImage pathname)).flatMap DebugImage.strings, Allowed s := fun s hs => by
    obtain ⟨image, himage, hin⟩ := List.mem_flatMap.1 hs
    obtain ⟨raw, -, hsafe⟩ := List.mem_filterMap.1 himage
    exact safeImage_allowed hsafe s hin
  have hmeta : ∀ s ∈ (if (DebugMeta.list event.debug_meta).filterMap (safeImage pathname) = []
      then none else some (⟨some ((DebugMeta.list event.debug_meta).filterMap
        (safeImage pathname)), []⟩ : DebugMeta)).toList.flatMap DebugMeta.strings, Allowed s := by
    split_ifs
    · simp
    · simpa only [Option.toList_some, List.flatMap_cons, List.flatMap_nil, DebugMeta.strings,
        Option.getD_some, JsonValue.fieldStrings, List.append_nil] using himages
  have hvalues : ∀ s ∈ ((lastOf 5 ((event.exception.bind (·.values)).getD [])).map
      (safeException pathname (imageIds (DebugMeta.list event.debug_meta)))).flatMap
        Exception.strings, Allowed s := fun s hs => by
    obtain ⟨e, he, hin⟩ := List.mem_flatMap.1 hs
    obtain ⟨raw, -, rfl⟩ := List.mem_map.1 he
    exact safeException_allowed _ raw s hin
  simp only [Event.strings, Option.toList_none, Option.toList_some, ErrorValues.strings,
    Option.getD_some, JsonValue.fieldStrings, List.append_nil, List.nil_append,
    List.flatMap_cons, List.flatMap_nil, List.forall_mem_append, List.forall_mem_singleton]
  refine ⟨⟨⟨⟨⟨⟨⟨hchoice ?_ ?_, hfilter (.inl rfl)⟩, hfilter (.inr rfl)⟩, hchoice ?_ ?_⟩,
    hchoice ?_ ?_⟩, hvalues⟩, safeTags_allowed _⟩, hmeta⟩ <;> simp [policyWords]

end Strings

section Twice

variable {pathname : String → Option String}

theorem lastOf_eq {α : Type} {n : Nat} {l : List α} (h : l.length ≤ n) : lastOf n l = l := by
  unfold lastOf
  rw [Nat.sub_eq_zero_of_le h, List.drop_zero]

theorem length_lastOf {α : Type} (n : Nat) (l : List α) : (lastOf n l).length ≤ n := by
  unfold lastOf
  rw [List.length_drop]
  omega

theorem filterMap_fixed {α : Type} {f : α → Option α} {l : List α} (h : ∀ x ∈ l, f x = some x) :
    l.filterMap f = l := by
  rw [List.filterMap_congr h, List.filterMap_some]

theorem safeFrom_safeFrom (least : Int) (n : Option FrameNumber) :
    safeFrom least (safeFrom least n) = safeFrom least n := by
  rcases n with _ | n | _
  · rfl
  · by_cases h : least ≤ n ∧ n ≤ maxSafeInteger
    · simp only [safeFrom, if_pos h]
    · simp only [safeFrom, if_neg h]
  · rfl

/-- A frame of a report is its own frame, whatever the ids. -/
theorem safeFrame_fixed {ids : DebugIds} {frame safe : StackFrame}
    (h : safeFrame pathname ids frame = some safe) (ids' : DebugIds) :
    safeFrame pathname ids' safe = some safe := by
  unfold safeFrame at h
  obtain ⟨file, hfile, rfl⟩ := Option.map_eq_some_iff.1 h
  have hkept : ∀ id, codeFile pathname (some file) id = some file :=
    codeFile_fixed (codeFile_shape hfile)
  unfold safeFrame
  dsimp only
  rw [show (some file <|> some file) = some file from rfl, hkept, Option.map_some,
    safeFrom_safeFrom, safeFrom_safeFrom]

theorem safeType_safeType (type : Option String) :
    safeType (some (safeType type)) = safeType type := by
  have herror : "Error" ∈ types := by simp [types]
  rcases type with _ | type
  · show (if "Error" ∈ types then "Error" else "Error") = "Error"
    exact if_pos herror
  · by_cases h : type ∈ types
    · simp only [safeType, if_pos h]
    · simp only [safeType, if_neg h, if_pos herror]

/-- The frames a report gives an exception. -/
def safeFrames (pathname : String → Option String) (ids : DebugIds) (frames : List StackFrame) :
    List StackFrame :=
  (lastOf 50 frames).filterMap (safeFrame pathname ids)

theorem safeFrames_safeFrames (ids ids' : DebugIds) (frames : List StackFrame) :
    safeFrames pathname ids' (safeFrames pathname ids frames) = safeFrames pathname ids frames := by
  have hlen : (safeFrames pathname ids frames).length ≤ 50 :=
    Nat.le_trans (List.length_filterMap_le _ _) (length_lastOf 50 frames)
  have hfixed : ∀ safe ∈ safeFrames pathname ids frames,
      safeFrame pathname ids' safe = some safe := by
    intro safe hsafe
    obtain ⟨raw, -, hraw⟩ := List.mem_filterMap.1 hsafe
    exact safeFrame_fixed hraw ids'
  rw [safeFrames, lastOf_eq hlen]
  exact filterMap_fixed hfixed

theorem safeException_eq (ids : DebugIds) (e : Exception) :
    safeException pathname ids e =
      ⟨some (safeType e.type), some omitted,
        some ⟨some "generic", some ((e.mechanism.bind (·.handled)) != some false), []⟩,
        some ⟨some (safeFrames pathname ids ((e.stacktrace.bind (·.frames)).getD [])), []⟩, []⟩ :=
  rfl

theorem safeException_fixed (ids ids' : DebugIds) (e : Exception) :
    safeException pathname ids' (safeException pathname ids e) = safeException pathname ids e := by
  have hhandled : ∀ b : Bool, ((some b) != some false) = b := by decide
  rw [safeException_eq ids e, safeException_eq ids']
  dsimp only [Option.bind_some, Option.getD_some]
  rw [safeType_safeType, hhandled, safeFrames_safeFrames]

theorem safeImage_fixed {image safe : DebugImage} (h : safeImage pathname image = some safe) :
    safeImage pathname safe = some safe := by
  unfold safeImage at h
  split at h
  · rename_i file id hfile hid
    rw [Option.ite_none_right_eq_some] at h
    obtain ⟨⟨-, hshape⟩, hsafe⟩ := h
    cases hsafe
    unfold safeImage
    rw [codeFile_fixed (codeFile_shape hfile)]
    exact if_pos ⟨rfl, hshape⟩
  · cases h

/-- A tag the report keeps, if it keeps it. -/
theorem safeTag_cases (tags : Option Fields) (key : String) (allow : List String) :
    safeTag tags key allow = [] ∨ ∃ v ∈ allow, safeTag tags key allow = [(key, .str v)] := by
  unfold safeTag
  split
  · split_ifs with h
    · exact .inr ⟨_, h, rfl⟩
    · exact .inl rfl
  · exact .inl rfl

theorem lookup_safeTag_of_ne (tags : Option Fields) {key key' : String} (h : key' ≠ key)
    (allow : List String) : (safeTag tags key allow).lookup key' = none := by
  have hbeq : (key' == key) = false := beq_eq_false_iff_ne.2 h
  rcases safeTag_cases tags key allow with hn | ⟨v, -, hv⟩
  · rw [hn, List.lookup_nil]
  · rw [hv, List.lookup_cons, hbeq]
    rfl

theorem safeTag_congr {tags : Option Fields} {kept : Fields} {key : String} {allow : List String}
    (h : kept.lookup key = (safeTag tags key allow).lookup key) :
    safeTag (some kept) key allow = safeTag tags key allow := by
  rcases safeTag_cases tags key allow with hn | ⟨v, hv, hs⟩
  · rw [hn, List.lookup_nil] at h
    rw [hn, safeTag, Option.bind_some, h]
  · rw [hs, List.lookup_cons, beq_self_eq_true] at h
    rw [hs, safeTag, Option.bind_some, h]
    exact if_pos hv

theorem safeTags_fixed (tags : Option Fields) :
    safeTags (some (safeTags tags)) = safeTags tags := by
  have hc : (safeTags tags).lookup "component" =
      (safeTag tags "component" components).lookup "component" := by
    simp (disch := decide) only [safeTags, List.lookup_append, lookup_safeTag_of_ne,
      Option.or_none]
  have ho : (safeTags tags).lookup "operation" =
      (safeTag tags "operation" operations).lookup "operation" := by
    simp (disch := decide) only [safeTags, List.lookup_append, lookup_safeTag_of_ne,
      Option.or_none, Option.none_or]
  have hq : (safeTags tags).lookup "queue" = (safeTag tags "queue" queues).lookup "queue" := by
    simp (disch := decide) only [safeTags, List.lookup_append, lookup_safeTag_of_ne,
      Option.or_none, Option.none_or]
  have hr : (safeTags tags).lookup "route" = (safeTag tags "route" routes).lookup "route" := by
    simp (disch := decide) only [safeTags, List.lookup_append, lookup_safeTag_of_ne,
      Option.none_or]
  conv_lhs => rw [safeTags, safeTag_congr hc, safeTag_congr ho, safeTag_congr hq, safeTag_congr hr]
  rfl

theorem choice_choice {p : Prop} [Decidable p] {a b : String} (h : b ≠ a) :
    (if some (if p then a else b) = some a then a else b) = if p then a else b := by
  by_cases hp : p
  · rw [if_pos hp, if_pos rfl]
  · rw [if_neg hp, if_neg fun hba => h (Option.some.inj hba)]

theorem filter_filter {p : String → Bool} (o : Option String) :
    (o.filter p).filter p = o.filter p := by
  rcases o with _ | s
  · rfl
  · by_cases h : p s = true
    · rw [Option.filter_some_pos h, Option.filter_some_pos h]
    · rw [Option.filter_some_neg (by simpa using h), Option.filter_none]

/-- A report's images, listed. -/
theorem list_kept {images : List DebugImage} (h : images.length ≤ 50) :
    DebugMeta.list (if images = [] then none else some ⟨some images, []⟩) = images := by
  unfold DebugMeta.list
  split_ifs with hnil
  · rw [hnil]
    rfl
  · exact List.take_of_length_le h

theorem privateErrorEvent_fixed {event out : Event}
    (h : privateErrorEvent pathname event = some out) :
    privateErrorEvent pathname out = some out := by
  obtain ⟨hvalues, rfl⟩ := privateErrorEvent_eq h
  have himages : DebugMeta.list
      (if (DebugMeta.list event.debug_meta).filterMap (safeImage pathname) = [] then none
        else some ⟨some ((DebugMeta.list event.debug_meta).filterMap (safeImage pathname)), []⟩) =
      (DebugMeta.list event.debug_meta).filterMap (safeImage pathname) :=
    list_kept (Nat.le_trans (List.length_filterMap_le _ _) (List.length_take_le _ _))
  have hfixed : ((DebugMeta.list event.debug_meta).filterMap (safeImage pathname)).filterMap
      (safeImage pathname) = (DebugMeta.list event.debug_meta).filterMap (safeImage pathname) := by
    refine filterMap_fixed fun safe hsafe => ?_
    obtain ⟨raw, -, hraw⟩ := List.mem_filterMap.1 hsafe
    exact safeImage_fixed hraw
  have hexceptions : ∀ (ids ids' : DebugIds) (values : List Exception),
      (lastOf 5 ((lastOf 5 values).map (safeException pathname ids))).map
        (safeException pathname ids') = (lastOf 5 values).map (safeException pathname ids) := by
    intro ids ids' values
    rw [lastOf_eq (by rw [List.length_map]; exact length_lastOf 5 values), List.map_map]
    exact List.map_congr_left fun e _ => safeException_fixed ids ids' e
  have hkept : (lastOf 5 ((event.exception.bind (·.values)).getD [])).map
      (safeException pathname (imageIds (DebugMeta.list event.debug_meta))) ≠ [] := by
    have hpos := List.length_pos_iff.2 hvalues
    intro hnil
    have hlen := congrArg List.length hnil
    rw [List.length_map, lastOf, List.length_drop, List.length_nil] at hlen
    omega
  unfold privateErrorEvent
  dsimp only [Option.bind_some, Option.getD_some]
  rw [if_neg (by simpa using hkept), himages, hfixed, hexceptions, filter_filter, filter_filter,
    choice_choice (by decide), choice_choice (by decide), choice_choice (by decide),
    safeTags_fixed]

/-- An item a report is made of is kept when it holds that report. -/
theorem privateItem_fixed {item : EnvelopeItem} {out : Event}
    (h : privateItem pathname item = some out) :
    privateItem pathname ⟨"event", [], .event out⟩ = some out := by
  obtain ⟨type, rest, payload⟩ := item
  cases payload with
  | other => cases h
  | event event =>
    simp only [privateItem] at h
    split_ifs at h
    obtain ⟨hout, hid⟩ := Option.filter_eq_some_iff.1 h
    simp only [privateItem, ne_eq, not_true_eq_false, if_false, privateErrorEvent_fixed hout]
    exact Option.filter_some_pos hid

/-- What an envelope carries is kept as it is, whenever it is sent. -/
theorem privateEnvelope_fixed {now : String} {envelope sent : Envelope}
    (h : privateEnvelope pathname now envelope = some sent) (now' : String) :
    privateEnvelope pathname now' sent = some { sent with sent_at := some now' } := by
  unfold privateEnvelope at h
  cases hevents : envelope.items.filterMap (privateItem pathname) with
  | nil =>
    rw [hevents] at h
    cases h
  | cons event events =>
    rw [hevents] at h
    cases h
    have hkept : ((event :: events).map fun event : Event =>
        (⟨"event", [], .event event⟩ : EnvelopeItem)).filterMap (privateItem pathname) =
          event :: events := by
      rw [List.filterMap_map]
      refine filterMap_fixed fun out hout => ?_
      rw [← hevents] at hout
      obtain ⟨item, -, hitem⟩ := List.mem_filterMap.1 hout
      exact privateItem_fixed hitem
    unfold privateEnvelope
    dsimp only
    rw [hkept]

end Twice

section Blind

variable {pathname : String → Option String}

def StackFrame.allowlisted (f : StackFrame) : StackFrame :=
  { f with in_app := none, rest := [] }

def Exception.allowlisted (e : Exception) : Exception where
  type := e.type
  value := none
  mechanism := some ⟨none, e.mechanism.bind (·.handled), []⟩
  stacktrace :=
    some ⟨some (((e.stacktrace.bind (·.frames)).getD []).map StackFrame.allowlisted), []⟩
  rest := []

def DebugImage.allowlisted (i : DebugImage) : DebugImage := { i with rest := [] }

/-- The tag under a key. -/
def tagAt (tags : Option Fields) (key : String) : Fields :=
  ((tags.bind (·.lookup key)).map fun value => (key, value)).toList

/-- The part of an event that a report is made of. -/
def Event.allowlisted (e : Event) : Event :=
  { e with
    exception :=
      some ⟨some (((e.exception.bind (·.values)).getD []).map Exception.allowlisted), []⟩
    tags := some (tagAt e.tags "component" ++ tagAt e.tags "operation" ++ tagAt e.tags "queue" ++
      tagAt e.tags "route")
    debug_meta :=
      some ⟨some (((e.debug_meta.bind (·.images)).getD []).map DebugImage.allowlisted), []⟩
    rest := [] }

theorem lookup_tagAt (tags : Option Fields) (key : String) :
    (tagAt tags key).lookup key = tags.bind (·.lookup key) := by
  unfold tagAt
  cases tags.bind (·.lookup key) with
  | none => rfl
  | some value => exact List.lookup_cons_self

theorem lookup_tagAt_of_ne (tags : Option Fields) {key key' : String} (h : key' ≠ key) :
    (tagAt tags key).lookup key' = none := by
  have hbeq : (key' == key) = false := beq_eq_false_iff_ne.2 h
  unfold tagAt
  cases tags.bind (·.lookup key) with
  | none => rfl
  | some value =>
    rw [Option.map_some, Option.toList_some, List.lookup_cons, hbeq]
    rfl

theorem safeTags_allowlisted (e : Event) : safeTags e.allowlisted.tags = safeTags e.tags := by
  have htag : ∀ {kept : Fields} {key : String} {allow : List String},
      kept.lookup key = e.tags.bind (·.lookup key) →
      safeTag (some kept) key allow = safeTag e.tags key allow := fun h => by
    unfold safeTag
    rw [Option.bind_some, h]
  unfold safeTags Event.allowlisted
  dsimp only
  rw [htag, htag, htag, htag] <;>
    simp (disch := decide) only [List.lookup_append, lookup_tagAt, lookup_tagAt_of_ne,
      Option.or_none, Option.none_or]

theorem lastOf_map {α β : Type} (n : Nat) (f : α → β) (l : List α) :
    lastOf n (l.map f) = (lastOf n l).map f := by
  rw [lastOf, List.length_map, lastOf, List.map_drop]

theorem safeException_allowlisted (ids : DebugIds) (e : Exception) :
    safeException pathname ids e.allowlisted = safeException pathname ids e := by
  have hframes : ∀ frames : List StackFrame,
      safeFrames pathname ids (frames.map StackFrame.allowlisted) =
        safeFrames pathname ids frames := fun frames => by
    unfold safeFrames
    rw [lastOf_map, List.filterMap_map]
    rfl
  rw [safeException_eq, safeException_eq, Exception.allowlisted]
  dsimp only [Option.bind_some, Option.getD_some]
  rw [hframes]

theorem list_allowlisted (e : Event) : DebugMeta.list e.allowlisted.debug_meta =
    (DebugMeta.list e.debug_meta).map DebugImage.allowlisted := by
  unfold DebugMeta.list Event.allowlisted
  dsimp only [Option.bind_some, Option.getD_some]
  rw [List.map_take]

theorem privateErrorEvent_allowlisted (e : Event) :
    privateErrorEvent pathname e.allowlisted = privateErrorEvent pathname e := by
  have hids : ∀ images : List DebugImage,
      imageIds (images.map DebugImage.allowlisted) = imageIds images := fun images => by
    unfold imageIds
    rw [List.filterMap_map]
    rfl
  have himages : ∀ images : List DebugImage,
      (images.map DebugImage.allowlisted).filterMap (safeImage pathname) =
        images.filterMap (safeImage pathname) := fun images => by
    rw [List.filterMap_map]
    rfl
  have hexceptions : ∀ (ids : DebugIds) (values : List Exception),
      (lastOf 5 (values.map Exception.allowlisted)).map (safeException pathname ids) =
        (lastOf 5 values).map (safeException pathname ids) := fun ids values => by
    rw [lastOf_map, List.map_map]
    exact List.map_congr_left fun e _ => safeException_allowlisted ids e
  unfold privateErrorEvent
  rw [list_allowlisted, safeTags_allowlisted, hids, himages]
  dsimp only [Event.allowlisted, Option.bind_some, Option.getD_some]
  rw [hexceptions]
  have hnone : (e.type ≠ none ∨
      ((e.exception.bind (·.values)).getD []).map Exception.allowlisted = []) ↔
        (e.type ≠ none ∨ (e.exception.bind (·.values)).getD [] = []) :=
    or_congr Iff.rfl List.map_eq_nil_iff
  exact if_congr hnone rfl rfl

/-- A report holds no text but the policy's, says the same of events that differ only in what the
policy leaves out, and is its own report. -/
theorem privateErrorEvent_private (pathname : String → Option String) {event event' : Event}
    (h : event.allowlisted = event'.allowlisted) :
    privateErrorEvent pathname event = privateErrorEvent pathname event' ∧
      (∀ out, privateErrorEvent pathname event = some out →
        (∀ s ∈ out.strings, Allowed s) ∧ privateErrorEvent pathname out = some out) ∧
      ∀ now envelope sent, privateEnvelope pathname now envelope = some sent →
        ∀ now', privateEnvelope pathname now' sent = some { sent with sent_at := some now' } := by
  refine ⟨?_, fun out hout => ⟨private_allowed hout, privateErrorEvent_fixed hout⟩,
    fun now envelope sent hsent now' => privateEnvelope_fixed hsent now'⟩
  rw [← privateErrorEvent_allowlisted event, h, privateErrorEvent_allowlisted]

/-- Two crashes of the worker that tell of different buyers. -/
def crash (message : String) (user : JsonValue String) : Event where
  type := none
  platform := some "node"
  event_id := some "0123456789abcdef0123456789abcdef"
  release := none
  environment := some "production"
  level := some "fatal"
  exception := some ⟨some [⟨some "TypeError", some message, some ⟨some message, some false, []⟩,
    some ⟨some [⟨some "/app/dist/worker.mjs", none, some (.whole 12), some .other, none,
      [("vars", user)]⟩], []⟩, [("module", .str message)]⟩], []⟩
  tags := some [("component", .str "worker"), ("buyer", .str message)]
  debug_meta := none
  rest := [("user", user), ("message", .str message)]

theorem crash_private :
    privateErrorEvent some (crash "Karim" (.str "karim@example.com")) =
        privateErrorEvent some (crash "Rahim" .null) ∧
      ∃ out, privateErrorEvent some (crash "Karim" (.str "karim@example.com")) = some out ∧
        (∀ s ∈ out.strings, Allowed s) ∧ privateErrorEvent some out = some out := by
  have h := privateErrorEvent_private some
    (show (crash "Karim" (.str "karim@example.com")).allowlisted =
      (crash "Rahim" .null).allowlisted from rfl)
  exact ⟨h.1, _, rfl, h.2.1 _ rfl⟩

end Blind

end ErrorTracking

end EchoAndAura
