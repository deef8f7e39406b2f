import EchoAndAura.RestoreDrill

/-!
# The restore drill fails closed

What a text gives for a key is read off its lines one by one (`given`), and the report holds the
first of it and no repetition (`value_parseReport`, `duplicates_parseReport`).  A run passes exactly
when the text gives what a restored backup gives and the last audit time is one a `Date` holds
(`passes_iff`).
-/

namespace EchoAndAura

namespace RestoreDrill

section Given

/-- What a line gives for a key. -/
def lineValue (key : String) (line : List Char) : Option String :=
  (keyValue line).bind fun kv => if kv.1 = key then some kv.2 else none

/-- What the lines of a text give for a key, in order. -/
def given (stdout key : String) : List String :=
  (splitAt '\n' stdout.toList).filterMap (lineValue key)

/-- The keys the report has a value for: every line's but an error's and the one a plain object does
not take. -/
def Plain (key : String) : Prop := key ≠ "restore_error" ∧ key ≠ "__proto__"

instance (key : String) : Decidable (Plain key) := inferInstanceAs (Decidable (_ ∧ _))

variable {key : String} {report : Report} {line : List Char}

theorem value_parseLine (hkey : Plain key) :
    (report.parseLine line).value key = (report.value key).or (lineValue key line) := by
  unfold Report.parseLine lineValue
  cases hline : keyValue line with
  | none => simp
  | some kv =>
    obtain ⟨k, v⟩ := kv
    dsimp only [Option.bind_some]
    split_ifs with herror hkk hset hkk hproto hkk hkk
    · exact absurd (hkk.symm.trans herror) hkey.1
    · exact (Option.or_none).symm
    · subst hkk
      obtain ⟨w, hw⟩ := Option.isSome_iff_exists.1 hset
      have hv : report.value k = some w := hw
      show report.value k = _
      rw [hv]
      rfl
    · exact (Option.or_none).symm
    · exact absurd (hkk.symm.trans hproto) hkey.2
    · exact (Option.or_none).symm
    · subst hkk
      unfold Report.value
      rw [List.lookup_append]
      simp
    · unfold Report.value
      rw [List.lookup_append]
      have hne : (key == k) = false := by simpa using Ne.symm hkk
      simp [List.lookup_cons, hne]

theorem value_foldl (hkey : Plain key) : ∀ (lines : List (List Char)) (report : Report),
    (lines.foldl Report.parseLine report).value key =
      (report.value key).or (lines.filterMap (lineValue key)).head?
  | [], report => by simp
  | line :: lines, report => by
    have ih := value_foldl hkey lines (report.parseLine line)
    rw [List.foldl_cons, ih, value_parseLine hkey, Option.or_assoc, List.filterMap_cons]
    cases lineValue key line <;> rfl

theorem value_parseReport (hkey : Plain key) (stdout : String) (exit : Option Int) :
    (parseReport stdout exit).value key = (given stdout key).head? := by
  unfold parseReport given
  rw [value_foldl hkey]
  rfl

theorem exit_foldl : ∀ (lines : List (List Char)) (report : Report),
    (lines.foldl Report.parseLine report).exit = report.exit
  | [], _ => rfl
  | line :: lines, report => by
    rw [List.foldl_cons, exit_foldl lines]
    unfold Report.parseLine
    split
    · rfl
    · split_ifs <;> rfl

theorem exit_parseReport (stdout : String) (exit : Option Int) :
    (parseReport stdout exit).exit = exit := exit_foldl _ _

/-- A plain object never has a `__proto__` of its own. -/
theorem proto_parseLine (h : report.value "__proto__" = none) :
    (report.parseLine line).value "__proto__" = none := by
  unfold Report.parseLine
  split
  · exact h
  · rename_i k v hline
    split_ifs with herror hset hproto
    · exact h
    · exact h
    · exact h
    · unfold Report.value at h ⊢
      have hne : ("__proto__" == k) = false := by simpa using Ne.symm hproto
      rw [List.lookup_append, h]
      simp [List.lookup_cons, hne]

/-- How often a key has a value, in the report and in the lines still to come. -/
def held (report : Report) (lines : List (List Char)) (key : String) : Nat :=
  (report.value key).toList.length + (lines.filterMap (lineValue key)).length

theorem held_cons (report : Report) (line : List Char) (lines : List (List Char)) (key : String) :
    held report (line :: lines) key =
      held report lines key + (lineValue key line).toList.length := by
  unfold held
  rw [List.filterMap_cons]
  cases lineValue key line with
  | none => rfl
  | some v => simp [Nat.add_assoc]

/-- A line moves its value into the report, unless the report has one. -/
theorem held_parseLine (hkey : Plain key) (lines : List (List Char)) :
    held (report.parseLine line) lines key =
      if report.value key = none then held report (line :: lines) key
      else held report lines key := by
  unfold held
  rw [value_parseLine hkey, List.filterMap_cons]
  cases report.value key <;> cases lineValue key line <;> simp [Nat.add_comm]

theorem duplicates_parseLine (hproto : report.value "__proto__" = none) :
    (report.parseLine line).duplicates = [] ↔ report.duplicates = [] ∧
      ∀ key, Plain key → report.value key ≠ none → lineValue key line = none := by
  unfold Report.parseLine lineValue
  cases hline : keyValue line with
  | none => simp
  | some kv =>
    obtain ⟨k, v⟩ := kv
    dsimp only [Option.bind_some]
    split_ifs with herror hset hk
    · refine (and_iff_left fun key hkey _ => ?_).symm
      rw [if_neg]
      exact fun hkk => hkey.1 (hkk.symm.trans herror)
    · refine iff_of_false (by simp) fun h => ?_
      have hne : report.value k ≠ none := Option.isSome_iff_ne_none.1 hset
      have hnone := h.2 k ⟨herror, fun hp => hne (hp ▸ hproto)⟩ hne
      simp at hnone
    · refine (and_iff_left fun key hkey _ => ?_).symm
      rw [if_neg]
      exact fun hkk => hkey.2 (hkk.symm.trans hk)
    · refine (and_iff_left fun key hkey hne => ?_).symm
      rw [if_neg]
      rintro rfl
      exact hset (Option.isSome_iff_ne_none.2 hne)

theorem duplicates_foldl : ∀ (lines : List (List Char)) (report : Report),
    report.value "__proto__" = none →
    ((lines.foldl Report.parseLine report).duplicates = [] ↔
      report.duplicates = [] ∧ ∀ key, Plain key → held report lines key ≤ 1)
  | [], report, _ => by
    refine (and_iff_left fun key _ => ?_).symm
    unfold held
    cases report.value key <;> simp
  | line :: lines, report, hproto => by
    rw [List.foldl_cons, duplicates_foldl lines _ (proto_parseLine hproto),
      duplicates_parseLine hproto]
    constructor
    · rintro ⟨⟨hnil, hline⟩, hheld⟩
      refine ⟨hnil, fun key hkey => ?_⟩
      have h := hheld key hkey
      rw [held_parseLine hkey] at h
      split_ifs at h with hnone
      · exact h
      · rw [held_cons, hline key hkey hnone]
        exact h
    · rintro ⟨hnil, hheld⟩
      refine ⟨⟨hnil, fun key hkey hsome => ?_⟩, fun key hkey => ?_⟩
      · have h := hheld key hkey
        rw [held_cons] at h
        cases hl : lineValue key line with
        | none => rfl
        | some v =>
          rw [hl] at h
          obtain ⟨w, hw⟩ := Option.ne_none_iff_exists'.1 hsome
          unfold held at h
          rw [hw] at h
          simp at h
      · have h := hheld key hkey
        rw [held_parseLine hkey]
        split_ifs
        · exact h
        · rw [held_cons] at h
          omega

theorem duplicates_parseReport (stdout : String) (exit : Option Int) :
    (parseReport stdout exit).duplicates = [] ↔
      ∀ key, Plain key → (given stdout key).length ≤ 1 := by
  unfold parseReport
  rw [duplicates_foldl _ _ rfl]
  constructor
  · intro h key hkey
    have hheld := h.2 key hkey
    unfold held at hheld
    exact (Nat.le_add_left _ _).trans hheld
  · refine fun h => ⟨rfl, fun key hkey => ?_⟩
    unfold held
    have hle := h key hkey
    unfold given at hle
    simpa [Report.value] using hle

/-- With nothing repeated, the report's value is all the text gives. -/
theorem given_eq_singleton {stdout : String} {exit : Option Int}
    (h : ∀ key, Plain key → (given stdout key).length ≤ 1) {key : String} (hkey : Plain key)
    {value : String} :
    (parseReport stdout exit).value key = some value ↔ given stdout key = [value] := by
  rw [value_parseReport hkey]
  have hle := h key hkey
  cases hg : given stdout key with
  | nil => simp
  | cons v vs =>
    rw [hg, List.length_cons] at hle
    have hnil : vs = [] := List.eq_nil_of_length_eq_zero (by omega)
    simp [hnil]

end Given

section Results

variable {formats : Formats} {report : Report}

theorem pass_ok {name detail : String} : (pass name detail).ok = some true := rfl
theorem fail_ok {name detail : String} : (fail name detail).ok ≠ some true := by simp [fail]
theorem skip_ok {name detail : String} : (skip name detail).ok ≠ some true := by simp [skip]

theorem freshResult_ok {backup : Backup} {now : Time} :
    (freshResult formats backup now).ok = some true ↔
      now - backup.lastModified ≤ maxAgeHours * 3600000 := by
  unfold freshResult
  split_ifs with h
  · exact iff_of_true pass_ok h
  · exact iff_of_false fail_ok h

theorem downloadResult_ok {backup : Backup} {bytes : Nat} :
    (downloadResult backup bytes).ok = some true ↔ backup.size = .whole bytes := by
  unfold downloadResult
  split_ifs with h
  · exact iff_of_true pass_ok h.symm
  · exact iff_of_false fail_ok (Ne.symm h)

theorem missingTables_eq_nil : missingTables report = [] ↔
    ∀ t ∈ tables report "tables_live", t ∈ tables report "tables_backup" := by
  simp [missingTables, List.filter_eq_nil_iff]

theorem extraTables_eq_nil : extraTables report = [] ↔
    ∀ t ∈ tables report "tables_backup", t ∈ tables report "tables_live" := by
  simp [extraTables, List.filter_eq_nil_iff]

theorem tablesResult_ok : (tablesResult report).ok = some true ↔
    tables report "tables_live" ≠ [] ∧
      ∀ t, t ∈ tables report "tables_backup" ↔ t ∈ tables report "tables_live" := by
  have hnil : (∀ t, t ∈ tables report "tables_backup" ↔ t ∈ tables report "tables_live") ↔
      missingTables report = [] ∧ extraTables report = [] := by
    rw [missingTables_eq_nil, extraTables_eq_nil]
    exact ⟨fun h => ⟨fun t => (h t).2, fun t => (h t).1⟩, fun h t => ⟨h.2 t, h.1 t⟩⟩
  rw [hnil]
  unfold tablesResult
  split_ifs with hlive hsame hahead
  · exact iff_of_false fail_ok fun h => h.1 hlive
  · exact iff_of_true pass_ok ⟨hlive, hsame⟩
  · exact iff_of_false skip_ok fun h => hsame h.2
  · exact iff_of_false fail_ok fun h => hsame h.2

theorem migrationsResult_ok : (migrationsResult formats report).ok = some true ↔
    migrationsRead report = true ∧
      report.value "migrations_backup" = report.value "migrations_live" := by
  unfold migrationsResult
  split_ifs with hread hsame hahead
  · exact iff_of_false fail_ok fun h => by simp [h.1] at hread
  · exact iff_of_true pass_ok ⟨by simpa using hread, hsame⟩
  · exact iff_of_false skip_ok fun h => hsame h.2
  · exact iff_of_false fail_ok fun h => hsame h.2

theorem schemaResult_ok : (schemaResult report).ok = some true ↔
    liveAhead report = false ∧ isMd5 (chars report "schema_backup") = true ∧
      report.value "schema_backup" = report.value "schema_live" := by
  unfold schemaResult
  split_ifs with hahead hsame
  · exact iff_of_false skip_ok fun h => by simp [h.1] at hahead
  · exact iff_of_true pass_ok ⟨by simpa using hahead, hsame⟩
  · exact iff_of_false fail_ok fun h => hsame h.2

theorem rowsResult_ok {cutoff table : String} : (rowsResult report cutoff table).ok = some true ↔
    ∃ n, report.value ("rows_" ++ table ++ "_backup") = some n ∧
      report.value ("rows_" ++ table ++ "_live") = some n ∧ isCount n.toList = true := by
  unfold rowsResult
  dsimp only
  split_ifs with h
  · refine iff_of_true pass_ok ?_
    obtain ⟨n, hn, hcount⟩ := (Option.any_eq_true _ _).1 h.1
    exact ⟨n, hn, h.2.symm.trans hn, hcount⟩
  · refine iff_of_false fail_ok ?_
    rintro ⟨n, hbackup, hlive, hcount⟩
    exact h ⟨by rw [hbackup]; exact hcount, hbackup.trans hlive.symm⟩

theorem upToDateResult_ok {cutoff : String} :
    (upToDateResult report cutoff).ok = some true ↔ report.value "tail_live" = some "0" := by
  unfold upToDateResult
  split_ifs with h
  · exact iff_of_true pass_ok h
  · exact iff_of_false fail_ok h

theorem grantsResult_ok :
    (grantsResult report).ok = some true ↔ isGrants (chars report "grants") = true := by
  unfold grantsResult
  split_ifs with h
  · exact iff_of_true pass_ok h
  · exact iff_of_false fail_ok h

theorem writable_eq_nil {s key : String} :
    writable report s key = [] ↔ report.value key = some "0" := by
  unfold writable
  split_ifs with h
  · exact iff_of_true rfl h
  · exact iff_of_false (by simp) h

theorem appendOnlyResult_ok : (appendOnlyResult report).ok = some true ↔
    report.value "audit_writable_backup" = some "0" ∧
      report.value "audit_writable_live" = some "0" := by
  rw [← writable_eq_nil (s := "copy "), ← writable_eq_nil (s := "live "),
    ← List.append_eq_nil_iff]
  unfold appendOnlyResult
  dsimp only
  split_ifs with h
  · exact iff_of_false fail_ok h
  · exact iff_of_true pass_ok (by simpa using h)

theorem completedResult_ok : (completedResult report).ok = some true ↔
    report.value "done" = some "ok" ∧ report.exit = some 0 := by
  unfold completedResult
  split_ifs with h
  · exact iff_of_true pass_ok h
  · exact iff_of_false fail_ok h

end Results

section Drill

variable (formats : Formats)

/-- What a text gives of a backup that can be restored. -/
structure Restorable (stdout : String) (exit : Option Int) (bytes : Nat) (backup : Option Backup)
    (now : Time) : Prop where
  restored : given stdout "restore" = ["ok"]
  completed : given stdout "done" = ["ok"] ∧ exit = some 0
  tables : ∃ b l, given stdout "tables_backup" = [b] ∧ given stdout "tables_live" = [l] ∧
    tableNames l.toList ≠ [] ∧ ∀ t, t ∈ tableNames b.toList ↔ t ∈ tableNames l.toList
  migrations : ∃ m, given stdout "migrations_backup" = [m] ∧ given stdout "migrations_live" = [m] ∧
    isMigrations m.toList = true
  schema : ∃ h, given stdout "schema_backup" = [h] ∧ given stdout "schema_live" = [h] ∧
    isMd5 h.toList = true
  rows : ∀ table ∈ appendOnlyCounts, ∃ n, given stdout ("rows_" ++ table ++ "_backup") = [n] ∧
    given stdout ("rows_" ++ table ++ "_live") = [n] ∧ isCount n.toList = true
  upToDate : given stdout "tail_live" = ["0"]
  grants : ∃ g, given stdout "grants" = [g] ∧ isGrants g.toList = true
  appendOnly : given stdout "audit_writable_backup" = ["0"] ∧
    given stdout "audit_writable_live" = ["0"]
  fresh : ∀ b, backup = some b → now - b.lastModified ≤ maxAgeHours * 3600000
  streamed : ∀ b, backup = some b → b.size = .whole bytes

/-- Nothing stands against the run, and every check passes. -/
def Passes (stdout : String) (exit : Option Int) (bytes : Nat) (backup : Option Backup) (now : Time)
    (run : Feed) : Prop :=
  runError (parseReport stdout exit) run = none ∧
    ∃ results, evaluate formats (parseReport stdout exit) backup bytes now = .ok results ∧
      ∀ r ∈ results, r.ok = some true

def NoneRepeated (stdout : String) : Prop := ∀ key, Plain key → (given stdout key).length ≤ 1

/-- The dump's source ended, and without an error. -/
def Feed.Ended (run : Feed) : Prop :=
  run.input = none ∧ (run.source = none ∨ run.source = some (some 0))

/-- A last audit time that no `Date` holds. -/
def BeyondDate (stdout : String) : Prop :=
  ∃ us, given stdout "cutoff_us" = [us] ∧ isCount us.toList = true ∧
    dateMax < toDouble (digitsValue us.toList)

variable {formats : Formats} {report : Report} {backup : Option Backup} {bytes : Nat} {now : Time}

theorem cutoffText_ok {us : Option String} : (∃ cutoff, cutoffText formats us = .ok cutoff) ↔
    ∀ t, us = some t → isCount t.toList = true → ¬ dateMax < toDouble (digitsValue t.toList) := by
  unfold cutoffText
  cases us with
  | none => simp
  | some t =>
    dsimp only
    split_ifs with hcount hzero hmax
    · refine iff_of_true ⟨_, rfl⟩ fun t' ht' hc => ?_
      cases ht'
      simp [hc] at hcount
    · refine iff_of_true ⟨_, rfl⟩ fun t' ht' _ => ?_
      cases ht'
      rw [hzero]
      decide +kernel
    · refine iff_of_false (by simp) fun h => h t rfl (by simpa using hcount) hmax
    · refine iff_of_true ⟨_, rfl⟩ fun t' ht' _ => ?_
      cases ht'
      exact hmax

theorem liveAhead_of_same (h : report.value "migrations_backup" = report.value "migrations_live") :
    liveAhead report = false := by
  have hchars : chars report "migrations_backup" = chars report "migrations_live" := by
    unfold chars
    rw [h]
  unfold liveAhead migrations
  rw [hchars]
  simp

/-- What the report's values are when every check passes. -/
structure Judged (report : Report) (backup : Option Backup) (bytes : Nat) (now : Time) : Prop where
  restored : report.value "restore" = some "ok"
  completed : report.value "done" = some "ok" ∧ report.exit = some 0
  tables : tables report "tables_live" ≠ [] ∧
    ∀ t, t ∈ tables report "tables_backup" ↔ t ∈ tables report "tables_live"
  migrations : migrationsRead report = true ∧
    report.value "migrations_backup" = report.value "migrations_live"
  schema : isMd5 (chars report "schema_backup") = true ∧
    report.value "schema_backup" = report.value "schema_live"
  rows : ∀ table ∈ appendOnlyCounts, ∃ n, report.value ("rows_" ++ table ++ "_backup") = some n ∧
    report.value ("rows_" ++ table ++ "_live") = some n ∧ isCount n.toList = true
  upToDate : report.value "tail_live" = some "0"
  grants : isGrants (chars report "grants") = true
  appendOnly : report.value "audit_writable_backup" = some "0" ∧
    report.value "audit_writable_live" = some "0"
  fresh : ∀ b, backup = some b → now - b.lastModified ≤ maxAgeHours * 3600000
  streamed : ∀ b, backup = some b → b.size = .whole bytes

theorem evaluate_passes : (∃ results, evaluate formats report backup bytes now = .ok results ∧
    ∀ r ∈ results, r.ok = some true) ↔
      Judged report backup bytes now ∧
        ∃ cutoff, cutoffText formats (report.value "cutoff_us") = .ok cutoff := by
  unfold evaluate
  dsimp only
  by_cases hrestore : report.value "restore" = some "ok"
  · rw [if_neg (not_not_intro hrestore)]
    cases hcutoff : cutoffText formats (report.value "cutoff_us") with
    | error message =>
      refine iff_of_false ?_ (by simp)
      rintro ⟨results, h, -⟩
      cases h
    | ok cutoff =>
      constructor
      · rintro ⟨results, h, hall⟩
        cases h
        simp only [List.forall_mem_append, List.forall_mem_map, List.forall_mem_cons,
          Option.mem_toList, Option.map_eq_some_iff, forall_exists_index, and_imp,
          forall_apply_eq_imp_iff₂, freshResult_ok, downloadResult_ok, tablesResult_ok,
          migrationsResult_ok, schemaResult_ok, rowsResult_ok, upToDateResult_ok, grantsResult_ok,
          appendOnlyResult_ok, completedResult_ok] at hall
        obtain ⟨⟨⟨⟨hfresh, hstreamed⟩, -, htables, hmigrations, hschema, -⟩, hrows⟩,
          htail, hgrants, hwritable, hdone, -⟩ := hall
        exact ⟨⟨hrestore, hdone, htables, hmigrations, hschema.2, hrows, htail, hgrants, hwritable,
          hfresh, hstreamed⟩, cutoff, rfl⟩
      · rintro ⟨hj, -⟩
        refine ⟨_, rfl, ?_⟩
        simp only [List.forall_mem_append, List.forall_mem_map, List.forall_mem_cons,
          Option.mem_toList, Option.map_eq_some_iff, forall_exists_index, and_imp,
          forall_apply_eq_imp_iff₂, freshResult_ok, downloadResult_ok, tablesResult_ok,
          migrationsResult_ok, schemaResult_ok, rowsResult_ok, upToDateResult_ok, grantsResult_ok,
          appendOnlyResult_ok, completedResult_ok]
        exact ⟨⟨⟨⟨hj.fresh, hj.streamed⟩, pass_ok, hj.tables, hj.migrations,
          ⟨liveAhead_of_same hj.migrations.2, hj.schema⟩, by simp⟩, hj.rows⟩,
          hj.upToDate, hj.grants, hj.appendOnly, hj.completed, by simp⟩
  · rw [if_pos hrestore]
    refine iff_of_false ?_ fun h => hrestore h.1.restored
    rintro ⟨results, h, hall⟩
    cases h
    exact fail_ok (hall (restoresFailed formats report) (by simp))

/-- A value whose characters are not the empty text's is there. -/
theorem value_of_chars {key : String} {p : List Char → Prop} (hnil : ¬ p [])
    (h : p (chars report key)) : ∃ s, report.value key = some s ∧ p s.toList := by
  unfold chars at h
  cases hv : report.value key with
  | none =>
    rw [hv] at h
    exact absurd h hnil
  | some s =>
    rw [hv] at h
    exact ⟨s, rfl, h⟩

theorem chars_of_value {key s : String} (h : report.value key = some s) :
    chars report key = s.toList := by
  unfold chars
  rw [h]
  rfl

theorem tableNames_nil : tableNames [] = [] := rfl

theorem plain_rows (table side : String) : Plain ("rows_" ++ table ++ side) := by
  constructor
  · intro h
    have hl := congrArg (fun s => s.toList[1]?) h
    simp at hl
  · intro h
    have hl := congrArg (fun s => s.toList[0]?) h
    simp at hl

/-- The values of the report, told by the text alone. -/
theorem judged_iff {stdout : String} {exit : Option Int} (hone : NoneRepeated stdout) :
    Judged (parseReport stdout exit) backup bytes now ↔
      Restorable stdout exit bytes backup now := by
  have hv : ∀ {key value : String}, Plain key →
      ((parseReport stdout exit).value key = some value ↔ given stdout key = [value]) :=
    fun hkey => given_eq_singleton hone hkey
  have hexit := exit_parseReport stdout exit
  constructor
  · intro h
    refine ⟨(hv (by decide)).1 h.restored, ⟨(hv (by decide)).1 h.completed.1,
      hexit ▸ h.completed.2⟩, ?_, ?_, ?_, fun table ht => ?_, (hv (by decide)).1 h.upToDate, ?_,
      ⟨(hv (by decide)).1 h.appendOnly.1, (hv (by decide)).1 h.appendOnly.2⟩, h.fresh, h.streamed⟩
    · obtain ⟨l, hl, hlive⟩ := value_of_chars (p := fun s => tableNames s ≠ [])
        (not_not_intro tableNames_nil) h.tables.1
      have hbackup : tables (parseReport stdout exit) "tables_backup" ≠ [] := by
        obtain ⟨t, ht⟩ := List.exists_mem_of_ne_nil _ h.tables.1
        exact List.ne_nil_of_mem ((h.tables.2 t).2 ht)
      obtain ⟨b, hb, -⟩ := value_of_chars (p := fun s => tableNames s ≠ [])
        (not_not_intro tableNames_nil) hbackup
      have hsame := h.tables.2
      unfold tables at hsame
      rw [chars_of_value hb, chars_of_value hl] at hsame
      exact ⟨b, l, (hv (by decide)).1 hb, (hv (by decide)).1 hl, hlive, hsame⟩
    · have hread := h.migrations.1
      unfold migrationsRead at hread
      rw [Bool.and_eq_true] at hread
      obtain ⟨m, hm, hshape⟩ := value_of_chars (p := fun s => isMigrations s = true) (by decide)
        hread.1
      exact ⟨m, (hv (by decide)).1 hm, (hv (by decide)).1 (h.migrations.2 ▸ hm), hshape⟩
    · obtain ⟨d, hd, hshape⟩ := value_of_chars (p := fun s => isMd5 s = true) (by decide) h.schema.1
      exact ⟨d, (hv (by decide)).1 hd, (hv (by decide)).1 (h.schema.2 ▸ hd), hshape⟩
    · obtain ⟨n, hb, hl, hn⟩ := h.rows table ht
      exact ⟨n, (hv (plain_rows _ _)).1 hb, (hv (plain_rows _ _)).1 hl, hn⟩
    · obtain ⟨g, hg, hshape⟩ := value_of_chars (p := fun s => isGrants s = true) (by decide)
        h.grants
      exact ⟨g, (hv (by decide)).1 hg, hshape⟩
  · intro h
    obtain ⟨b, l, hb, hl, hlive, hsame⟩ := h.tables
    obtain ⟨m, hmb, hml, hm⟩ := h.migrations
    obtain ⟨d, hdb, hdl, hd⟩ := h.schema
    obtain ⟨g, hg, hgrants⟩ := h.grants
    have hb' := (hv (by decide)).2 hb
    have hl' := (hv (by decide)).2 hl
    have hmb' := (hv (by decide)).2 hmb
    have hml' := (hv (by decide)).2 hml
    have hdb' := (hv (by decide)).2 hdb
    have hdl' := (hv (by decide)).2 hdl
    refine ⟨(hv (by decide)).2 h.restored, ⟨(hv (by decide)).2 h.completed.1,
      hexit.trans h.completed.2⟩, ?_, ?_, ?_, fun table ht => ?_, (hv (by decide)).2 h.upToDate, ?_,
      ⟨(hv (by decide)).2 h.appendOnly.1, (hv (by decide)).2 h.appendOnly.2⟩, h.fresh, h.streamed⟩
    · unfold tables
      rw [chars_of_value hb', chars_of_value hl']
      exact ⟨hlive, hsame⟩
    · unfold migrationsRead
      rw [chars_of_value hmb', chars_of_value hml', hm]
      exact ⟨rfl, hmb'.trans hml'.symm⟩
    · rw [chars_of_value hdb']
      exact ⟨hd, hdb'.trans hdl'.symm⟩
    · obtain ⟨n, hb, hl, hn⟩ := h.rows table ht
      exact ⟨n, (hv (plain_rows _ _)).2 hb, (hv (plain_rows _ _)).2 hl, hn⟩
    · rw [chars_of_value ((hv (by decide)).2 hg)]
      exact hgrants

theorem runError_none {run : Feed} (hrestore : report.value "restore" = some "ok") :
    runError report run = none ↔ report.duplicates = [] ∧ run.Ended := by
  obtain ⟨source, input⟩ := run
  unfold runError Feed.Ended
  cases input with
  | some message => simp
  | none =>
    dsimp only
    rw [hrestore]
    split_ifs with hdup hstop hsource
    · simp [hdup]
    · simp at hstop
    · refine iff_of_false (by simp) fun h => ?_
      rcases h.2.2 with hs | hs
      · exact hsource.1 hs
      · exact hsource.2.1 hs
    · refine iff_of_true rfl ⟨not_not.1 hdup, rfl, ?_⟩
      by_contra hno
      exact hsource ⟨fun hs => hno (.inl hs), fun hs => hno (.inr hs), rfl⟩

/-- A run passes exactly when its text gives what a restored backup gives, with nothing repeated,
its source ended and its last audit time is one a `Date` holds. -/
theorem passes_iff {stdout : String} {exit : Option Int} {run : Feed} :
    Passes formats stdout exit bytes backup now run ↔
      Restorable stdout exit bytes backup now ∧ NoneRepeated stdout ∧ run.Ended ∧
        ¬ BeyondDate stdout := by
  have hcutoff : NoneRepeated stdout →
      ((∃ cutoff, cutoffText formats ((parseReport stdout exit).value "cutoff_us") = .ok cutoff) ↔
        ¬ BeyondDate stdout) := fun hone => by
    rw [cutoffText_ok]
    constructor
    · rintro h ⟨us, hus, hcount, hmax⟩
      exact h us ((given_eq_singleton hone (by decide)).2 hus) hcount hmax
    · exact fun h t ht hcount hmax =>
        h ⟨t, (given_eq_singleton hone (by decide)).1 ht, hcount, hmax⟩
  unfold Passes
  rw [evaluate_passes]
  constructor
  · rintro ⟨herror, hj, hc⟩
    obtain ⟨hdup, hended⟩ := (runError_none hj.restored).1 herror
    have hone : NoneRepeated stdout := (duplicates_parseReport stdout exit).1 hdup
    exact ⟨(judged_iff hone).1 hj, hone, hended, (hcutoff hone).1 hc⟩
  · rintro ⟨hr, hone, hended, hdate⟩
    have hj : Judged (parseReport stdout exit) backup bytes now := (judged_iff hone).2 hr
    exact ⟨(runError_none hj.restored).2 ⟨(duplicates_parseReport stdout exit).2 hone, hended⟩, hj,
      (hcutoff hone).2 hdate⟩

/-- The drill passes only what can be restored, and all of it. -/
def FailsClosed (formats : Formats) (stdout : String) (exit : Option Int) (bytes : Nat)
    (backup : Option Backup) (now : Time) (run : Feed) : Prop :=
  (Passes formats stdout exit bytes backup now run → Restorable stdout exit bytes backup now) ∧
    (Restorable stdout exit bytes backup now → NoneRepeated stdout → run.Ended →
      Passes formats stdout exit bytes backup now run)

theorem failsClosed_iff (formats : Formats) (stdout : String) (exit : Option Int) (bytes : Nat)
    (backup : Option Backup) (now : Time) (run : Feed) :
    FailsClosed formats stdout exit bytes backup now run ↔
      (BeyondDate stdout → ¬ (Restorable stdout exit bytes backup now ∧ NoneRepeated stdout ∧
        run.Ended)) := by
  unfold FailsClosed
  rw [passes_iff]
  constructor
  · rintro ⟨-, h⟩ hdate ⟨hr, hone, hended⟩
    exact (h hr hone hended).2.2.2 hdate
  · exact fun h => ⟨fun hp => hp.1, fun hr hone hended =>
      ⟨hr, hone, hended, fun hdate => h hdate ⟨hr, hone, hended⟩⟩⟩

end Drill

section Printed

/-- The lines of some keys and values. -/
def printed : List (String × String) → List Char
  | [] => []
  | kv :: values => kv.1.toList ++ '=' :: kv.2.toList ++ '\n' :: printed values

def Printable (kv : String × String) : Bool :=
  !kv.1.toList.isEmpty && kv.1.toList.all (fun c => c != '=' && c != '\n') &&
    kv.2.toList.all fun c => !isControlOrFormat c

theorem splitAt_append {sep : Char} {rest : List Char} : ∀ {line : List Char}, sep ∉ line →
    splitAt sep (line ++ sep :: rest) = line :: splitAt sep rest
  | [], _ => by simp [splitAt]
  | c :: line, h => by
    have hc : c ≠ sep := fun hc => h (hc ▸ List.mem_cons_self)
    have ih : splitAt sep (line ++ sep :: rest) = line :: splitAt sep rest :=
      splitAt_append fun hm => h (List.mem_cons_of_mem c hm)
    simp only [List.cons_append, splitAt, if_neg hc, ih]

theorem keyValue_line {key value : List Char} (hnil : key ≠ []) (hkey : '=' ∉ key)
    (hvalue : ∀ c ∈ value, isControlOrFormat c = false) :
    keyValue (key ++ '=' :: value) = some (String.ofList key, String.ofList value) := by
  have hmem : ∀ c ∈ key, decide (c ≠ '=') = true := fun c hc =>
    decide_eq_true fun h => hkey (h ▸ hc)
  have hfilter : value.filter (fun c => !isControlOrFormat c) = value :=
    List.filter_eq_self.2 fun c hc => by simp [hvalue c hc]
  unfold keyValue
  rw [List.takeWhile_append_of_pos hmem, List.dropWhile_append_of_pos hmem]
  simp [hnil, hfilter]

/-- Printed lines give their keys and values back. -/
theorem filterMap_printed : ∀ {values : List (String × String)}, values.all Printable = true →
    (splitAt '\n' (printed values)).filterMap keyValue = values
  | [], _ => rfl
  | kv :: values, h => by
    rw [List.all_cons, Bool.and_eq_true] at h
    obtain ⟨hkv, hvalues⟩ := h
    unfold Printable at hkv
    simp only [Bool.and_eq_true, Bool.not_eq_true', List.all_eq_true, bne_iff_ne, ne_eq,
      List.isEmpty_eq_false_iff] at hkv
    obtain ⟨⟨hnil, hkey⟩, hvalue⟩ := hkv
    have hline : '\n' ∉ kv.1.toList ++ '=' :: kv.2.toList := by
      simp only [List.mem_append, List.mem_cons, not_or]
      refine ⟨fun hm => (hkey _ hm).2 rfl, by decide, fun hm => ?_⟩
      exact absurd (hvalue _ hm) (by decide)
    rw [printed, splitAt_append hline, List.filterMap_cons,
      keyValue_line hnil (fun hm => (hkey _ hm).1 rfl) hvalue, filterMap_printed hvalues]
    simp

theorem given_eq (stdout key : String) :
    given stdout key = ((splitAt '\n' stdout.toList).filterMap keyValue).filterMap
      fun kv => if kv.1 = key then some kv.2 else none := by
  unfold given lineValue
  rw [List.filterMap_filterMap]

theorem given_printed {values : List (String × String)} (h : values.all Printable = true)
    (key : String) : given (String.ofList (printed values)) key =
      values.filterMap fun kv => if kv.1 = key then some kv.2 else none := by
  rw [given_eq, String.toList_ofList, filterMap_printed h]

theorem noneRepeated_printed {values : List (String × String)} (h : values.all Printable = true)
    (hn : (values.map (·.1)).Nodup) : NoneRepeated (String.ofList (printed values)) := by
  intro key _
  rw [given_printed h]
  induction values with
  | nil => simp
  | cons kv values ih =>
    rw [List.all_cons, Bool.and_eq_true] at h
    rw [List.map_cons, List.nodup_cons] at hn
    have ih' := ih h.2 hn.2
    rw [List.filterMap_cons]
    split_ifs with hk
    · have hnil : values.filterMap (fun kv => if kv.1 = key then some kv.2 else none) = [] := by
        rw [List.filterMap_eq_nil_iff]
        intro kv' hmem
        rw [if_neg]
        intro hk'
        exact hn.1 (List.mem_map.2 ⟨kv', hmem, hk'.trans hk.symm⟩)
      rw [hnil]
      exact Nat.le_refl 1
    · exact ih'

/-- A good restore whose last audit row is of a year no `Date` holds. -/
def farValues : List (String × String) := [("restore", "ok"), ("tables_backup", "orders,tickets"),
  ("tables_live", "orders,tickets"), ("migrations_backup", "27 1760000000000"),
  ("migrations_live", "27 1760000000000"), ("schema_backup", "4182ba2970ff00000000000000000000"),
  ("schema_live", "4182ba2970ff00000000000000000000"), ("cutoff_us", "8900000000000000000"),
  ("rows_orders_backup", "10"), ("rows_orders_live", "10"), ("rows_order_events_backup", "30"),
  ("rows_order_events_live", "30"), ("rows_tickets_backup", "12"), ("rows_tickets_live", "12"),
  ("tail_live", "0"), ("grants", "ok 10"), ("audit_writable_backup", "0"),
  ("audit_writable_live", "0"), ("done", "ok")]

def farReport : String := String.ofList (printed farValues)

theorem farValues_printable : farValues.all Printable = true := by decide +kernel

theorem farReport_given (key : String) : given farReport key =
    farValues.filterMap fun kv => if kv.1 = key then some kv.2 else none :=
  given_printed farValues_printable key

theorem farReport_restorable : Restorable farReport (some 0) 4096 none 0 := by
  constructor <;> try simp only [farReport_given]
  · decide +kernel
  · decide +kernel
  · exact ⟨"orders,tickets", "orders,tickets", by decide +kernel, by decide +kernel,
      by decide +kernel, fun _ => Iff.rfl⟩
  · exact ⟨"27 1760000000000", by decide +kernel, by decide +kernel, by decide +kernel⟩
  · exact ⟨"4182ba2970ff00000000000000000000", by decide +kernel, by decide +kernel,
      by decide +kernel⟩
  · intro table h
    simp only [appendOnlyCounts, List.mem_cons, List.not_mem_nil, or_false] at h
    rcases h with rfl | rfl | rfl
    · exact ⟨"10", by decide +kernel, by decide +kernel, by decide +kernel⟩
    · exact ⟨"30", by decide +kernel, by decide +kernel, by decide +kernel⟩
    · exact ⟨"12", by decide +kernel, by decide +kernel, by decide +kernel⟩
  · decide +kernel
  · exact ⟨"ok 10", by decide +kernel, by decide +kernel⟩
  · decide +kernel
  · nofun
  · nofun

/-- It stops with an error in place of its results. -/
theorem farReport_not_failsClosed : ¬ ∀ (formats : Formats) (stdout : String) (exit : Option Int)
    (bytes : Nat) (backup : Option Backup) (now : Time) (run : Feed),
      FailsClosed formats stdout exit bytes backup now run := by
  intro h
  have hone : NoneRepeated farReport :=
    noneRepeated_printed farValues_printable (by decide +kernel)
  have hpasses := (h ⟨fun _ => "", toString, fun _ _ => "", fun _ => "", fun _ => false⟩ farReport
    (some 0) 4096 none 0 ⟨some (some 0), none⟩).2 farReport_restorable hone ⟨rfl, .inr rfl⟩
  refine (passes_iff.1 hpasses).2.2.2 ⟨"8900000000000000000", ?_, ?_, ?_⟩
  · rw [farReport_given]
    decide +kernel
  · decide +kernel
  · decide +kernel

end Printed

end RestoreDrill

end EchoAndAura
