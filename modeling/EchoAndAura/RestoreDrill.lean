import EchoAndAura.Text
import EchoAndAura.Shop

/-!
# The restore drill

The report of the server script (`parseReport`), what makes a run one that cannot be judged
(`runError`) and the checks (`evaluate`).  A check may pass, fail or be skipped.
-/

namespace EchoAndAura

namespace RestoreDrill

def maxAgeHours : Nat := 26

/-- The tables the app never deletes from. -/
def appendOnlyCounts : List String := ["orders", "order_events", "tickets"]

/-- The number of an object's size; one that is not whole is its text. -/
inductive BackupSize
  | whole (bytes : Nat)
  | other (text : String)
  deriving DecidableEq, Repr

def BackupSize.text : BackupSize → String
  | whole bytes => toString bytes
  | other text => text

/-- An object of the backup bucket. -/
structure Backup where
  lastModified : Time
  size : BackupSize

structure Report where
  values : List (String × String)
  errors : List String
  duplicates : List String
  exit : Option Int

structure Result where
  name : String
  ok : Option Bool
  detail : String
  deriving DecidableEq, Repr

def pass (name detail : String) : Result := ⟨name, some true, detail⟩
def fail (name detail : String) : Result := ⟨name, some false, detail⟩
def skip (name detail : String) : Result := ⟨name, none, detail⟩

section Parse

/-- The general categories `Cc` and `Cf`. -/
def isControlOrFormat (c : Char) : Bool :=
  let n := c.toNat
  n ≤ 0x1f || (0x7f ≤ n && n ≤ 0x9f) || n == 0xad || (0x600 ≤ n && n ≤ 0x605) || n == 0x61c ||
    n == 0x6dd || n == 0x70f || (0x890 ≤ n && n ≤ 0x891) || n == 0x8e2 || n == 0x180e ||
    (0x200b ≤ n && n ≤ 0x200f) || (0x202a ≤ n && n ≤ 0x202e) || (0x2060 ≤ n && n ≤ 0x2064) ||
    (0x2066 ≤ n && n ≤ 0x206f) || n == 0xfeff || (0xfff9 ≤ n && n ≤ 0xfffb) || n == 0x110bd ||
    n == 0x110cd || (0x13430 ≤ n && n ≤ 0x1343f) || (0x1bca0 ≤ n && n ≤ 0x1bca3) ||
    (0x1d173 ≤ n && n ≤ 0x1d17a) || n == 0xe0001 || (0xe0020 ≤ n && n ≤ 0xe007f)

/-- `split` at a character. -/
def splitAt (sep : Char) : List Char → List (List Char)
  | [] => [[]]
  | c :: cs =>
    if c = sep then [] :: splitAt sep cs
    else match splitAt sep cs with
      | [] => [[c]]
      | part :: parts => (c :: part) :: parts

/-- A line's key and value; none where there is no `=` or nothing in front of it. -/
def keyValue (line : List Char) : Option (String × String) :=
  let key := line.takeWhile (· ≠ '=')
  match line.dropWhile (· ≠ '=') with
  | [] => none
  | _ :: value =>
    if key = [] then none
    else some (String.ofList key, String.ofList (value.filter fun c => !isControlOrFormat c))

namespace Report

variable (report : Report)

def value (key : String) : Option String := report.values.lookup key

/-- A line of the script.  A plain object takes no text as its `__proto__`. -/
def parseLine (line : List Char) : Report :=
  match keyValue line with
  | none => report
  | some (key, value) =>
    if key = "restore_error" then { report with errors := report.errors ++ [value] }
    else if (report.value key).isSome then
      { report with duplicates := report.duplicates ++ [key] }
    else if key = "__proto__" then report
    else { report with values := report.values ++ [(key, value)] }

end Report

def parseReport (stdout : String) (exit : Option Int) : Report :=
  (splitAt '\n' stdout.toList).foldl Report.parseLine ⟨[], [], [], exit⟩

end Parse

/-- What fed the dump: its exit code where there was one, and an error reading it. -/
structure Feed where
  source : Option (Option Int)
  input : Option String

def exitText : Option Int → String
  | none => "null"
  | some code => toString code

def runError (report : Report) (run : Feed) : Option String :=
  match run.input with
  | some message => some ("reading the backup failed: " ++ message)
  | none =>
    if report.duplicates ≠ [] then
      some ("the drill printed " ++ String.intercalate ", " report.duplicates.eraseDups ++
        " more than once: the backup may be crafted to fake a pass")
    else if report.exit ≠ some 0 ∧ report.value "restore" = none then
      some ("the drill script stopped (exit " ++ exitText report.exit ++
        ") before restoring; see the messages above")
    else if run.source ≠ none ∧ run.source ≠ some (some 0) ∧ report.value "restore" = some "ok" then
      some "the backup stream failed, yet the restore passed: run again"
    else none

section Shapes

/-- `/^\d+$/` -/
def isCount (s : List Char) : Bool := !s.isEmpty && s.all Char.isDigit

/-- `/^\d+ \d+$/` -/
def isMigrations (s : List Char) : Bool :=
  match s.dropWhile Char.isDigit with
  | ' ' :: rest => isCount (s.takeWhile Char.isDigit) && isCount rest
  | _ => false

/-- `/^[0-9a-f]{32}$/` -/
def isMd5 (s : List Char) : Bool :=
  s.length == 32 && s.all fun c => c.isDigit || ('a' ≤ c && c ≤ 'f')

/-- `/^ok \d+$/` -/
def isGrants : List Char → Bool
  | 'o' :: 'k' :: ' ' :: n => isCount n
  | _ => false

def tableNames (s : List Char) : List String :=
  ((splitAt ',' s).filter (· ≠ [])).map String.ofList

def digitsValue (s : List Char) : Nat := s.foldl (fun n c => 10 * n + (c.toNat - '0'.toNat)) 0

/-- The double nearest to a whole number, the even one of two, as a whole number; all that are
infinite are one above every other. -/
def toDouble (n : Nat) : Nat :=
  if 2 ^ 1024 - 2 ^ 970 ≤ n then 2 ^ 1024
  else
    let unit := 2 ^ (n.log2 - 52)
    let q := n / unit
    let r := n % unit
    if unit < 2 * r ∨ (2 * r = unit ∧ q % 2 = 1) then (q + 1) * unit else q * unit

end Shapes

/-- How times and numbers are written out, and whether a text is a number above zero. -/
structure Formats where
  hours : Int → String
  number : Nat → String
  newer : Nat → Nat → String
  isoTime : Nat → String
  positive : String → Bool

section Checks

variable (formats : Formats) (report : Report)

/-- The last time a `Date` holds, in microseconds. -/
def dateMax : Nat := 8640000000000000 * 1000

/-- `toISOString` throws beyond a `Date`'s range. -/
def cutoffText (us : Option String) : Except String String :=
  match us with
  | none => .ok "?"
  | some us =>
    if !isCount us.toList then .ok "?"
    else if us = "0" then .ok "the start (no audit rows)"
    else if dateMax < toDouble (digitsValue us.toList) then .error "RangeError: Invalid time value"
    else .ok (formats.isoTime (toDouble (digitsValue us.toList)))

def freshResult (backup : Backup) (now : Time) : Result :=
  if now - backup.lastModified ≤ maxAgeHours * 3600000 then
    pass "Fresh" (formats.hours (now - backup.lastModified) ++ " h old")
  else fail "Fresh" (formats.hours (now - backup.lastModified) ++
    " h old: the 03:30 S3 schedule has stopped")

def restoresFailed : Result :=
  let why :=
    if report.errors ≠ [] then String.intercalate " | " report.errors
    else if report.value "restore" = some "failed" then
      "pg_restore gave no error: the stream ended early (see the messages above)"
    else "the drill stopped before restoring (see the messages above)"
  let oom :=
    if (report.value "oom_kills").any formats.positive ∨
        report.value "oom_killed" = some "true" then
      " (the throwaway ran out of memory)"
    else ""
  fail "Restores" (why ++ oom)

def downloadResult (backup : Backup) (bytes : Nat) : Result :=
  if .whole bytes = backup.size then pass "Download" (toString bytes ++ " bytes, all of it")
  else fail "Download" (toString bytes ++ " of " ++ backup.size.text ++ " bytes streamed")

def restoresResult : Result :=
  pass "Restores" ((report.value "restore_seconds").getD "?" ++ " s, Postgres " ++
    (report.value "server_version").getD "?")

/-- The characters of a value; none for one that is not there. -/
def chars (key : String) : List Char := ((report.value key).getD "").toList

def migrationsRead : Bool :=
  isMigrations (chars report "migrations_backup") && isMigrations (chars report "migrations_live")

/-- The number of migrations of a side. -/
def migrations (key : String) : Nat :=
  toDouble (digitsValue ((chars report key).takeWhile (· ≠ ' ')))

def liveAhead : Bool :=
  migrationsRead report &&
    migrations report "migrations_backup" < migrations report "migrations_live"

def tables (key : String) : List String := tableNames (chars report key)

def missingTables : List String :=
  (tables report "tables_live").filter fun t => !(tables report "tables_backup").contains t

def extraTables : List String :=
  (tables report "tables_backup").filter fun t => !(tables report "tables_live").contains t

def tablesDiff : String :=
  String.intercalate "; "
    ((if missingTables report = [] then []
      else ["missing " ++ String.intercalate ", " (missingTables report)]) ++
    if extraTables report = [] then []
      else ["extra " ++ String.intercalate ", " (extraTables report)])

def tablesResult : Result :=
  if tables report "tables_live" = [] then fail "Tables" "live listed no tables"
  else if missingTables report = [] ∧ extraTables report = [] then
    pass "Tables" (toString (tables report "tables_live").length ++ ", the same as live")
  else if liveAhead report then
    skip "Tables" (tablesDiff report ++ ": live was deployed after this backup")
  else fail "Tables" (tablesDiff report)

def migrationsResult : Result :=
  if !migrationsRead report then
    fail "Migrations" "the migration journal could not be read on both sides"
  else if report.value "migrations_backup" = report.value "migrations_live" then
    pass "Migrations" (formats.number (migrations report "migrations_backup") ++
      ", the same as live")
  else if liveAhead report then
    skip "Migrations" ("live has " ++ formats.newer (migrations report "migrations_live")
      (migrations report "migrations_backup") ++ " newer: deployed after this backup")
  else fail "Migrations" ("backup " ++ (report.value "migrations_backup").getD "undefined" ++
    ", live " ++ (report.value "migrations_live").getD "undefined")

def schemaResult : Result :=
  if liveAhead report then
    skip "Schema" "compared only at the same migration; run again tomorrow"
  else if isMd5 (chars report "schema_backup") ∧
      report.value "schema_backup" = report.value "schema_live" then
    pass "Schema" ("columns, constraints, indexes, enums match (" ++
      String.ofList ((chars report "schema_backup").take 12) ++ ")")
  else fail "Schema" "a column, constraint, index or enum differs from live"

def rowsResult (cutoff table : String) : Result :=
  let inBackup := report.value ("rows_" ++ table ++ "_backup")
  let inLive := report.value ("rows_" ++ table ++ "_live")
  if inBackup.any (fun n => isCount n.toList) ∧ inBackup = inLive then
    pass ("Rows: " ++ table) (inBackup.getD "?" ++ " up to " ++ cutoff ++ ", the same as live")
  else fail ("Rows: " ++ table) ("backup " ++ inBackup.getD "?" ++ ", live " ++
    inLive.getD "?" ++ " up to " ++ cutoff)

def upToDateResult (cutoff : String) : Result :=
  if report.value "tail_live" = some "0" then
    pass "Up to date" ("live has no audit row between " ++ cutoff ++ " and the upload")
  else fail "Up to date" ("live has " ++ (report.value "tail_live").getD "?" ++
    " audit rows after " ++ cutoff ++ " that the backup should have: an old file?")

def grantsResult : Result :=
  if isGrants (chars report "grants") then
    pass "App role grants" ("app-role.sql applied; the app reads " ++
      String.ofList ((chars report "grants").drop 3) ++ " orders")
  else fail "App role grants" "app-role.sql did not give the app its rights on the copy"

/-- A side whose audit tables the app could still change. -/
def writable (side key : String) : List String :=
  if report.value key = some "0" then [] else [side ++ (report.value key).getD "?"]

def appendOnlyResult : Result :=
  let writable := writable report "copy " "audit_writable_backup" ++
    writable report "live " "audit_writable_live"
  if writable ≠ [] then
    fail "Audit append-only" ("the app role can still change an audit table: " ++
      String.intercalate ", " writable)
  else pass "Audit append-only" ("the app role cannot change order_events, door_scans or " ++
    "door_decisions, here or live")

def completedResult : Result :=
  if report.value "done" = some "ok" ∧ report.exit = some 0 then
    pass "Completed" "the server script ran to the end"
  else fail "Completed" ("the server script stopped part-way (exit " ++ exitText report.exit ++
    "; see the messages above)")

/-- The checks of a run; no backup in lab mode. -/
def evaluate (backup : Option Backup) (bytes : Nat) (now : Time) : Except String (List Result) :=
  let fresh := (backup.map fun b => freshResult formats b now).toList
  if report.value "restore" ≠ some "ok" then .ok (fresh ++ [restoresFailed formats report])
  else do
    let cutoff ← cutoffText formats (report.value "cutoff_us")
    return fresh ++ (backup.map fun b => downloadResult b bytes).toList ++
      [restoresResult report, tablesResult report, migrationsResult formats report,
        schemaResult report] ++ appendOnlyCounts.map (rowsResult report cutoff) ++
      [upToDateResult report cutoff, grantsResult report, appendOnlyResult report,
        completedResult report]

end Checks

end RestoreDrill

end EchoAndAura
