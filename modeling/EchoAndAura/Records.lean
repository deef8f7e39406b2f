import Mathlib.Data.List.Basic

/-!
# Comma-separated records

A file of records as RFC 4180 reads it, one character at a time (`readChar`).  A field is written as
it is, when it has no comma, quote or line end, or between quotes with its own quotes doubled
(`Written`); a file of fields so written is read as those fields (`read_file`).
-/

namespace Records

section Reading

/-- Where in a file the reader is. -/
inductive Mode
  | start
  | plain
  | quoted
  | closed
  | returned
  deriving DecidableEq, Repr

/-- The records read, the fields of the record being read, and the field. -/
structure Reader where
  records : List (List (List Char))
  fields : List (List Char)
  field : List Char
  mode : Mode
  deriving DecidableEq, Repr

def Reader.fresh (records : List (List (List Char))) : Reader :=
  { records := records, fields := [], field := [], mode := .start }

/-- The next field of the record. -/
def Reader.next (r : Reader) : Reader :=
  { r with fields := r.fields ++ [r.field], field := [], mode := .start }

/-- One character more; none when the file is not well formed. -/
def readChar (r : Reader) (c : Char) : Option Reader :=
  match r.mode with
  | .quoted =>
    if c = '"' then some { r with mode := .closed } else some { r with field := r.field ++ [c] }
  | .returned =>
    if c = '\n' then some (.fresh (r.records ++ [r.fields ++ [r.field]])) else none
  | .start =>
    if c = '"' then some { r with mode := .quoted }
    else if c = ',' then some r.next
    else if c = '\r' then some { r with mode := .returned }
    else if c = '\n' then none
    else some { r with field := r.field ++ [c], mode := .plain }
  | .plain =>
    if c = '"' then none
    else if c = ',' then some r.next
    else if c = '\r' then some { r with mode := .returned }
    else if c = '\n' then none
    else some { r with field := r.field ++ [c] }
  | .closed =>
    if c = '"' then some { r with field := r.field ++ [c], mode := .quoted }
    else if c = ',' then some r.next
    else if c = '\r' then some { r with mode := .returned }
    else none

def run (r : Reader) : List Char → Option Reader
  | [] => some r
  | c :: text => (readChar r c).bind fun r' => run r' text

/-- The records of a file; its last line end may be left out. -/
def read (text : List Char) : Option (List (List (List Char))) :=
  (run (.fresh []) text).bind fun r =>
    match r.mode with
    | .start =>
      if r.fields = [] then some r.records else some (r.records ++ [r.fields ++ [r.field]])
    | .plain => some (r.records ++ [r.fields ++ [r.field]])
    | .closed => some (r.records ++ [r.fields ++ [r.field]])
    | .quoted => none
    | .returned => none

end Reading

section Writing

/-- What a field cannot have in it and be written as it is. -/
def special : List Char := ['"', ',', '\r', '\n']

def doubled (s : List Char) : List Char := s.flatMap fun c => if c = '"' then ['"', '"'] else [c]

/-- A text a field may be written as. -/
def Written (text field : List Char) : Prop :=
  (text = field ∧ ∀ c ∈ field, c ∉ special) ∨ text = '"' :: (doubled field ++ ['"'])

/-- A record of fields' texts. -/
def line (texts : List (List Char)) : List Char := [','].intercalate texts ++ ['\r', '\n']

theorem run_append : ∀ (r : Reader) (text text' : List Char),
    run r (text ++ text') = (run r text).bind fun r' => run r' text'
  | _, [], _ => rfl
  | r, c :: text, text' => by
    rw [List.cons_append, run, run]
    cases readChar r c with
    | none => rfl
    | some r' => exact run_append r' text text'

variable {records : List (List (List Char))}

theorem run_plain (fields : List (List Char)) : ∀ {text : List Char} (field : List Char),
    (∀ c ∈ text, c ∉ special) →
      run ⟨records, fields, field, .plain⟩ text = some ⟨records, fields, field ++ text, .plain⟩
  | [], field, _ => by rw [run, List.append_nil]
  | c :: text, field, h => by
    have hc := h c List.mem_cons_self
    simp only [special, List.mem_cons, List.not_mem_nil, or_false, not_or] at hc
    have hread : readChar ⟨records, fields, field, .plain⟩ c =
        some ⟨records, fields, field ++ [c], .plain⟩ := by
      simp [readChar, hc]
    rw [run, hread, Option.bind_some,
      run_plain fields _ fun c' hc' => h c' (List.mem_cons_of_mem c hc'), List.append_assoc]
    rfl

theorem run_doubled (fields : List (List Char)) : ∀ (text field : List Char),
    run ⟨records, fields, field, .quoted⟩ (doubled text) =
      some ⟨records, fields, field ++ text, .quoted⟩
  | [], field => by
    rw [List.append_nil]
    rfl
  | c :: text, field => by
    have hcons : doubled (c :: text) = (if c = '"' then ['"', '"'] else [c]) ++ doubled text :=
      List.flatMap_cons
    have hread : run ⟨records, fields, field, .quoted⟩ (if c = '"' then ['"', '"'] else [c]) =
        some ⟨records, fields, field ++ [c], .quoted⟩ := by
      split_ifs with hc
      · subst hc
        rfl
      · simp [run, readChar, hc]
    rw [hcons, run_append, hread, Option.bind_some, run_doubled fields text, List.append_assoc]
    rfl

/-- The modes a field may end in. -/
def Mode.Ended (m : Mode) : Prop := m = .start ∨ m = .plain ∨ m = .closed

theorem run_written (records : List (List (List Char))) {text field : List Char} (h : Written text field)
    (fields : List (List Char)) : ∃ mode : Mode, mode.Ended ∧
      run ⟨records, fields, [], .start⟩ text = some ⟨records, fields, field, mode⟩ := by
  rcases h with ⟨rfl, hplain⟩ | rfl
  · cases text with
    | nil => exact ⟨.start, .inl rfl, rfl⟩
    | cons c text =>
      have hc := hplain c List.mem_cons_self
      simp only [special, List.mem_cons, List.not_mem_nil, or_false, not_or] at hc
      have hread : readChar ⟨records, fields, [], .start⟩ c =
          some ⟨records, fields, [c], .plain⟩ := by
        simp [readChar, hc]
      refine ⟨.plain, .inr (.inl rfl), ?_⟩
      rw [run, hread, Option.bind_some,
        run_plain fields _ fun c' hc' => hplain c' (List.mem_cons_of_mem c hc')]
      rfl
  · refine ⟨.closed, .inr (.inr rfl), ?_⟩
    have hopen : readChar ⟨records, fields, [], .start⟩ '"' =
        some ⟨records, fields, [], .quoted⟩ := rfl
    rw [run, hopen, Option.bind_some, run_append, run_doubled fields field]
    rfl

theorem readChar_comma {mode : Mode} (h : mode.Ended) (fields : List (List Char))
    (field : List Char) : readChar ⟨records, fields, field, mode⟩ ',' =
      some ⟨records, fields ++ [field], [], .start⟩ := by
  rcases h with rfl | rfl | rfl <;> rfl

theorem run_lineEnd {mode : Mode} (h : mode.Ended) (fields : List (List Char))
    (field : List Char) : run ⟨records, fields, field, mode⟩ ['\r', '\n'] =
      some (.fresh (records ++ [fields ++ [field]])) := by
  rcases h with rfl | rfl | rfl <;> rfl

/-- The fields of a record are read one after the other. -/
theorem run_line : ∀ (cells : List (List Char × List Char)), cells ≠ [] →
    (∀ cell ∈ cells, Written cell.1 cell.2) → ∀ fields : List (List Char),
      run ⟨records, fields, [], .start⟩ (line (cells.map (·.1))) =
        some (.fresh (records ++ [fields ++ cells.map (·.2)]))
  | [], h, _, _ => absurd rfl h
  | [cell], _, hwritten, fields => by
    obtain ⟨mode, hended, hrun⟩ := run_written records
      (hwritten cell List.mem_cons_self) fields
    unfold line
    rw [List.map_cons, List.map_nil, List.intercalate_singleton, run_append, hrun,
      Option.bind_some, run_lineEnd hended]
    rfl
  | cell :: cell' :: cells, _, hwritten, fields => by
    obtain ⟨mode, hended, hrun⟩ := run_written records
      (hwritten cell List.mem_cons_self) fields
    have hrest := run_line (cell' :: cells) (List.cons_ne_nil _ _)
      (fun c hc => hwritten c (List.mem_cons_of_mem cell hc)) (fields ++ [cell.2])
    have hline : line ((cell :: cell' :: cells).map (·.1)) =
        cell.1 ++ ',' :: line ((cell' :: cells).map (·.1)) := by
      unfold line
      rw [List.map_cons, List.map_cons, List.intercalate_cons_cons]
      simp
    rw [hline, run_append, hrun, Option.bind_some, run, readChar_comma hended, Option.bind_some,
      hrest, List.append_assoc]
    rfl

theorem run_file : ∀ {rows : List (List (List Char × List Char))}, (∀ row ∈ rows, row ≠ []) →
    (∀ row ∈ rows, ∀ cell ∈ row, Written cell.1 cell.2) → ∀ records : List (List (List Char)),
      run (.fresh records) (rows.flatMap fun row => line (row.map (·.1))) =
        some (.fresh (records ++ rows.map fun row => row.map (·.2)))
  | [], _, _, records => by
    rw [List.map_nil, List.append_nil]
    rfl
  | row :: rows, hne, hwritten, records => by
    rw [List.flatMap_cons, run_append,
      Reader.fresh, run_line row (hne row List.mem_cons_self) (hwritten row List.mem_cons_self) [],
      Option.bind_some, run_file (fun r hr => hne r (List.mem_cons_of_mem row hr))
        (fun r hr => hwritten r (List.mem_cons_of_mem row hr))]
    simp [Reader.fresh]

/-- A file of well written fields is read as those fields. -/
theorem read_file (rows : List (List (List Char × List Char))) (hne : ∀ row ∈ rows, row ≠ [])
    (hwritten : ∀ row ∈ rows, ∀ cell ∈ row, Written cell.1 cell.2) :
    read (rows.flatMap fun row => line (row.map (·.1))) =
      some (rows.map fun row => row.map (·.2)) := by
  unfold read
  rw [run_file hne hwritten, Option.bind_some]
  rfl

end Writing

end Records
