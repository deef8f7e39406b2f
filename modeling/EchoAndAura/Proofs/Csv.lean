import EchoAndAura.Csv
import EchoAndAura.Lines
import EchoAndAura.Records

/-!
# Reading an export back

Every cell is written as a field of comma-separated records (`csvField_written`), so the file is
read as the cells it was made of, the formulas among them behind an apostrophe.
-/

namespace EchoAndAura

/-- A text, behind an apostrophe if it starts as a formula does. -/
def guarded : List Char → List Char
  | [] => []
  | c :: cs => if c ∈ formulaLeads then apostrophe :: c :: cs else c :: cs

/-- What the cell of a value holds. -/
def cellOf : CsvValue → List Char
  | .null => []
  | .undefined => []
  | .number x => x.text
  | .string s => guarded s.toList

theorem quoteField_written (safe : List Char) : Records.Written (quoteField safe) safe := by
  unfold quoteField
  split_ifs with h
  · exact .inr rfl
  · refine .inl ⟨rfl, fun c hc hspecial => h ?_⟩
    have hany : safe.any (['"', ',', '\r', '\n'].contains ·) = true :=
      List.any_eq_true.2 ⟨c, hc, List.contains_iff_mem.2 hspecial⟩
    unfold needsQuotes
    rw [hany]
    rfl

theorem csvField_written (value : CsvValue) : Records.Written (csvField value) (cellOf value) := by
  cases value with
  | null => exact .inl ⟨rfl, fun c hc => absurd hc List.not_mem_nil⟩
  | undefined => exact .inl ⟨rfl, fun c hc => absurd hc List.not_mem_nil⟩
  | number x => exact quoteField_written x.text
  | string s =>
    have hlead : (if s.toList.head?.any formulaLeads.contains then apostrophe :: s.toList
        else s.toList) = cellOf (.string s) := by
      unfold cellOf
      dsimp only
      cases s.toList with
      | nil => rfl
      | cons c cs => simp [guarded]
    have hfield : csvField (.string s) = quoteField (cellOf (.string s)) := by
      rw [← hlead]
      rfl
    rw [hfield]
    exact quoteField_written _

theorem toCsv_lines (header : List String) (rows : List (List CsvValue)) :
    toCsv header rows = bom :: (header.map CsvValue.string :: rows).flatMap fun row =>
      Records.line (row.map csvField) := by
  unfold toCsv
  dsimp only
  rw [Lines.intercalate_text (by simp)]
  unfold Lines.text Records.line
  rw [List.flatMap_map]

/-- No cell of a string starts as a formula does. -/
theorem cellOf_safe (s : String) : ∀ c ∈ (cellOf (.string s)).head?, c ∉ formulaLeads := by
  intro c hc
  unfold cellOf at hc
  dsimp only at hc
  cases hs : s.toList with
  | nil =>
    rw [hs] at hc
    cases hc
  | cons c' cs =>
    rw [hs] at hc
    unfold guarded at hc
    dsimp only at hc
    split_ifs at hc with h
    · obtain rfl := Option.some.inj hc
      decide
    · obtain rfl := Option.some.inj hc
      exact h

/-- The export is read back as its cells, each its value's text, or that of a string which starts as
a formula does behind an apostrophe. -/
theorem toCsv_roundTrips (header : List String) (rows : List (List CsvValue))
    (hheader : header ≠ []) (hrows : ∀ row ∈ rows, row ≠ []) :
    ∃ file : List Char, toCsv header rows = bom :: file ∧
      Records.read file =
        some ((header.map CsvValue.string :: rows).map fun row => row.map cellOf) ∧
      ∀ s : String, ∀ c ∈ (cellOf (.string s)).head?, c ∉ formulaLeads := by
  refine ⟨_, toCsv_lines header rows, ?_, cellOf_safe⟩
  have hread := Records.read_file ((header.map CsvValue.string :: rows).map fun row =>
    row.map fun value => (csvField value, cellOf value)) ?_ ?_
  · rw [List.flatMap_map, List.map_map] at hread
    simpa [Function.comp_def] using hread
  · intro cells hcells
    obtain ⟨row, hrow, rfl⟩ := List.mem_map.1 hcells
    rcases List.mem_cons.1 hrow with rfl | hrow
    · simpa using hheader
    · simpa using hrows row hrow
  · intro cells hcells cell hcell
    obtain ⟨row, -, rfl⟩ := List.mem_map.1 hcells
    obtain ⟨value, -, rfl⟩ := List.mem_map.1 hcell
    exact csvField_written value

theorem toCsv_roundTrips_export : ∃ file : List Char,
    toCsv ["Name", "Paid"] [[.string "=SUM(A1)\r\n\"x\"", .number (.finite true 5 [] 1)],
      [.string " Nusrat, Jahan", .null]] = bom :: file ∧
      Records.read file = some (([[.string "Name", .string "Paid"],
        [.string "=SUM(A1)\r\n\"x\"", .number (.finite true 5 [] 1)],
        [.string " Nusrat, Jahan", .null]] : List (List CsvValue)).map fun row =>
          row.map cellOf) ∧
      ∀ s : String, ∀ c ∈ (cellOf (.string s)).head?, c ∉ formulaLeads :=
  toCsv_roundTrips _ _ (by decide) (by simp)

end EchoAndAura
