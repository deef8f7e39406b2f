import Mathlib.Data.List.Basic

/-!
# Lines of a text

A text is its lines, each ended by a pair of marks (`text`), and the lines are read back from it
(`split_text`).  A long line is written as pieces on lines of their own, each piece after the first
behind a blank (`physical`); taking out every line end before a blank gives the line back
(`unfolded_text`).
-/

namespace Lines

section Texts

variable {α β : Type}

/-- The lines, each ended by the marks. -/
def text (cr lf : α) (ls : List (List α)) : List α := ls.flatMap (· ++ [cr, lf])

/-- A line in pieces, each after the first behind a blank. -/
def physical (sp : α) : List (List α) → List (List α)
  | [] => []
  | p :: ps => p :: ps.map (sp :: ·)

variable {cr lf : α}

theorem text_cons (l : List α) (ls : List (List α)) :
    text cr lf (l :: ls) = l ++ cr :: lf :: text cr lf ls := by
  unfold text
  rw [List.flatMap_cons, List.append_assoc]
  rfl

theorem text_append (ls ms : List (List α)) :
    text cr lf (ls ++ ms) = text cr lf ls ++ text cr lf ms := List.flatMap_append

theorem text_flatten {ls : List (List α)} {g : List α → List (List α)} {f : List α → List α}
    (h : ∀ l, f l ++ [cr, lf] = text cr lf (g l)) :
    text cr lf (ls.map f) = text cr lf (ls.flatMap g) := by
  unfold text at h ⊢
  rw [List.flatMap_assoc, List.flatMap_map]
  exact List.flatMap_congr fun l _ => h l

/-- Lines joined by the marks, and the marks after the last. -/
theorem intercalate_text : ∀ {ls : List (List α)}, ls ≠ [] →
    [cr, lf].intercalate ls ++ [cr, lf] = text cr lf ls
  | [], h => absurd rfl h
  | [l], _ => by
    rw [List.intercalate_singleton, text_cons]
    rfl
  | l :: m :: ls, _ => by
    rw [List.intercalate_cons_cons, List.append_assoc, intercalate_text (List.cons_ne_nil m ls),
      text_cons l, List.append_assoc]
    rfl

theorem physical_eq (sp : α) (ps : List (List α)) :
    (ps.mapIdx fun i p => if i = 0 then p else sp :: p) = physical sp ps := by
  cases ps with
  | nil => rfl
  | cons p ps =>
    rw [List.mapIdx_cons, physical, if_pos rfl]
    refine congrArg (p :: ·) (List.ext_getElem (by simp) fun i hi hi' => ?_)
    simp

theorem physical_append (sp : α) {ps : List (List α)} (h : ps ≠ []) (p : List α) :
    physical sp (ps ++ [p]) = physical sp ps ++ [sp :: p] := by
  cases ps with
  | nil => exact absurd rfl h
  | cons q ps =>
    rw [List.cons_append, physical, physical, List.map_append]
    rfl

theorem mem_physical {sp c : α} {ps : List (List α)} (hc : c ≠ sp) :
    (∃ l ∈ physical sp ps, c ∈ l) ↔ ∃ p ∈ ps, c ∈ p := by
  cases ps with
  | nil => rfl
  | cons p ps =>
    simp [physical, hc]

/-- Writing every item of a text as several keeps its lines, if only the marks give the marks. -/
theorem text_flatMap {f : α → List β} {cr' lf' : β} (hcr : f cr = [cr']) (hlf : f lf = [lf']) :
    ∀ ls : List (List α),
      (text cr lf ls).flatMap f = text cr' lf' (ls.map fun l => l.flatMap f)
  | [] => rfl
  | l :: ls => by
    rw [text_cons, List.flatMap_append, List.flatMap_cons, List.flatMap_cons, hcr, hlf,
      text_flatMap hcr hlf ls, List.map_cons, text_cons]
    rfl

end Texts

variable {α β : Type} [DecidableEq α] [DecidableEq β]

section Definitions

variable (cr lf : α)

/-- What stands between the marks. -/
def split : List α → List (List α)
  | [] => [[]]
  | [c] => [[c]]
  | c :: d :: l =>
    if c = cr ∧ d = lf then [] :: split l else (split (d :: l)).modifyHead (c :: ·)

/-- The marks come only in their pair. -/
def Paired : List α → Prop
  | [] => True
  | [c] => c ≠ cr ∧ c ≠ lf
  | c :: d :: l => if c = cr then d = lf ∧ Paired l else c ≠ lf ∧ Paired (d :: l)

/-- The line ends before a blank taken out, and the blank with them. -/
def unfolded (blank : α → Bool) : List α → List α
  | c :: d :: e :: l =>
    if c = cr ∧ d = lf ∧ blank e = true then unfolded blank l
    else c :: unfolded blank (d :: e :: l)
  | l => l

end Definitions

section Split

variable {cr lf : α}

theorem split_cons {c : α} (hc : c ≠ cr) : ∀ l : List α,
    split cr lf (c :: l) = (split cr lf l).modifyHead (c :: ·)
  | [] => rfl
  | _ :: _ => if_neg fun h => hc h.1

theorem split_append (rest : List α) : ∀ {l : List α}, cr ∉ l →
    split cr lf (l ++ cr :: lf :: rest) = l :: split cr lf rest
  | [], _ => if_pos ⟨rfl, rfl⟩
  | c :: l, h => by
    rw [List.cons_append, split_cons (List.ne_of_not_mem_cons h).symm,
      split_append rest (List.not_mem_of_not_mem_cons h)]
    rfl

theorem split_text : ∀ {ls : List (List α)}, (∀ l ∈ ls, cr ∉ l) →
    split cr lf (text cr lf ls) = ls ++ [[]]
  | [], _ => rfl
  | l :: ls, h => by
    rw [text_cons, split_append _ (h l List.mem_cons_self),
      split_text fun m hm => h m (List.mem_cons_of_mem l hm)]
    rfl

theorem split_flatMap {f : α → List β} {cr' lf' : β} (hcr : f cr = [cr']) (hlf : f lf = [lf'])
    (hf : ∀ c, c ≠ cr → cr' ∉ f c) {ls : List (List α)} (h : ∀ l ∈ ls, cr ∉ l) :
    split cr' lf' ((text cr lf ls).flatMap f) =
      (split cr lf (text cr lf ls)).map fun l => l.flatMap f := by
  rw [text_flatMap hcr hlf, split_text, split_text h, List.map_append]
  · rfl
  · intro m hm hcr'
    obtain ⟨l, hl, rfl⟩ := List.mem_map.1 hm
    obtain ⟨c, hc, hmem⟩ := List.mem_flatMap.1 hcr'
    exact hf c (fun heq => h l hl (heq ▸ hc)) hmem

end Split

section Pairs

variable {cr lf : α}

theorem paired_cons {c : α} (hcr : c ≠ cr) (hlf : c ≠ lf) : ∀ l : List α,
    Paired cr lf (c :: l) ↔ Paired cr lf l
  | [] => ⟨fun _ => trivial, fun _ => ⟨hcr, hlf⟩⟩
  | d :: l => by
    rw [Paired, if_neg hcr]
    exact and_iff_right hlf

theorem paired_append (rest : List α) : ∀ {l : List α}, cr ∉ l → lf ∉ l →
    (Paired cr lf (l ++ rest) ↔ Paired cr lf rest)
  | [], _, _ => Iff.rfl
  | c :: l, hcr, hlf => by
    rw [List.cons_append, paired_cons (List.ne_of_not_mem_cons hcr).symm
      (List.ne_of_not_mem_cons hlf).symm]
    exact paired_append rest (List.not_mem_of_not_mem_cons hcr) (List.not_mem_of_not_mem_cons hlf)

theorem paired_text : ∀ {ls : List (List α)}, (∀ l ∈ ls, cr ∉ l ∧ lf ∉ l) →
    Paired cr lf (text cr lf ls)
  | [], _ => trivial
  | l :: ls, h => by
    obtain ⟨hcr, hlf⟩ := h l List.mem_cons_self
    rw [text_cons, paired_append _ hcr hlf, Paired, if_pos rfl]
    exact ⟨rfl, paired_text fun m hm => h m (List.mem_cons_of_mem l hm)⟩

theorem count_marks (hne : cr ≠ lf) (l : List α) :
    (cr :: lf :: l).count cr = l.count cr + 1 ∧ (cr :: lf :: l).count lf = l.count lf + 1 := by
  rw [List.count_cons_self, List.count_cons_of_ne hne.symm, List.count_cons_of_ne hne,
    List.count_cons_self]
  exact ⟨rfl, rfl⟩

theorem count_of_paired (hne : cr ≠ lf) : ∀ l : List α, Paired cr lf l → l.count cr = l.count lf
  | [], _ => rfl
  | [c], h => by
    rw [List.count_cons_of_ne h.1, List.count_cons_of_ne h.2]
    rfl
  | c :: d :: l, h => by
    rw [Paired] at h
    split_ifs at h with hc
    · obtain ⟨hd, hrest⟩ := h
      rw [hc, hd, (count_marks hne l).1, (count_marks hne l).2, count_of_paired hne l hrest]
    · rw [List.count_cons_of_ne hc, List.count_cons_of_ne h.1, count_of_paired hne _ h.2]

theorem count_text_le (hne : cr ≠ lf) : ∀ {ls : List (List α)}, (∀ l ∈ ls, lf ∉ l) →
    (text cr lf ls).count lf ≤ (text cr lf ls).count cr
  | [], _ => Nat.le_refl _
  | l :: ls, h => by
    have hl := List.count_eq_zero.2 (h l List.mem_cons_self)
    have hls := count_text_le hne fun m hm => h m (List.mem_cons_of_mem l hm)
    rw [text_cons, List.count_append, List.count_append, (count_marks hne _).1,
      (count_marks hne _).2]
    omega

theorem count_text_lt (hne : cr ≠ lf) : ∀ {ls : List (List α)}, (∀ l ∈ ls, lf ∉ l) →
    ∀ l ∈ ls, cr ∈ l → (text cr lf ls).count lf < (text cr lf ls).count cr
  | l :: ls, h, m, hm, hcr => by
    have hl := List.count_eq_zero.2 (h l List.mem_cons_self)
    have hrest : ∀ l' ∈ ls, lf ∉ l' := fun l' hl' => h l' (List.mem_cons_of_mem l hl')
    rw [text_cons, List.count_append, List.count_append, (count_marks hne _).1,
      (count_marks hne _).2]
    rcases List.mem_cons.1 hm with rfl | hm
    · have hpos := List.count_pos_iff.2 hcr
      have hls := count_text_le hne hrest
      omega
    · have hls := count_text_lt hne hrest m hm hcr
      omega

/-- A text whose lines have no line feed is paired only if they have no return either. -/
theorem not_mem_of_paired (hne : cr ≠ lf) {ls : List (List α)} (hlf : ∀ l ∈ ls, lf ∉ l)
    (h : Paired cr lf (text cr lf ls)) : ∀ l ∈ ls, cr ∉ l := by
  intro l hl hcr
  have hlt := count_text_lt hne hlf l hl hcr
  rw [count_of_paired hne _ h] at hlt
  exact absurd hlt (Nat.lt_irrefl _)

end Pairs

section Unfolding

variable {cr lf sp : α} {blank : α → Bool}

theorem unfolded_cons {c : α} (hc : c ≠ cr) : ∀ l : List α,
    unfolded cr lf blank (c :: l) = c :: unfolded cr lf blank l
  | [] => rfl
  | [_] => rfl
  | _ :: _ :: _ => if_neg fun h => hc h.1

theorem unfolded_append (rest : List α) : ∀ {l : List α}, cr ∉ l →
    unfolded cr lf blank (l ++ rest) = l ++ unfolded cr lf blank rest
  | [], _ => rfl
  | c :: l, h => by
    rw [List.cons_append, unfolded_cons (List.ne_of_not_mem_cons h).symm,
      unfolded_append rest (List.not_mem_of_not_mem_cons h)]
    rfl

theorem unfolded_lineEnd (hne : cr ≠ lf) : ∀ {l : List α}, (∀ e ∈ l.head?, blank e = false) →
    unfolded cr lf blank (cr :: lf :: l) = cr :: lf :: unfolded cr lf blank l
  | [], _ => rfl
  | e :: l, h => by
    have he := h e rfl
    rw [unfolded, if_neg (by simp [he]), unfolded_cons hne.symm]

/-- The pieces of a line are joined again. -/
theorem unfolded_physical (hne : cr ≠ lf) (hsp : blank sp = true) {rest : List α}
    (hrest : ∀ e ∈ rest.head?, blank e = false) : ∀ (p : List α) (ps : List (List α)),
      (∀ q ∈ p :: ps, cr ∉ q) →
        unfolded cr lf blank (text cr lf (physical sp (p :: ps)) ++ rest) =
          (p :: ps).flatten ++ cr :: lf :: unfolded cr lf blank rest
  | p, [], h => by
    have hp := h p List.mem_cons_self
    rw [physical, List.map_nil, text_cons, List.append_assoc, unfolded_append _ hp,
      List.flatten_cons, List.flatten_nil, List.append_nil]
    exact congrArg (p ++ ·) (unfolded_lineEnd hne hrest)
  | p, q :: qs, h => by
    have hnext := unfolded_physical hne hsp hrest q qs
      fun r hr => h r (List.mem_cons_of_mem p hr)
    have htext : text cr lf (physical sp (p :: q :: qs)) ++ rest =
        p ++ cr :: lf :: sp :: (text cr lf (physical sp (q :: qs)) ++ rest) := by
      rw [physical, List.map_cons, text_cons, text_cons, physical, text_cons]
      simp only [List.append_assoc, List.cons_append]
    rw [htext, unfolded_append _ (h p List.mem_cons_self), unfolded,
      if_pos ⟨rfl, rfl, hsp⟩, hnext, List.flatten_cons (l := p), List.append_assoc]

/-- A line begins with something that is no blank. -/
def Starts (blank : α → Bool) (pieces : List (List α)) : Prop :=
  ∃ p ps, pieces = p :: ps ∧ ∀ e ∈ p.head?, blank e = false

theorem unfolded_text (hne : cr ≠ lf) (hsp : blank sp = true) (hcr : blank cr = false) :
    ∀ (pss : List (List (List α))), (∀ ps ∈ pss, Starts blank ps) →
      (∀ ps ∈ pss, ∀ p ∈ ps, cr ∉ p) →
        unfolded cr lf blank (text cr lf (pss.flatMap (physical sp))) =
          text cr lf (pss.map List.flatten)
  | [], _, _ => rfl
  | ps :: pss, hstarts, hmarks => by
    have hnext := unfolded_text hne hsp hcr pss
      (fun qs hqs => hstarts qs (List.mem_cons_of_mem ps hqs))
      fun qs hqs => hmarks qs (List.mem_cons_of_mem ps hqs)
    have hrest : ∀ e ∈ (text cr lf (pss.flatMap (physical sp))).head?, blank e = false := by
      intro e he
      cases pss with
      | nil => cases he
      | cons qs pss =>
        obtain ⟨q, qs', rfl, hq⟩ := hstarts qs (List.mem_cons_of_mem ps List.mem_cons_self)
        rw [List.flatMap_cons, physical, List.cons_append, text_cons] at he
        cases q with
        | nil =>
          cases he
          exact hcr
        | cons c q => exact hq e he
    obtain ⟨p, ps', rfl, -⟩ := hstarts ps List.mem_cons_self
    rw [List.flatMap_cons, text_append,
      unfolded_physical hne hsp hrest _ _ (hmarks _ List.mem_cons_self), hnext, List.map_cons,
      text_cons]

end Unfolding

end Lines
