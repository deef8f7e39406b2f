import EchoAndAura.Proofs.Days
import Mathlib.Algebra.BigOperators.Group.List.Basic

/-!
# The series of a sales report agree

Both loops visit the days of the window one after the other (`daysFrom`), and end
(`dailyLoop_run`, `cumulativeLoop_run`).  What a row brings is counted on its day by the one, and
under its comparison by the others, so their sums are sums over the same rows (`sum_days`).
-/

namespace EchoAndAura

open Calendar

section Visited

/-- Days one after the other. -/
def daysFrom (a : Int) : Nat → List Int
  | 0 => []
  | k + 1 => a :: daysFrom (a + 1) k

theorem mem_daysFrom : ∀ {k : Nat} {a n : Int}, n ∈ daysFrom a k ↔ a ≤ n ∧ n < a + k
  | 0, a, n => by
    constructor
    · exact fun h => absurd h List.not_mem_nil
    · intro h
      omega
  | k + 1, a, n => by
    rw [daysFrom, List.mem_cons, mem_daysFrom]
    omega

theorem pairwise_daysFrom : ∀ (k : Nat) (a : Int), (daysFrom a k).Pairwise (· < ·)
  | 0, _ => .nil
  | k + 1, a => by
    refine .cons (fun n hn => ?_) (pairwise_daysFrom k (a + 1))
    have hlow := (mem_daysFrom.1 hn).1
    omega

theorem length_daysFrom : ∀ (k : Nat) (a : Int), (daysFrom a k).length = k
  | 0, _ => rfl
  | k + 1, a => congrArg (· + 1) (length_daysFrom k (a + 1))

/-- The days of a window, by number: `k` of them from `a`. -/
structure Spans (window : ReportWindow) (a : Int) (k : Nat) : Prop where
  fromDay : window.fromDay = dayText a
  toDay : window.toDay = dayText (a + k - 1)
  low : Ordinary a
  high : Ordinary (a + k)

variable {window : ReportWindow} {a : Int} {k : Nat}

theorem ordinary_between {m n x : Int} (hm : Ordinary m) (hn : Ordinary n) (hlow : m ≤ x)
    (hhigh : x ≤ n) : Ordinary x :=
  ⟨Int.le_trans hm.1 hlow, Int.lt_of_le_of_lt hhigh hn.2⟩

theorem Spans.ordinary (h : Spans window a k) {n : Int} (hn : n ∈ daysFrom a k) : Ordinary n := by
  obtain ⟨hlow, hhigh⟩ := mem_daysFrom.1 hn
  exact ordinary_between h.low h.high hlow (Int.le_of_lt hhigh)

theorem pairwise_texts (h : Spans window a k) :
    ((daysFrom a k).map dayText).Pairwise (· < ·) := by
  rw [List.pairwise_map]
  refine List.Pairwise.imp_of_mem (fun hm hn hlt => ?_) (pairwise_daysFrom k a)
  exact (dayText_lt (h.ordinary hm) (h.ordinary hn)).2 hlt

theorem nodup_texts (h : Spans window a k) : ((daysFrom a k).map dayText).Nodup := by
  refine (pairwise_texts h).imp ?_
  intro day day' hlt heq
  rw [heq] at hlt
  exact String.lt_irrefl day' hlt

def IsDay (day : String) : Prop := ∃ n, Ordinary n ∧ day = dayText n

/-- The days visited are those of the window. -/
theorem mem_texts (h : Spans window a k) (hk : 0 < k) {day : String} :
    day ∈ (daysFrom a k).map dayText ↔
      IsDay day ∧ window.fromDay ≤ day ∧ day ≤ window.toDay := by
  have hlast : Ordinary (a + k - 1) := ordinary_between h.low h.high (by omega) (by omega)
  rw [h.fromDay, h.toDay, List.mem_map]
  constructor
  · rintro ⟨n, hn, rfl⟩
    have hordinary := h.ordinary hn
    obtain ⟨hlow, hhigh⟩ := mem_daysFrom.1 hn
    refine ⟨⟨n, hordinary, rfl⟩, (dayText_le h.low hordinary).2 hlow, ?_⟩
    exact (dayText_le hordinary hlast).2 (by omega)
  · rintro ⟨⟨n, hordinary, rfl⟩, hlow, hhigh⟩
    rw [dayText_le h.low hordinary] at hlow
    rw [dayText_le hordinary hlast] at hhigh
    exact ⟨n, mem_daysFrom.2 ⟨hlow, by omega⟩, rfl⟩

end Visited

section Loops

variable {rows : List DailySalesRow} {window : ReportWindow}

def labelOf (n : Int) : String := (dayLabel (dayText n)).getD ""

def pointOf (rows : List DailySalesRow) (window : ReportWindow) (n : Int) : DailyPoint :=
  dailyPoint rows window (dayText n) (labelOf n)

theorem dayLabel_eq {n : Int} (h : Ordinary n) : dayLabel (dayText n) = some (labelOf n) := by
  obtain ⟨label, hlabel⟩ := dayLabel_dayText h
  unfold labelOf
  rw [hlabel]
  rfl

/-- The loop ends, having visited the days that were left. -/
theorem dailyLoop_run {last : Int} (hto : window.toDay = dayText last) (hlast : Ordinary last)
    (hnext : Ordinary (last + 1)) : ∀ {k : Nat} {a : Int} {fuel : Nat} (points : List DailyPoint),
      Ordinary a → a + k = last + 1 → k < fuel →
        dailyLoop rows window fuel (dayText a) points =
          some (points ++ (daysFrom a k).map (pointOf rows window))
  | 0, a, fuel + 1, points, ha, hk, _ => by
    have hover : ¬ dayText a ≤ window.toDay := by
      rw [hto, dayText_le ha hlast]
      omega
    rw [dailyLoop, if_neg hover, daysFrom, List.map_nil, List.append_nil]
  | k + 1, a, fuel + 1, points, ha, hk, hfuel => by
    have hle : dayText a ≤ window.toDay := by
      rw [hto, dayText_le ha hlast]
      omega
    have hsucc : Ordinary (a + 1) := ordinary_between ha hnext (by omega) (by omega)
    have hrest := dailyLoop_run hto hlast hnext (points ++ [pointOf rows window a]) hsucc
      (k := k) (by omega) (Nat.lt_of_succ_lt_succ hfuel)
    rw [dailyLoop, if_pos hle, dayLabel_eq ha, shiftDay_dayText ha hsucc]
    simp only [Option.bind_eq_bind, Option.bind_some]
    rw [daysFrom, List.map_cons]
    rw [List.append_assoc] at hrest
    exact hrest

/-- The points of a running total over the days. -/
def runningPoints (window : ReportWindow) (byDay : String → Option Int) :
    Int → List Int → List CumulativePoint
  | _, [] => []
  | running, n :: days =>
    { day := dayText n
      label := labelOf n
      cumulative := running + (byDay (dayText n)).getD 0
      isToday := dayText n == window.today } ::
        runningPoints window byDay (running + (byDay (dayText n)).getD 0) days

theorem cumulativeLoop_run (byDay : String → Option Int) {last : Int}
    (hto : window.toDay = dayText last) (hlast : Ordinary last) (hnext : Ordinary (last + 1)) :
    ∀ {k : Nat} {a : Int} {fuel : Nat} (points : List CumulativePoint) (running : Int),
      Ordinary a → a + k = last + 1 → k < fuel →
        cumulativeLoop window byDay fuel (dayText a) points running =
          some (points ++ runningPoints window byDay running (daysFrom a k),
            running + ((daysFrom a k).map fun n => (byDay (dayText n)).getD 0).sum)
  | 0, a, fuel + 1, points, running, ha, hk, _ => by
    have hover : ¬ dayText a ≤ window.toDay := by
      rw [hto, dayText_le ha hlast]
      omega
    rw [cumulativeLoop, if_neg hover, daysFrom, runningPoints, List.append_nil, List.map_nil,
      List.sum_nil, Int.add_zero]
  | k + 1, a, fuel + 1, points, running, ha, hk, hfuel => by
    have hle : dayText a ≤ window.toDay := by
      rw [hto, dayText_le ha hlast]
      omega
    have hsucc : Ordinary (a + 1) := ordinary_between ha hnext (by omega) (by omega)
    rw [cumulativeLoop, if_pos hle]
    dsimp only
    rw [dayLabel_eq ha, shiftDay_dayText ha hsucc]
    simp only [Option.bind_eq_bind, Option.bind_some]
    rw [cumulativeLoop_run byDay hto hlast hnext _ _ hsucc (k := k) (by omega)
      (Nat.lt_of_succ_lt_succ hfuel), daysFrom, runningPoints, List.append_assoc, List.singleton_append, List.map_cons,
      List.sum_cons, Int.add_assoc]

end Loops

section Sums

variable {rows : List DailySalesRow} {window : ReportWindow} (f : DailySalesRow → Int)

/-- Rows of different days bring to a day what its row brings. -/
theorem find_sum (day : String) : ∀ {l : List DailySalesRow}, (l.map (·.day)).Nodup →
    ((l.find? fun r => r.day == day).map f).getD 0 =
      (l.map fun r => if r.day = day then f r else 0).sum
  | [], _ => rfl
  | r :: l, h => by
    obtain ⟨hnot, hrest⟩ := List.nodup_cons.1 h
    rw [List.map_cons, List.sum_cons]
    by_cases hday : r.day = day
    · have hzero : (l.map fun r => if r.day = day then f r else 0).sum = 0 := by
        refine List.sum_eq_zero fun x hx => ?_
        obtain ⟨r', hr', rfl⟩ := List.mem_map.1 hx
        exact if_neg fun hday' => hnot (List.mem_map.2 ⟨r', hr', hday'.trans hday.symm⟩)
      rw [List.find?_cons_of_pos (by simp [hday]), if_pos hday, hzero, Int.add_zero]
      rfl
    · rw [List.find?_cons_of_neg (by simp [hday]), if_neg hday, Int.zero_add, find_sum day hrest]

theorem rowOf_sum (h : (rows.map (·.day)).Nodup) (day : String) :
    ((rowOf rows day).map f).getD 0 =
      (rows.map fun r => if r.day = day then f r else 0).sum := by
  unfold rowOf
  rw [find_sum f day (((List.reverse_perm rows).map _).nodup_iff.2 h)]
  exact ((List.reverse_perm rows).map _).sum_eq

theorem single_sum (day : String) (x : Int) : ∀ {days : List String}, days.Nodup →
    (days.map fun d => if day = d then x else 0).sum = if day ∈ days then x else 0
  | [], _ => rfl
  | d :: days, h => by
    obtain ⟨hnot, hrest⟩ := List.nodup_cons.1 h
    rw [List.map_cons, List.sum_cons, single_sum day x hrest]
    by_cases hd : day = d
    · subst hd
      simp [hnot]
    · simp [hd]

/-- What the days have is what the rows on those days bring. -/
theorem sum_days {days : List String} (h : days.Nodup) : ∀ rows : List DailySalesRow,
    (days.map fun d => (rows.map fun r => if r.day = d then f r else 0).sum).sum =
      (rows.map fun r => if r.day ∈ days then f r else 0).sum
  | [] => by simp
  | r :: rows => by
    simp only [List.map_cons, List.sum_cons]
    rw [List.sum_map_add, single_sum r.day (f r) h, sum_days h rows]

theorem periodTotals_fold (fromDay toDay : String) : ∀ (rows : List DailySalesRow)
    (t : PeriodTotals), rows.foldl (PeriodTotals.add fromDay toDay) t =
      { orders := t.orders +
          (rows.map fun r => if r.day < fromDay ∨ toDay < r.day then 0 else r.orders).sum
        tickets := t.tickets +
          (rows.map fun r => if r.day < fromDay ∨ toDay < r.day then 0 else r.tickets).sum
        paisa := t.paisa +
          (rows.map fun r => if r.day < fromDay ∨ toDay < r.day then 0 else r.paisa).sum }
  | [], t => by simp
  | r :: rows, t => by
    rw [List.foldl_cons, periodTotals_fold fromDay toDay rows]
    unfold PeriodTotals.add
    simp only [List.map_cons, List.sum_cons]
    split_ifs <;> simp [Int.add_assoc]

/-- What the fold over the rows has counted. -/
theorem sold_fold (window : ReportWindow) : ∀ (rows : List DailySalesRow) (s : Sold),
    (rows.foldl (Sold.add window) s).before = s.before +
        (rows.map fun r => if r.day < window.fromDay then r.tickets else 0).sum ∧
      ∀ day, ¬ day < window.fromDay → day ≤ window.toDay →
        ((rows.foldl (Sold.add window) s).byDay day).getD 0 = (s.byDay day).getD 0 +
          (rows.map fun r => if r.day = day then r.tickets else 0).sum
  | [], s => by simp
  | r :: rows, s => by
    obtain ⟨hbefore, hbyDay⟩ := sold_fold window rows (s.add window r)
    rw [List.foldl_cons]
    simp only [List.map_cons, List.sum_cons]
    constructor
    · rw [hbefore]
      unfold Sold.add
      split_ifs <;> simp [Int.add_assoc]
    · intro day hlow hhigh
      rw [hbyDay day hlow hhigh]
      unfold Sold.add
      by_cases hday : r.day = day
      · rw [← hday] at hlow hhigh ⊢
        simp [hlow, hhigh, Int.add_assoc]
      · split_ifs
        · simp
        · simp [Function.update_of_ne (Ne.symm hday)]
        · simp

end Sums

section Peak

/-- The day with the most tickets, the first of them; none when nothing was sold. -/
def EarliestMost (points : List DailyPoint) : Option DailyPoint → Prop
  | none => ∀ p ∈ points, p.tickets ≤ 0
  | some best => 0 < best.tickets ∧ ∃ front back, points = front ++ best :: back ∧
      (∀ p ∈ front, p.tickets < best.tickets) ∧ ∀ p ∈ back, p.tickets ≤ best.tickets

theorem EarliestMost.bound {points : List DailyPoint} {best : DailyPoint}
    (h : EarliestMost points (some best)) : ∀ p ∈ points, p.tickets ≤ best.tickets := by
  obtain ⟨-, front, back, rfl, hfront, hback⟩ := h
  intro p hp
  rcases List.mem_append.1 hp with hp | hp
  · exact Int.le_of_lt (hfront p hp)
  · rcases List.mem_cons.1 hp with rfl | hp
    · exact Int.le_refl _
    · exact hback p hp

/-- One point more. -/
theorem higher_earliestMost {points : List DailyPoint} {peak : Option DailyPoint}
    (h : EarliestMost points peak) (p : DailyPoint) :
    EarliestMost (points ++ [p]) (higher peak p) := by
  cases peak with
  | none =>
    unfold higher
    dsimp only
    split_ifs with hpos
    · exact ⟨hpos, points, [], rfl, fun q hq => Int.lt_of_le_of_lt (h q hq) hpos,
        fun q hq => absurd hq List.not_mem_nil⟩
    · intro q hq
      rcases List.mem_append.1 hq with hq | hq
      · exact h q hq
      · rw [List.mem_singleton.1 hq]
        exact Int.not_lt.1 hpos
  | some best =>
    have hbound := h.bound
    obtain ⟨hpos, front, back, hpoints, hfront, hback⟩ := h
    unfold higher
    dsimp only
    split_ifs with hhigher
    · rw [Bool.and_eq_true, decide_eq_true_eq, decide_eq_true_eq] at hhigher
      exact ⟨hhigher.1, points, [], rfl,
        fun q hq => Int.lt_of_le_of_lt (hbound q hq) hhigher.2,
        fun q hq => absurd hq List.not_mem_nil⟩
    · rw [Bool.and_eq_true, decide_eq_true_eq, decide_eq_true_eq] at hhigher
      refine ⟨hpos, front, back ++ [p], ?_, hfront, fun q hq => ?_⟩
      · rw [hpoints, List.append_assoc, List.cons_append]
      · rcases List.mem_append.1 hq with hq | hq
        · exact hback q hq
        · rw [List.mem_singleton.1 hq]
          omega

theorem foldl_earliestMost : ∀ (points : List DailyPoint) {done : List DailyPoint}
    {peak : Option DailyPoint}, EarliestMost done peak →
      EarliestMost (done ++ points) (points.foldl higher peak)
  | [], _, _, h => by rwa [List.append_nil]
  | p :: points, _, _, h => by
    have hrest := foldl_earliestMost points (higher_earliestMost h p)
    rwa [List.append_assoc, List.singleton_append] at hrest

end Peak

section Agreement

/-- Each point of the running total adds its day's point. -/
def Accumulates : Int → List DailyPoint → List CumulativePoint → Prop
  | _, [], [] => True
  | running, p :: daily, c :: cumulative =>
    c.day = p.day ∧ c.cumulative = running + p.tickets ∧
      Accumulates c.cumulative daily cumulative
  | _, _, _ => False

/-- What the series of a window say about it and about each other. -/
structure SeriesAgree (rows : List DailySalesRow) (window : ReportWindow) (daily : DailySeries)
    (cumulative : CumulativeSeries) : Prop where
  days : ∀ day, day ∈ daily.points.map (·.day) ↔
    IsDay day ∧ window.fromDay ≤ day ∧ day ≤ window.toDay
  increasing : (daily.points.map (·.day)).Pairwise (· < ·)
  totals : periodTotals rows window.fromDay window.toDay =
    { orders := (daily.points.map (·.orders)).sum
      tickets := (daily.points.map (·.tickets)).sum
      paisa := (daily.points.map (·.paisa)).sum }
  peak : EarliestMost daily.points daily.peak
  before : cumulative.before =
    ((rows.filter fun r => decide (r.day < window.fromDay)).map (·.tickets)).sum
  steps : Accumulates cumulative.before daily.points cumulative.points
  ends : cumulative.ends =
    ((rows.filter fun r => decide (r.day ≤ window.toDay)).map (·.tickets)).sum

theorem sum_filter (p : DailySalesRow → Prop) [DecidablePred p] (f : DailySalesRow → Int) :
    ∀ rows : List DailySalesRow, ((rows.filter fun r => decide (p r)).map f).sum =
      (rows.map fun r => if p r then f r else 0).sum
  | [] => rfl
  | r :: rows => by
    rw [List.filter_cons, List.map_cons, List.sum_cons, ← sum_filter p f rows]
    by_cases h : p r <;> simp [h]

variable {rows : List DailySalesRow} {window : ReportWindow} {a : Int} {k : Nat}

/-- What the points of a window have is what its rows bring. -/
theorem sum_points (hspans : Spans window a k) (hk : 0 < k) (hdays : ∀ r ∈ rows, IsDay r.day)
    (hnodup : (rows.map (·.day)).Nodup) (f : DailySalesRow → Int) :
    ((daysFrom a k).map fun n => ((rowOf rows (dayText n)).map f).getD 0).sum =
      (rows.map fun r => if r.day < window.fromDay ∨ window.toDay < r.day then 0 else f r).sum := by
  have hrows : ((daysFrom a k).map fun n => ((rowOf rows (dayText n)).map f).getD 0).sum =
      (((daysFrom a k).map dayText).map fun day =>
        (rows.map fun r => if r.day = day then f r else 0).sum).sum := by
    rw [List.map_map]
    exact congrArg List.sum (List.map_congr_left fun n _ => rowOf_sum f hnodup (dayText n))
  rw [hrows, sum_days f (nodup_texts hspans) rows]
  refine congrArg List.sum (List.map_congr_left fun r hr => ?_)
  have hmem : r.day ∈ (daysFrom a k).map dayText ↔
      IsDay r.day ∧ window.fromDay ≤ r.day ∧ r.day ≤ window.toDay := mem_texts hspans hk
  have hinside : r.day ∈ (daysFrom a k).map dayText ↔
      ¬ (r.day < window.fromDay ∨ window.toDay < r.day) := by
    rw [hmem, not_or]
    exact and_iff_right (hdays r hr)
  by_cases hout : r.day < window.fromDay ∨ window.toDay < r.day
  · rw [if_pos hout, if_neg fun h => hinside.1 h hout]
  · rw [if_neg hout, if_pos (hinside.2 hout)]

theorem accumulates_running {byDay : String → Option Int} : ∀ (days : List Int) (running : Int),
    (∀ n ∈ days, (byDay (dayText n)).getD 0 = (pointOf rows window n).tickets) →
      Accumulates running (days.map (pointOf rows window))
        (runningPoints window byDay running days)
  | [], _, _ => trivial
  | n :: days, running, h => by
    refine ⟨rfl, congrArg (running + ·) (h n List.mem_cons_self), ?_⟩
    exact accumulates_running days _ fun m hm => h m (List.mem_cons_of_mem n hm)

def dailyOf (rows : List DailySalesRow) (window : ReportWindow) (days : List Int) : DailySeries :=
  let points := days.map (pointOf rows window)
  let peak := points.foldl higher none
  { points, peak, maxTickets := (peak.map (·.tickets)).getD 0 }

def soldOf (rows : List DailySalesRow) (window : ReportWindow) : Sold :=
  rows.foldl (Sold.add window) { before := 0, byDay := fun _ => none }

def cumulativeOf (rows : List DailySalesRow) (window : ReportWindow) (days : List Int) :
    CumulativeSeries :=
  let sold := soldOf rows window
  { points := runningPoints window sold.byDay sold.before days
    before := sold.before
    ends := sold.before + (days.map fun n => (sold.byDay (dayText n)).getD 0).sum }

theorem Spans.last (h : Spans window a k) (hk : 0 < k) : Ordinary (a + k - 1) :=
  ordinary_between h.low h.high (by omega) (by omega)

theorem dailySeries_run (hspans : Spans window a k) (hk : 0 < k) {fuel : Nat} (hfuel : k < fuel) :
    dailySeries fuel rows window = some (dailyOf rows window (daysFrom a k)) := by
  have hnext : Ordinary (a + k - 1 + 1) := by
    rw [Int.sub_add_cancel]
    exact hspans.high
  unfold dailySeries dailyOf
  rw [hspans.fromDay, dailyLoop_run hspans.toDay (hspans.last hk) hnext [] hspans.low (by omega)
    hfuel]
  rfl

theorem cumulativeSeries_run (hspans : Spans window a k) (hk : 0 < k) {fuel : Nat}
    (hfuel : k < fuel) :
    cumulativeSeries fuel rows window = some (cumulativeOf rows window (daysFrom a k)) := by
  have hnext : Ordinary (a + k - 1 + 1) := by
    rw [Int.sub_add_cancel]
    exact hspans.high
  have hloop := cumulativeLoop_run (soldOf rows window).byDay hspans.toDay
    (hspans.last hk) hnext [] (soldOf rows window).before hspans.low (by omega) hfuel
  unfold cumulativeSeries cumulativeOf
  rw [hspans.fromDay]
  unfold soldOf at hloop ⊢
  dsimp only
  rw [hloop]
  rfl

/-- What is counted on a day of the window. -/
theorem soldOf_byDay (hspans : Spans window a k) (hk : 0 < k) (hnodup : (rows.map (·.day)).Nodup)
    {n : Int} (hn : n ∈ daysFrom a k) :
    ((soldOf rows window).byDay (dayText n)).getD 0 = (pointOf rows window n).tickets := by
  obtain ⟨-, hlow, hhigh⟩ :=
    (mem_texts hspans hk).1 (List.mem_map_of_mem hn)
  unfold soldOf
  rw [(sold_fold window rows _).2 (dayText n) hlow hhigh]
  unfold pointOf dailyPoint
  dsimp only
  rw [rowOf_sum _ hnodup, Option.getD_none, Int.zero_add]

theorem soldOf_before : (soldOf rows window).before =
    (rows.map fun r => if r.day < window.fromDay then r.tickets else 0).sum := by
  unfold soldOf
  rw [(sold_fold window rows _).1, Int.zero_add]

/-- A row is before the window, in it or after it. -/
theorem sum_until (hle : window.fromDay ≤ window.toDay) : ∀ rows : List DailySalesRow,
    (rows.map fun r => if r.day < window.fromDay then r.tickets else 0).sum +
      (rows.map fun r =>
        if r.day < window.fromDay ∨ window.toDay < r.day then 0 else r.tickets).sum =
      (rows.map fun r => if r.day ≤ window.toDay then r.tickets else 0).sum
  | [] => rfl
  | r :: rows => by
    have hrest := sum_until hle rows
    simp only [List.map_cons, List.sum_cons]
    rw [← hrest]
    by_cases hbefore : r.day < window.fromDay
    · have hinside : r.day ≤ window.toDay :=
        String.le_trans (Std.le_of_lt hbefore) hle
      rw [if_pos hbefore, if_pos (.inl hbefore), if_pos hinside]
      omega
    · by_cases hafter : window.toDay < r.day
      · rw [if_neg hbefore, if_pos (.inr hafter), if_neg (Std.not_le.2 hafter)]
        omega
      · rw [if_neg hbefore, if_neg (not_or.2 ⟨hbefore, hafter⟩), if_pos (Std.not_lt.1 hafter)]
        omega

theorem seriesAgree_of_spans (hspans : Spans window a k) (hk : 0 < k)
    (hle : window.fromDay ≤ window.toDay) (hdays : ∀ r ∈ rows, IsDay r.day)
    (hnodup : (rows.map (·.day)).Nodup) :
    SeriesAgree rows window (dailyOf rows window (daysFrom a k))
      (cumulativeOf rows window (daysFrom a k)) := by
  have htexts : (dailyOf rows window (daysFrom a k)).points.map (·.day) =
      (daysFrom a k).map dayText := by
    unfold dailyOf
    exact List.map_map
  have hsums : ∀ (f : DailySalesRow → Int) (g : DailyPoint → Int),
      (∀ n, g (pointOf rows window n) = ((rowOf rows (dayText n)).map f).getD 0) →
        ((dailyOf rows window (daysFrom a k)).points.map g).sum =
          (rows.map fun r =>
            if r.day < window.fromDay ∨ window.toDay < r.day then 0 else f r).sum := by
    intro f g hg
    rw [← sum_points hspans hk hdays hnodup f]
    unfold dailyOf
    rw [List.map_map]
    exact congrArg List.sum (List.map_congr_left fun n _ => hg n)
  have hbyDay : ∀ n ∈ daysFrom a k, ((soldOf rows window).byDay (dayText n)).getD 0 =
      (pointOf rows window n).tickets := fun n hn => soldOf_byDay hspans hk hnodup hn
  constructor
  · intro day
    rw [htexts, mem_texts hspans hk]
  · rw [htexts]
    exact pairwise_texts hspans
  · unfold periodTotals
    rw [periodTotals_fold, hsums (·.orders) (·.orders) fun _ => rfl,
      hsums (·.tickets) (·.tickets) fun _ => rfl, hsums (·.paisa) (·.paisa) fun _ => rfl]
    simp only [Int.zero_add]
  · have hnone : EarliestMost [] none := fun p hp => absurd hp List.not_mem_nil
    exact foldl_earliestMost _ hnone
  · rw [sum_filter]
    exact soldOf_before
  · exact accumulates_running (daysFrom a k) _ hbyDay
  · have hticketsOf := hsums (·.tickets) (·.tickets) fun _ => rfl
    unfold dailyOf at hticketsOf
    rw [List.map_map] at hticketsOf
    rw [sum_filter, ← sum_until hle, ← hticketsOf, ← soldOf_before]
    unfold cumulativeOf
    exact congrArg (fun days => (soldOf rows window).before + List.sum days)
      (List.map_congr_left hbyDay)

theorem lastDay_eq : "9999-12-31" = dayText (firstOfYear 10000 - 1) := by decide +kernel

theorem exists_spans (hfrom : IsDay window.fromDay) (hto : IsDay window.toDay)
    (hle : window.fromDay ≤ window.toDay) (hlast : window.toDay < "9999-12-31") :
    ∃ a k, 0 < k ∧ Spans window a k := by
  obtain ⟨a, ha, hfromText⟩ := hfrom
  obtain ⟨b, hb, htoText⟩ := hto
  have hend : Ordinary (firstOfYear 10000 - 1) := by
    unfold Ordinary
    decide
  rw [hfromText, htoText, dayText_le ha hb] at hle
  rw [htoText, lastDay_eq, dayText_lt hb hend] at hlast
  have hcount : a + ((b - a + 1).toNat : Int) = b + 1 := by omega
  refine ⟨a, (b - a + 1).toNat, by omega, hfromText, ?_, ha, ?_⟩
  · rw [hcount, Int.add_sub_cancel]
    exact htoText
  · rw [hcount]
    exact ⟨Int.le_trans hb.1 (by omega), by omega⟩

/-- A window is as long as it says. -/
theorem rangeWindow_days (hspans : Spans window a k) (hk : 0 < k) {range : ReportRange}
    {toDay today : String} {earliest : Option String}
    (h : rangeWindow range toDay earliest today = some window) : window.days = k := by
  have hlast := hspans.last hk
  unfold rangeWindow at h
  cases hlength : range.length with
  | none =>
    simp only [hlength, Option.map_eq_some_iff] at h
    obtain ⟨days, hdays, rfl⟩ := h
    have hfromDay := hspans.fromDay
    have htoDay := hspans.toDay
    dsimp only at hfromDay htoDay
    rw [hfromDay, htoDay, daysBetween_dayText hspans.low hlast, Option.some.injEq] at hdays
    dsimp only
    omega
  | some days =>
    simp only [hlength, Option.map_eq_some_iff] at h
    obtain ⟨fromDay, hshift, rfl⟩ := h
    have hfromDay := hspans.fromDay
    have htoDay := hspans.toDay
    dsimp only at hfromDay htoDay
    rw [hfromDay, htoDay] at hshift
    have hfirst := shiftDay_eq hlast hspans.low hshift
    dsimp only
    omega

theorem salesSeries_agree (rows : List DailySalesRow) (window : ReportWindow)
    (hdays : ∀ r ∈ rows, IsDay r.day) (hnodup : (rows.map (·.day)).Nodup)
    (hfrom : IsDay window.fromDay) (hto : IsDay window.toDay)
    (hle : window.fromDay ≤ window.toDay) (hlast : window.toDay < "9999-12-31") :
    ∃ enough daily cumulative,
      (∀ fuel, enough ≤ fuel → dailySeries fuel rows window = some daily ∧
        cumulativeSeries fuel rows window = some cumulative) ∧
      SeriesAgree rows window daily cumulative ∧
      ∀ range toDay earliest today, rangeWindow range toDay earliest today = some window →
        window.days = daily.points.length := by
  obtain ⟨a, k, hk, hspans⟩ := exists_spans hfrom hto hle hlast
  refine ⟨k + 1, dailyOf rows window (daysFrom a k), cumulativeOf rows window (daysFrom a k), ?_,
    seriesAgree_of_spans hspans hk hle hdays hnodup, ?_⟩
  · intro fuel hfuel
    exact ⟨dailySeries_run hspans hk hfuel, cumulativeSeries_run hspans hk hfuel⟩
  · intro range toDay earliest today hwindow
    rw [rangeWindow_days hspans hk hwindow]
    unfold dailyOf
    rw [List.length_map, length_daysFrom]

/-- Three days over a leap day, with sales before, inside and after. -/
theorem salesSeries_agree_leapDay :
    let rows : List DailySalesRow := [⟨"2028-03-01", 1, 2, 500⟩, ⟨"2028-02-27", 2, 3, 900⟩,
      ⟨"2028-02-28", 1, 2, 700⟩, ⟨"2028-03-02", 1, 1, 300⟩]
    let window : ReportWindow := ⟨"2028-02-28", "2028-03-01", 3, .all, "2028-03-01"⟩
    ∃ enough daily cumulative,
      (∀ fuel, enough ≤ fuel → dailySeries fuel rows window = some daily ∧
        cumulativeSeries fuel rows window = some cumulative) ∧
      SeriesAgree rows window daily cumulative ∧
      ∀ range toDay earliest today, rangeWindow range toDay earliest today = some window →
        window.days = daily.points.length := by
  have h27 : IsDay "2028-02-27" := ⟨21241, by unfold Ordinary; decide, by decide +kernel⟩
  have h28 : IsDay "2028-02-28" := ⟨21242, by unfold Ordinary; decide, by decide +kernel⟩
  have h1 : IsDay "2028-03-01" := ⟨21244, by unfold Ordinary; decide, by decide +kernel⟩
  have h2 : IsDay "2028-03-02" := ⟨21245, by unfold Ordinary; decide, by decide +kernel⟩
  refine salesSeries_agree _ _ ?_ (by decide +kernel) h28 h1 (by decide +kernel)
    (by decide +kernel)
  intro r hr
  simp only [List.mem_cons, List.not_mem_nil, or_false] at hr
  rcases hr with rfl | rfl | rfl | rfl
  · exact h1
  · exact h27
  · exact h28
  · exact h2

end Agreement

end EchoAndAura
