import EchoAndAura.FixedWindow
import EchoAndAura.SignIn

/-!
# Attempts under several rules

`allow` counts an attempt under each of its rules and lets it through where every rule still has
room.  The counts of any number of attempts at once reach the store one after another.  Whatever the
rules are, in any stretch shorter than a rule's window at most twice its limit of attempts are let
through under one key, and a count past the limit comes only when the limit was reached within the
window before it (`limiter_bounds`).
-/

namespace EchoAndAura

open FixedWindow

/-- One count: when it reaches the store, of which attempt, under which rule. -/
structure RuleHit where
  now : Time
  attempt : Nat
  rule : RateLimitRule

namespace RateLimitStore

def count (store : RateLimitStore) (h : RuleHit) : RateLimitStore × Nat :=
  store.hit h.now h.rule.key h.rule.windowSeconds

/-- The replies to counts one after another. -/
def replies : RateLimitStore → List RuleHit → List (RuleHit × Nat)
  | _, [] => []
  | store, h :: hs => (h, (store.count h).2) :: replies (store.count h).1 hs

def after (store : RateLimitStore) (hits : List RuleHit) : RateLimitStore :=
  hits.foldl (fun store h => (store.count h).1) store

end RateLimitStore

/-- `allow`: every rule of the attempt had room. -/
def letThrough (replies : List (RuleHit × Nat)) (attempt : Nat) : Bool :=
  (replies.filter (·.1.attempt == attempt)).all fun r => r.2 ≤ r.1.rule.limit

/-- The attempts counted under a key in a stretch of time that were let through. -/
def attemptsThrough (replies : List (RuleHit × Nat)) (key : String) (lo hi : Time) : List Nat :=
  ((replies.filter fun r => r.1.rule.key == key && decide (lo ≤ r.1.now) &&
    decide (r.1.now ≤ hi)).map (·.1.attempt)).dedup.filter (letThrough replies)

/-- A window of so many seconds. -/
def ruleMeter (seconds limit : Nat) : Meter Time where
  past start now := !decide (now < start + 1000 * seconds)
  limit := limit

theorem ruleMeter_past (seconds limit : Nat) (start now : Time) :
    (ruleMeter seconds limit).past start now = !decide (now < start + 1000 * seconds) := rfl

/-- The times a key is counted at. -/
def hitTimes (key : String) (hits : List RuleHit) : List Time :=
  (hits.filter (·.rule.key == key)).map (·.now)

section Windows

variable {store : RateLimitStore} {key : String} {seconds limit : Nat} {now : Time}

/-- The window of a key, from when its counter began. -/
def RateLimitStore.ruleWindow (store : RateLimitStore) (key : String) (seconds : Nat) :
    Option (Window Time) :=
  (store.lookup key).map fun c => ⟨c.expires - 1000 * seconds, c.count⟩

theorem RateLimitStore.hit_ruleWindow (store : RateLimitStore) (now : Time) (key : String)
    (seconds limit : Nat) :
    (store.hit now key seconds).2 =
        (FixedWindow.hit (ruleMeter seconds limit) (store.ruleWindow key seconds) now).count ∧
      (store.hit now key seconds).1.ruleWindow key seconds =
        some (FixedWindow.hit (ruleMeter seconds limit) (store.ruleWindow key seconds) now) := by
  have hnew : (RateLimitStore.ruleWindow (store.insert key
      ⟨1, now + 1000 * seconds, store.begun key + 1⟩) key seconds) = some ⟨now, 1⟩ := by
    rw [ruleWindow, Table.lookup_insert_eq, if_pos rfl, Option.map_some, Int.add_sub_cancel]
  rcases hc : store.lookup key with _ | c
  · have hlive : store.live now key = none := by rw [live, hc]; rfl
    have hwindow : store.ruleWindow key seconds = none := by rw [ruleWindow, hc]; rfl
    rw [RateLimitStore.hit, hlive, hwindow]
    exact ⟨rfl, hnew⟩
  · have hwindow : store.ruleWindow key seconds = some ⟨c.expires - 1000 * seconds, c.count⟩ := by
      rw [ruleWindow, hc]
      rfl
    have hback : c.expires - 1000 * seconds + 1000 * seconds = c.expires := Int.sub_add_cancel ..
    by_cases hopen : now < c.expires
    · have hlive : store.live now key = some c := by
        rw [live, hc, Option.filter_some, if_pos (decide_eq_true hopen)]
      have hpast : (ruleMeter seconds limit).past (c.expires - 1000 * seconds) now = false := by
        rw [ruleMeter_past, hback, decide_eq_true hopen, Bool.not_true]
      rw [RateLimitStore.hit, hlive, hwindow, hit_open hpast]
      refine ⟨rfl, ?_⟩
      rw [ruleWindow, Table.lookup_insert_eq, if_pos rfl]
      rfl
    · have hlive : store.live now key = none := by
        rw [live, hc, Option.filter_some, if_neg (by simpa using hopen)]
      have hpast : (ruleMeter seconds limit).past (c.expires - 1000 * seconds) now = true := by
        rw [ruleMeter_past, hback, decide_eq_false hopen, Bool.not_false]
      rw [RateLimitStore.hit, hlive, hwindow, hit_past hpast]
      exact ⟨rfl, hnew⟩

theorem RateLimitStore.hit_ruleWindow_other {key' : String} (h : key' ≠ key) (seconds' : Nat) :
    (store.hit now key' seconds').1.ruleWindow key seconds = store.ruleWindow key seconds := by
  unfold RateLimitStore.hit ruleWindow
  split <;> rw [Table.lookup_insert_eq, if_neg (Ne.symm h)]

end Windows

section Runs

variable {key : String} {seconds limit : Nat} {lo hi : Time}

/-- Counts under a key all use one limit and one window. -/
def OneRule (key : String) (seconds limit : Nat) (hits : List RuleHit) : Prop :=
  ∀ h ∈ hits, h.rule.key = key → h.rule.windowSeconds = seconds ∧ h.rule.limit = limit

theorem hitTimes_cons_pos {h : RuleHit} (hkey : h.rule.key = key) (hits : List RuleHit) :
    hitTimes key (h :: hits) = h.now :: hitTimes key hits := by
  rw [hitTimes, List.filter_cons, if_pos (beq_iff_eq.2 hkey), List.map_cons]
  rfl

theorem hitTimes_cons_neg {h : RuleHit} (hkey : h.rule.key ≠ key) (hits : List RuleHit) :
    hitTimes key (h :: hits) = hitTimes key hits := by
  rw [hitTimes, List.filter_cons, if_neg (mt beq_iff_eq.1 hkey)]
  rfl

theorem hitTimes_sublist (hits : List RuleHit) :
    (hitTimes key hits).Sublist (hits.map (·.now)) :=
  List.filter_sublist.map _

/-- The counts of a key run through its windows, whatever else is counted between them. -/
theorem replies_run : ∀ {hits : List RuleHit} {store : RateLimitStore},
    OneRule key seconds limit hits →
      ((store.replies hits).filter (·.1.rule.key == key)).map
          (fun r => (r.1.now, decide (r.2 ≤ r.1.rule.limit))) =
        FixedWindow.run (ruleMeter seconds limit) (store.ruleWindow key seconds)
          (hitTimes key hits)
  | [], _, _ => rfl
  | h :: hits, store, hrule => by
    have hrest : OneRule key seconds limit hits := fun h' hh => hrule h' (List.mem_cons_of_mem h hh)
    have ih := @replies_run hits (store.count h).1 hrest
    by_cases hkey : h.rule.key = key
    · obtain ⟨hseconds, hlimit⟩ := hrule h List.mem_cons_self hkey
      obtain ⟨hcount, hwindow⟩ := store.hit_ruleWindow h.now key seconds limit
      have hhit : store.count h = store.hit h.now key seconds := by
        rw [RateLimitStore.count, hkey, hseconds]
      rw [hhit, hwindow] at ih
      rw [RateLimitStore.replies, List.filter_cons, if_pos (beq_iff_eq.2 hkey), List.map_cons, hhit,
        ih, hcount, hlimit, hitTimes_cons_pos hkey]
      rfl
    · have hother : (store.count h).1.ruleWindow key seconds = store.ruleWindow key seconds :=
        RateLimitStore.hit_ruleWindow_other hkey h.rule.windowSeconds
      rw [hother] at ih
      rw [RateLimitStore.replies, List.filter_cons, if_neg (mt beq_iff_eq.1 hkey), ih,
        hitTimes_cons_neg hkey]

theorem after_ruleWindow : ∀ {hits : List RuleHit} {store : RateLimitStore},
    OneRule key seconds limit hits →
      (store.after hits).ruleWindow key seconds =
        windowAfter (ruleMeter seconds limit) (store.ruleWindow key seconds) (hitTimes key hits)
  | [], _, _ => rfl
  | h :: hits, store, hrule => by
    have hrest : OneRule key seconds limit hits := fun h' hh => hrule h' (List.mem_cons_of_mem h hh)
    have ih := @after_ruleWindow hits (store.count h).1 hrest
    show ((store.count h).1.after hits).ruleWindow key seconds = _
    rw [ih]
    by_cases hkey : h.rule.key = key
    · obtain ⟨hseconds, -⟩ := hrule h List.mem_cons_self hkey
      rw [RateLimitStore.count, hkey, hseconds, (store.hit_ruleWindow h.now key seconds limit).2,
        hitTimes_cons_pos hkey]
      rfl
    · have hother : (store.count h).1.ruleWindow key seconds = store.ruleWindow key seconds :=
        RateLimitStore.hit_ruleWindow_other hkey h.rule.windowSeconds
      rw [hother, hitTimes_cons_neg hkey]

/-- An attempt let through under a key is a hit its window let through. -/
theorem attemptsThrough_le (replies : List (RuleHit × Nat)) :
    (attemptsThrough replies key lo hi).length ≤
      passed lo hi ((replies.filter (·.1.rule.key == key)).map
        fun r => (r.1.now, decide (r.2 ≤ r.1.rule.limit))) := by
  refine le_trans ((List.dedup_sublist _).filter _).length_le ?_
  rw [List.filter_map, List.length_map, List.filter_filter, ← List.countP_eq_length_filter, passed,
    List.countP_map, List.countP_filter]
  refine List.countP_mono_left fun r hr h => ?_
  simp only [Function.comp_apply, Bool.and_eq_true, beq_iff_eq, decide_eq_true_eq] at h ⊢
  obtain ⟨hthrough, ⟨hkey, hlo⟩, hhi⟩ := h
  have hroom := List.all_eq_true.1 hthrough r (List.mem_filter.2 ⟨hr, beq_iff_eq.2 rfl⟩)
  exact ⟨⟨⟨of_decide_eq_true hroom, hlo⟩, hhi⟩, hkey⟩

end Runs

/-- Whatever else is counted between them, the counts of a key whose rule has one limit and one
window let at most twice the limit of attempts through in a stretch shorter than the window, and a
count past the limit follows as many others less than a window ago. -/
theorem limiter_bounds (hits : List RuleHit) (key : String) (seconds limit : Nat) (lo : Time)
    (hclock : (hits.map (·.now)).Pairwise (· ≤ ·)) (hrule : OneRule key seconds limit hits) :
    (attemptsThrough (RateLimitStore.replies ∅ hits) key lo (lo + 1000 * seconds - 1)).length ≤
        2 * limit ∧
      ∀ before h after, hits = before ++ h :: after → h.rule.key = key →
        limit < ((RateLimitStore.after ∅ before).count h).2 →
        limit ≤ before.countP fun b =>
          b.rule.key == key && decide (h.now < b.now + 1000 * seconds) := by
  refine ⟨?_, ?_⟩
  · refine le_trans (attemptsThrough_le _) ?_
    rw [replies_run hrule]
    refine passed_within (fun s t hs _ ht => ?_) (hclock.sublist (hitTimes_sublist hits))
    have hopen : t < s + 1000 * seconds := by
      unfold Time at *
      omega
    rw [ruleMeter_past, decide_eq_true hopen, Bool.not_true]
  · rintro before h after rfl hkey hover
    have hbefore : OneRule key seconds limit before := fun b hb =>
      hrule b (List.mem_append_left _ hb)
    obtain ⟨hseconds, -⟩ := hrule h (List.mem_append_right _ List.mem_cons_self) hkey
    have hsorted : (hitTimes key before ++ [h.now]).Pairwise (· ≤ ·) := by
      refine hclock.sublist ?_
      rw [List.map_append, List.map_cons]
      exact (hitTimes_sublist before).append (List.Sublist.cons_cons h.now (List.nil_sublist _))
    have hnone : RateLimitStore.ruleWindow ∅ key seconds = none := rfl
    rw [RateLimitStore.count, hkey, hseconds,
      (RateLimitStore.hit_ruleWindow _ h.now key seconds limit).1, after_ruleWindow hbefore,
      hnone] at hover
    rcases crowded (m := ruleMeter seconds limit) hsorted hover with hzero | ⟨s, -, hpast, hcount⟩
    · rw [show limit = 0 from hzero]
      exact Nat.zero_le _
    · refine le_trans hcount ?_
      rw [ruleMeter_past, Bool.not_eq_false', decide_eq_true_eq] at hpast
      rw [hitTimes, List.countP_map, List.countP_filter]
      refine List.countP_mono_left fun b _ hb => ?_
      simp only [Function.comp_apply, Bool.and_eq_true, beq_iff_eq, decide_eq_true_eq] at hb ⊢
      refine ⟨hb.2, lt_of_lt_of_le hpast ?_⟩
      have := hb.1
      unfold Time at *
      omega

/-- Eleven attempts of one IP, each a millisecond after the other, and a failure of the first. -/
def elevenAttempts : List RuleHit :=
  (List.range 11).map (fun n => ⟨Int.ofNat n, n, ipRule "ip"⟩) ++ [⟨11, 0, failedRule "ip" "a"⟩]

/-- The eleventh is refused. -/
theorem limiter_bounds_eleven :
    (attemptsThrough (RateLimitStore.replies ∅ elevenAttempts) (ipRule "ip").key 0
        (0 + 1000 * perIpSeconds - 1)) = List.range 10 ∧
      (attemptsThrough (RateLimitStore.replies ∅ elevenAttempts) (ipRule "ip").key 0
        (0 + 1000 * perIpSeconds - 1)).length ≤ 2 * perIpLimit ∧
      ∀ before h after, elevenAttempts = before ++ h :: after → h.rule.key = (ipRule "ip").key →
        perIpLimit < ((RateLimitStore.after ∅ before).count h).2 →
        perIpLimit ≤ before.countP fun b =>
          b.rule.key == (ipRule "ip").key && decide (h.now < b.now + 1000 * perIpSeconds) := by
  have hrule : OneRule (ipRule "ip").key perIpSeconds perIpLimit elevenAttempts := by
    intro h hh hkey
    rcases List.mem_append.1 hh with hh | hh
    · obtain ⟨n, -, rfl⟩ := List.mem_map.1 hh
      exact ⟨rfl, rfl⟩
    · rw [List.mem_singleton.1 hh] at hkey
      exact absurd hkey (by decide)
  exact ⟨by decide +kernel,
    limiter_bounds elevenAttempts (ipRule "ip").key perIpSeconds perIpLimit 0 (by decide) hrule⟩

end EchoAndAura
