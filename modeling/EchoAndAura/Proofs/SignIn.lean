import EchoAndAura.SignIn
import EchoAndAura.Stepwise
import Mathlib.Algebra.Order.Ring.Nat

/-!
# The sign-in throttle bounds guesses

Every hit of a counter is counted in one window, so a bound on the calls a counter lets through in
a window is an invariant of the counter and of the calls under way.  The IP's counter is hit before
the call goes on, and bounds the calls of any run (`IpHeld`).  The failures are counted only after
the auth library has answered, and bound the wrong passwords of a run whose checks leave room for
those still under way (`PairHeld`, `Metered`).  An IP sees nothing of another's calls (`Sees`).
-/

namespace EchoAndAura

section Windows

namespace RateLimitStore

variable {store : RateLimitStore} {now : Time} {key key' : String} {seconds : Nat}

theorem live_insert (store : RateLimitStore) (now : Time) (key key' : String) (c : Counter) :
    live (store.insert key c) now key' =
      if key' = key then (some c).filter (now < ·.expires) else store.live now key' := by
  unfold live
  rw [Table.lookup_insert_eq]
  split_ifs <;> rfl

theorem begun_insert (store : RateLimitStore) (key key' : String) (c : Counter) :
    begun (store.insert key c) key' = if key' = key then c.number else store.begun key' := by
  unfold begun
  rw [Table.lookup_insert_eq]
  split_ifs <;> rfl

theorem live_eq_some {c : Counter} (h : store.live now key = some c) :
    store.lookup key = some c ∧ now < c.expires := by
  unfold live at h
  rw [Option.filter_eq_some_iff] at h
  exact ⟨h.1, by simpa using h.2⟩

theorem begun_of_live {c : Counter} (h : store.live now key = some c) :
    store.begun key = c.number := by
  unfold begun
  rw [(live_eq_some h).1]
  rfl

theorem later (now : Int) (hseconds : 0 < seconds) : now < now + 1000 * (seconds : Int) := by
  omega

theorem hit_count : (store.hit now key seconds).2 = store.peek now key + 1 := by
  unfold hit peek
  cases store.live now key <;> rfl

/-- A hit adds one to its own counter and to no other. -/
theorem peek_hit (hseconds : 0 < seconds) :
    peek (store.hit now key seconds).1 now key' =
      if key' = key then store.peek now key' + 1 else store.peek now key' := by
  unfold hit
  cases h : store.live now key with
  | none =>
    have hnow : now < now + 1000 * (seconds : Int) := later now hseconds
    simp only [peek, live_insert, Option.filter_some, hnow, decide_true, if_true]
    split_ifs with hk
    · subst hk
      rw [h]
      rfl
    · rfl
  | some c =>
    have hlive := (live_eq_some h).2
    simp only [peek, live_insert, Option.filter_some, hlive, decide_true, if_true]
    split_ifs with hk
    · subst hk
      rw [h]
      rfl
    · rfl

/-- A hit is counted in the window that was to come, and begins no other. -/
theorem window_hit (hseconds : 0 < seconds) :
    window (store.hit now key seconds).1 now key' = store.window now key' := by
  unfold hit
  cases h : store.live now key with
  | none =>
    have hnow : now < now + 1000 * (seconds : Int) := later now hseconds
    simp only [window, live_insert, begun_insert, Option.filter_some, hnow, decide_true, if_true]
    split_ifs with hk
    · subst hk
      rw [h]
      rfl
    · rfl
  | some c =>
    have hlive := (live_eq_some h).2
    simp only [window, live_insert, begun_insert, Option.filter_some, hlive, decide_true, if_true]
    split_ifs with hk
    · subst hk
      rw [h]
      rfl
    · rfl

/-- Time passing leaves a counter as it is or ends its window. -/
theorem after_wait (store : RateLimitStore) (now : Time) (key : String) (d : Nat) :
    (store.peek (now + d) key = store.peek now key ∧
        store.window (now + d) key = store.window now key) ∨
      (store.peek (now + d) key = 0 ∧
        store.window (now + d) key = store.window now key + 1) := by
  cases h : store.live now key with
  | none =>
    left
    have hlater : store.live (now + d) key = none := by
      unfold live at h ⊢
      cases hl : store.lookup key with
      | none => rfl
      | some c =>
        rw [hl] at h
        simp only [Option.filter_some, decide_eq_true_eq, ite_eq_right_iff, reduceCtorEq, imp_false,
          not_lt] at h ⊢
        exact h.trans (Int.le_add_of_nonneg_right (Int.natCast_nonneg d))
    simp only [peek, window, h, hlater, and_self]
  | some c =>
    obtain ⟨hl, hc⟩ := live_eq_some h
    by_cases hd : now + d < c.expires
    · left
      have hlater : store.live (now + d) key = some c := by
        unfold live
        rw [hl]
        simp [hd]
      simp only [peek, window, h, hlater, and_self]
    · right
      have hlater : store.live (now + d) key = none := by
        unfold live
        rw [hl]
        simpa using hd
      simp only [peek, window, h, hlater, begun_of_live h, Option.map_none, Option.getD_none,
        Option.map_some, Option.getD_some, and_self]

end RateLimitStore

end Windows

section Keys

theorem split_at_first {α : Type} {x : α} : ∀ {a a' b b' : List α}, x ∉ a → x ∉ a' →
    a ++ x :: b = a' ++ x :: b' → a = a' ∧ b = b'
  | [], [], _, _, _, _, h => ⟨rfl, by simpa using h⟩
  | [], y :: a', _, _, _, hx, h => by
    simp only [List.nil_append, List.cons_append, List.cons.injEq] at h
    exact absurd (h.1 ▸ List.mem_cons_self) hx
  | y :: a, [], _, _, hx, _, h => by
    simp only [List.nil_append, List.cons_append, List.cons.injEq] at h
    exact absurd (h.1 ▸ List.mem_cons_self) hx
  | y :: a, y' :: a', b, b', hx, hx', h => by
    simp only [List.cons_append, List.cons.injEq] at h
    have ih := split_at_first (fun hm => hx (List.mem_cons_of_mem _ hm))
      (fun hm => hx' (List.mem_cons_of_mem _ hm)) h.2
    exact ⟨by rw [h.1, ih.1], ih.2⟩

theorem split_at_last {α : Type} {x : α} {a a' b b' : List α} (hb : x ∉ b) (hb' : x ∉ b')
    (h : a ++ x :: b = a' ++ x :: b') : a = a' ∧ b = b' := by
  have hr := congrArg List.reverse h
  simp only [List.reverse_append, List.reverse_cons, List.append_assoc, List.cons_append,
    List.nil_append] at hr
  have hs := split_at_first (by simpa using hb) (by simpa using hb') hr
  exact ⟨List.reverse_injective hs.2, List.reverse_injective hs.1⟩

theorem ipRule_key_injective {ip ip' : String} (h : (ipRule ip).key = (ipRule ip').key) :
    ip = ip' := by
  simp only [RateLimitRule.key, ipRule] at h
  have hl := congrArg String.toList h
  simp only [String.toList_append, List.append_cancel_left_eq] at hl
  exact String.toList_injective hl

/-- No address holds a colon, so the last colon of the subject ends the IP. -/
theorem failedRule_key_injective {ip ip' email email' : String} (he : ':' ∉ email.toList)
    (he' : ':' ∉ email'.toList) (h : (failedRule ip email).key = (failedRule ip' email').key) :
    ip = ip' ∧ email = email' := by
  simp only [RateLimitRule.key, failedRule] at h
  have hl := congrArg String.toList h
  have hcolon : (":" : String).toList = [':'] := rfl
  simp only [String.toList_append, hcolon, List.append_assoc, List.append_cancel_left_eq,
    List.cons_append, List.nil_append, List.cons.injEq, true_and] at hl
  have hs := split_at_last he he' hl
  exact ⟨String.toList_injective hs.1, String.toList_injective hs.2⟩

theorem failedRule_key_ne_ipRule_key (ip email ip' : String) :
    (failedRule ip email).key ≠ (ipRule ip').key := by
  intro h
  simp only [RateLimitRule.key, ipRule, failedRule] at h
  have hl := congrArg (fun s => s.toList[22]?) h
  simp [String.toList_append] at hl

end Keys

section Counting

/-- Under way with its failures found to have room, and not yet counted. -/
def SignInStage.pending : SignInStage → Bool
  | .checking (some false) _ => false
  | .checking _ (some true) => true
  | .authenticating => true
  | .counting => true
  | _ => false

/-- Handed to the auth library and not yet counted. -/
def SignInStage.underWay : SignInStage → Bool
  | .authenticating => true
  | .counting => true
  | _ => false

namespace SignInCall

variable (ip email : String) (window : Nat) (c : SignInCall)

/-- A wrong password for `email` from `ip`. -/
def wrong : Bool := decide (c.ip = ip) && decide (c.email = email) && !c.right

def pending : Bool := c.wrong ip email && c.stage.pending

def underWay : Bool := c.wrong ip email && c.stage.underWay

/-- A wrong password handed over in a window of the failures. -/
def guess : Bool := c.wrong ip email && c.handed.any (·.2 == window)

/-- A call handed over in a window of its IP. -/
def handedOver : Bool := decide (c.ip = ip) && c.handed.any (·.1 == window)

/-- A call its IP had room for in the window it was counted in. -/
def admitted : Bool :=
  decide (c.ip = ip) && decide (c.counted = some window) &&
    ((match c.stage with
      | .checking (some true) _ => true
      | _ => false) || c.handed.isSome)

end SignInCall

namespace SignInDesk

variable (d : SignInDesk)

def count (p : SignInCall → Bool) : Nat := d.calls.total fun c => if p c then 1 else 0

/-- The failures counted so far. -/
def failures (ip email : String) : Nat := d.store.peek d.now (failedRule ip email).key

def failureWindow (ip email : String) : Nat := d.store.window d.now (failedRule ip email).key

def ipWindow (ip : String) : Nat := d.store.window d.now (ipRule ip).key

end SignInDesk

variable {d : SignInDesk} {k : CallKey} {c c' : SignInCall} {p q : SignInCall → Bool}

theorem count_set (h : d.calls.lookup k = some c) (c' : SignInCall) (p : SignInCall → Bool) :
    (d.set k c').count p + (if p c then 1 else 0) = (if p c' then 1 else 0) + d.count p :=
  Table.total_update _ h c'

theorem count_set_same (h : d.calls.lookup k = some c) (hp : p c' = p c) :
    (d.set k c').count p = d.count p := by
  have hu := count_set h c' p
  rw [hp] at hu
  omega

theorem count_set_new (h : d.calls.lookup k = none) (hp : p c = false) :
    (d.set k c).count p = d.count p := by
  have hn : (d.set k c).count p = (if p c then 1 else 0) + d.count p :=
    Table.total_insert_new _ h c
  rw [hn, hp]
  simp

theorem count_le (h : ∀ k c, d.calls.lookup k = some c → p c = true → q c = true) :
    d.count p ≤ d.count q := by
  refine List.sum_le_sum fun c hc => ?_
  obtain ⟨k, hk⟩ := Table.mem_rows.1 hc
  have hpq := h k c hk
  split_ifs with hp hq
  · exact Nat.le_refl 1
  · exact absurd (hpq hp) hq
  · exact Nat.zero_le 1
  · exact Nat.le_refl 0

theorem count_zero (h : ∀ k c, d.calls.lookup k = some c → p c = false) : d.count p = 0 := by
  refine Table.total_eq_zero fun k c hk => ?_
  rw [h k c hk]
  rfl

end Counting

section Moves

variable (lower : String → String) (validEmail longEnough : String → Bool)

/-- What one event can do. -/
inductive Moves (d : SignInDesk) : SignInEvent → SignInDesk → Prop
  | idle (e : SignInEvent) : Moves d e d
  | waits (ms : Nat) : Moves d (.wait ms) { d with now := d.now + ms }
  | begins {k : CallKey} {form : SignInForm} {human right : Bool} {c : SignInCall} :
      d.calls.lookup k = none → c.ip = k.ip → c.right = right → ':' ∉ c.email.toList →
        c.handed = none → c.counted = none →
        (c.stage = .checking none none ∨ ∃ answer, c.stage = .done answer) →
        Moves d (.start k form human right) (d.set k c)
  | asksIp {k : CallKey} {c : SignInCall} {failuresOk : Option Bool} :
      d.calls.lookup k = some c → c.stage = .checking none failuresOk →
        Moves d (.allowIp k)
          ({ d with store := (d.store.allow d.now (ipRule c.ip)).1 }.set k
            { c with
              stage := .checking (some (d.store.allow d.now (ipRule c.ip)).2) failuresOk
              counted := some (d.ipWindow c.ip) })
  | asksFailures {k : CallKey} {c : SignInCall} {ipOk : Option Bool} :
      d.calls.lookup k = some c → c.stage = .checking ipOk none →
        Moves d (.checkFailures k)
          (d.set k { c with
            stage := .checking ipOk (some (d.store.check d.now (failedRule c.ip c.email))) })
  | hands {k : CallKey} {c : SignInCall} :
      d.calls.lookup k = some c → c.stage = .checking (some true) (some true) →
        Moves d (.signInAllowed k)
          (d.set k { c with
            stage := .authenticating
            handed := some (d.ipWindow c.ip, d.failureWindow c.ip c.email) })
  | refuses {k : CallKey} {c : SignInCall} {ipOk failuresOk : Bool} :
      d.calls.lookup k = some c → c.stage = .checking (some ipOk) (some failuresOk) →
        (ipOk && failuresOk) = false →
        Moves d (.signInAllowed k)
          (d.set k { c with stage := .done (.state tooManySignIns c.rawEmail true) })
  | rejects {k : CallKey} {c : SignInCall} {twoFactorRedirect : Bool} :
      d.calls.lookup k = some c → c.stage = .authenticating → c.right = false →
        Moves d (.reply k false twoFactorRedirect) (d.set k { c with stage := .counting })
  | ends {k : CallKey} {c : SignInCall} {trouble twoFactorRedirect : Bool}
      {answer : SignInAnswer} :
      d.calls.lookup k = some c → c.stage = .authenticating → c.right = true ∨ trouble = true →
        (∀ error email, answer ≠ .state error email true) →
        Moves d (.reply k trouble twoFactorRedirect) (d.set k { c with stage := .done answer })
  | counts {k : CallKey} {c : SignInCall} :
      d.calls.lookup k = some c → c.stage = .counting →
        Moves d (.countFailedSignIn k)
          ({ d with store := (d.store.allow d.now (failedRule c.ip c.email)).1 }.set k
            { c with stage := .done (.state "Invalid email or password" c.rawEmail false) })

end Moves

section Steps

variable {lower : String → String} {validEmail longEnough : String → Bool}
variable {d : SignInDesk} {k : CallKey} {c : SignInCall}

theorem parseLogin_valid {email : String} {password : Option String} {parsed : String × String}
    (h : parseLogin lower validEmail longEnough email password = .ok parsed) : validEmail parsed.1 = true := by
  unfold parseLogin at h
  dsimp only at h
  split_ifs at h with hvalid
  cases password with
  | none => cases h
  | some password =>
    dsimp only at h
    split_ifs at h
    cases h
    simpa using hvalid

theorem beginCall_moves (hv : ∀ e, validEmail e = true → ':' ∉ e.toList) (form : SignInForm)
    (human right : Bool) (h : d.calls.lookup k = none) :
    Moves d (.start k form human right)
      (d.set k (SignInDesk.beginCall lower validEmail longEnough k.ip form human right)) := by
  unfold SignInDesk.beginCall
  dsimp only
  cases hp : parseLogin lower validEmail longEnough (form.email.getD "") form.password with
  | error message => exact .begins h rfl rfl (by simp) rfl rfl (.inr ⟨_, rfl⟩)
  | ok parsed =>
    have he := hv _ (parseLogin_valid hp)
    cases human with
    | true => exact .begins h rfl rfl he rfl rfl (.inl rfl)
    | false => exact .begins h rfl rfl he rfl rfl (.inr ⟨_, rfl⟩)

theorem allowIp_moves (h : d.calls.lookup k = some c) : Moves d (.allowIp k) (d.allowIp k c) := by
  unfold SignInDesk.allowIp
  split
  · rename_i failuresOk hs
    exact .asksIp h hs
  · exact .idle _

theorem checkFailures_moves (h : d.calls.lookup k = some c) :
    Moves d (.checkFailures k) (d.checkFailures k c) := by
  unfold SignInDesk.checkFailures
  split
  · rename_i ipOk hs
    exact .asksFailures h hs
  · exact .idle _

theorem signInAllowed_moves (h : d.calls.lookup k = some c) :
    Moves d (.signInAllowed k) (d.signInAllowed k c) := by
  unfold SignInDesk.signInAllowed
  split
  · rename_i ipOk failuresOk hs
    split_ifs with hok
    · simp only [Bool.and_eq_true] at hok
      rw [hok.1, hok.2] at hs
      exact .hands h hs
    · exact .refuses h hs (by simpa using hok)
  · exact .idle _

theorem reply_moves (h : d.calls.lookup k = some c) (trouble twoFactorRedirect : Bool) :
    Moves d (.reply k trouble twoFactorRedirect) (d.reply k c trouble twoFactorRedirect) := by
  unfold SignInDesk.reply
  split
  · rename_i hs
    unfold signInEmail
    cases trouble with
    | true => exact .ends h hs (.inr rfl) (by simp)
    | false =>
      cases hr : c.right with
      | false => simpa [hr] using Moves.rejects h hs hr
      | true =>
        cases twoFactorRedirect with
        | true => simpa [hr] using Moves.ends h hs (.inl hr) (by simp)
        | false => simpa [hr] using Moves.ends h hs (.inl hr) (by simp)
  · exact .idle _

theorem countFailedSignIn_moves (h : d.calls.lookup k = some c) :
    Moves d (.countFailedSignIn k) (d.countFailedSignIn k c) := by
  unfold SignInDesk.countFailedSignIn
  split
  · rename_i hs
    exact .counts h hs
  · exact .idle _

theorem advance_moves {e : SignInEvent} (he : e.call? = some k) (h : d.calls.lookup k = some c) :
    Moves d e (d.advance k c e) := by
  cases e with
  | start => exact .idle _
  | allowIp k' =>
    cases he
    exact allowIp_moves h
  | checkFailures k' =>
    cases he
    exact checkFailures_moves h
  | signInAllowed k' =>
    cases he
    exact signInAllowed_moves h
  | reply k' trouble twoFactorRedirect =>
    cases he
    exact reply_moves h trouble twoFactorRedirect
  | countFailedSignIn k' =>
    cases he
    exact countFailedSignIn_moves h
  | wait => exact .idle _

/-- A call's event is what it does to the call. -/
theorem step_eq_advance {e : SignInEvent} (he : e.call? = some k)
    (hs : ∀ k form human right, e ≠ .start k form human right) :
    d.step lower validEmail longEnough e = match d.calls.lookup k with
      | none => d
      | some c => d.advance k c e := by
  cases e with
  | start k' form human right => exact absurd rfl (hs k' form human right)
  | wait => cases he
  | _ =>
    cases he
    rfl

theorem step_moves (hv : ∀ e, validEmail e = true → ':' ∉ e.toList) (d : SignInDesk)
    (e : SignInEvent) : Moves d e (d.step lower validEmail longEnough e) := by
  cases hc : e.call? with
  | none =>
    cases e with
    | wait ms => exact .waits ms
    | _ => cases hc
  | some k =>
    by_cases hs : ∃ k form human right, e = .start k form human right
    · obtain ⟨k', form, human, right, rfl⟩ := hs
      simp only [SignInDesk.step]
      split_ifs with hl
      · exact beginCall_moves hv form human right hl
      · exact .idle _
    · rw [step_eq_advance hc fun k form human right h => hs ⟨k, form, human, right, h⟩]
      cases hl : d.calls.lookup k with
      | none => exact .idle _
      | some c => exact advance_moves hc hl

end Steps

section Invariants

/-- What holds of one call at any time. -/
structure CallHeld (k : CallKey) (c : SignInCall) : Prop where
  keyed : c.ip = k.ip
  plain : ':' ∉ c.email.toList
  early : ∀ ipOk failuresOk, c.stage = .checking ipOk failuresOk → c.handed = none
  refused : ∀ error email, c.stage = .done (.state error email true) → c.handed = none
  counting : c.stage = .counting → c.right = false

def CallsHeld (d : SignInDesk) : Prop := ∀ k c, d.calls.lookup k = some c → CallHeld k c

variable {d d' : SignInDesk} {e : SignInEvent} {k : CallKey} {c : SignInCall}

theorem forall_set {P : CallKey → SignInCall → Prop}
    (hP : ∀ k c, d.calls.lookup k = some c → P k c) (hc : P k c) :
    ∀ k' c', (d.set k c).calls.lookup k' = some c' → P k' c' := by
  intro k' c' h
  unfold SignInDesk.set at h
  rw [Table.lookup_insert_eq] at h
  split_ifs at h with hk
  · cases h
    rw [hk]
    exact hc
  · exact hP k' c' h

theorem CallsHeld.moves (h : CallsHeld d) (hm : Moves d e d') : CallsHeld d' := by
  cases hm with
  | idle => exact h
  | waits => exact h
  | begins hl hip hr hplain hh hc hs =>
    refine forall_set h ⟨hip, hplain, fun _ _ _ => hh, fun _ _ _ => hh, fun hst => ?_⟩
    rcases hs with hs | ⟨answer, hs⟩ <;> rw [hs] at hst <;> cases hst
  | asksIp hl hs =>
    have hc := h _ _ hl
    exact forall_set (d := { d with store := _ }) h
      ⟨hc.keyed, hc.plain, fun _ _ _ => hc.early _ _ hs, fun _ _ hd => (by cases hd),
        fun hd => (by cases hd)⟩
  | asksFailures hl hs =>
    have hc := h _ _ hl
    exact forall_set h ⟨hc.keyed, hc.plain, fun _ _ _ => hc.early _ _ hs,
      fun _ _ hd => (by cases hd), fun hd => (by cases hd)⟩
  | hands hl hs =>
    have hc := h _ _ hl
    exact forall_set h ⟨hc.keyed, hc.plain, fun _ _ hd => (by cases hd),
      fun _ _ hd => (by cases hd), fun hd => (by cases hd)⟩
  | refuses hl hs hno =>
    have hc := h _ _ hl
    exact forall_set h ⟨hc.keyed, hc.plain, fun _ _ _ => hc.early _ _ hs,
      fun _ _ _ => hc.early _ _ hs, fun hd => (by cases hd)⟩
  | rejects hl hs hr =>
    have hc := h _ _ hl
    exact forall_set h ⟨hc.keyed, hc.plain, fun _ _ hd => (by cases hd),
      fun _ _ hd => (by cases hd), fun _ => hr⟩
  | ends hl hs hr ha =>
    have hc := h _ _ hl
    refine forall_set h ⟨hc.keyed, hc.plain, fun _ _ hd => (by cases hd), fun error email hd => ?_,
      fun hd => (by cases hd)⟩
    cases hd
    exact absurd rfl (ha error email)
  | counts hl hs =>
    have hc := h _ _ hl
    exact forall_set (d := { d with store := _ }) h
      ⟨hc.keyed, hc.plain, fun _ _ hd => (by cases hd), fun _ _ hd => (by cases hd),
        fun hd => (by cases hd)⟩

/-- The windows of an IP hold as many admitted calls as its rule allows. -/
structure IpHeld (d : SignInDesk) (ip : String) : Prop where
  spent : d.count (SignInCall.admitted ip (d.ipWindow ip)) ≤ d.store.peek d.now (ipRule ip).key
  later : ∀ n, d.ipWindow ip < n → d.count (SignInCall.admitted ip n) = 0
  bound : ∀ n, d.count (SignInCall.admitted ip n) ≤ perIpLimit

/-- Fewer admitted, and the IP's counter as it was. -/
theorem IpHeld.frame {ip : String} (h : IpHeld d ip)
    (hpeek : d'.store.peek d'.now (ipRule ip).key = d.store.peek d.now (ipRule ip).key)
    (hwindow : d'.ipWindow ip = d.ipWindow ip)
    (hcount : ∀ n, d'.count (SignInCall.admitted ip n) ≤ d.count (SignInCall.admitted ip n)) :
    IpHeld d' ip where
  spent := by
    rw [hpeek, hwindow]
    exact (hcount _).trans h.spent
  later n hn := by
    rw [hwindow] at hn
    have h0 := h.later n hn
    have hle := hcount n
    omega
  bound n := (hcount n).trans (h.bound n)

/-- One more counted, and admitted where there was room. -/
theorem IpHeld.grows {ip : String} (h : IpHeld d ip)
    (hpeek : d'.store.peek d'.now (ipRule ip).key = d.store.peek d.now (ipRule ip).key + 1)
    (hwindow : d'.ipWindow ip = d.ipWindow ip)
    (hcount : ∀ n, d'.count (SignInCall.admitted ip n) =
      (if d.ipWindow ip = n ∧ d.store.peek d.now (ipRule ip).key + 1 ≤ perIpLimit then 1 else 0) +
        d.count (SignInCall.admitted ip n)) :
    IpHeld d' ip where
  spent := by
    have hs := h.spent
    rw [hpeek, hwindow, hcount]
    split_ifs <;> omega
  later n hn := by
    rw [hwindow] at hn
    rw [hcount, h.later n hn, if_neg (by omega)]
  bound n := by
    have hs := h.spent
    have hb := h.bound n
    rw [hcount]
    split_ifs with hroom
    · rw [hroom.1] at hs
      omega
    · omega

theorem count_set_le {p : SignInCall → Bool} {c' : SignInCall} (h : d.calls.lookup k = some c)
    (hp : p c' = true → p c = true) : (d.set k c').count p ≤ d.count p := by
  have hu := count_set h c' p
  by_cases hc' : p c' = true
  · rw [if_pos hc', if_pos (hp hc')] at hu
    omega
  · rw [if_neg hc'] at hu
    omega

theorem perIpSeconds_pos : 0 < perIpSeconds := by decide
theorem failedPerAddressSeconds_pos : 0 < failedPerAddressSeconds := by decide

theorem IpHeld.moves {ip : String} (h : IpHeld d ip) (hcalls : CallsHeld d) (hm : Moves d e d') :
    IpHeld d' ip := by
  cases hm with
  | idle => exact h
  | waits ms =>
    rcases RateLimitStore.after_wait d.store d.now (ipRule ip).key ms with ⟨hp, hw⟩ | ⟨hp, hw⟩
    · exact h.frame hp hw fun n => Nat.le_refl _
    · have hnext : d.count (SignInCall.admitted ip (d.ipWindow ip + 1)) = 0 := h.later _ (by omega)
      refine ⟨?_, fun n hn => ?_, h.bound⟩
      · show d.count (SignInCall.admitted ip (d.store.window (d.now + ms) (ipRule ip).key)) ≤ _
        rw [hw]
        exact hnext.le.trans (Nat.zero_le _)
      · have hn' : d.store.window d.now (ipRule ip).key + 1 < n := hw ▸ hn
        exact h.later n (by unfold SignInDesk.ipWindow; omega)
  | begins hl hip hr hplain hh hc hs =>
    refine h.frame rfl rfl fun n => (count_set_new hl ?_).le
    unfold SignInCall.admitted
    rw [hc]
    simp
  | @asksIp k c failuresOk hl hs =>
    have hh := (hcalls _ _ hl).early _ _ hs
    have hno : ∀ n, SignInCall.admitted ip n c = false := fun n => by
      simp [SignInCall.admitted, hs, hh]
    by_cases hip : c.ip = ip
    · subst hip
      have hallowed : (d.store.allow d.now (ipRule c.ip)).2 =
          decide (d.store.peek d.now (ipRule c.ip).key + 1 ≤ perIpLimit) := by
        rw [← RateLimitStore.hit_count]
        rfl
      refine h.grows ?_ (RateLimitStore.window_hit perIpSeconds_pos) fun n => ?_
      · exact (RateLimitStore.peek_hit perIpSeconds_pos).trans (if_pos rfl)
      · have hu := count_set
          (d := { d with store := (d.store.allow d.now (ipRule c.ip)).1 }) hl { c with
            stage := .checking (some (d.store.allow d.now (ipRule c.ip)).2) failuresOk
            counted := some (d.ipWindow c.ip) } (SignInCall.admitted c.ip n)
        rw [hno, if_neg Bool.false_ne_true, Nat.add_zero] at hu
        rw [hu, hallowed]
        congr 1
        by_cases hroom : d.store.peek d.now (ipRule c.ip).key + 1 ≤ perIpLimit
        · simp [SignInCall.admitted, hroom]
        · simp [SignInCall.admitted, hroom, hh]
    · have hkey : (ipRule ip).key ≠ (ipRule c.ip).key := fun hk =>
        hip (ipRule_key_injective hk).symm
      refine h.frame ?_ (RateLimitStore.window_hit perIpSeconds_pos) fun n => ?_
      · exact (RateLimitStore.peek_hit perIpSeconds_pos).trans (if_neg hkey)
      · exact count_set_le (d := { d with store := _ }) hl (by simp [SignInCall.admitted, hip])
  | @asksFailures k c ipOk hl hs =>
    refine h.frame rfl rfl fun n => count_set_le hl fun ha => ?_
    rcases ipOk with _ | _ | _ <;> simpa [SignInCall.admitted, hs] using ha
  | hands hl hs =>
    refine h.frame rfl rfl fun n => count_set_le hl fun ha => ?_
    simpa [SignInCall.admitted, hs] using ha
  | refuses hl hs hno =>
    have hh := (hcalls _ _ hl).early _ _ hs
    refine h.frame rfl rfl fun n => count_set_le hl fun ha => ?_
    simp [SignInCall.admitted, hh] at ha
  | rejects hl hs hr =>
    refine h.frame rfl rfl fun n => count_set_le hl fun ha => ?_
    simpa [SignInCall.admitted, hs] using ha
  | ends hl hs hr ha =>
    refine h.frame rfl rfl fun n => count_set_le hl fun ha => ?_
    simpa [SignInCall.admitted, hs] using ha
  | counts hl hs =>
    refine h.frame ?_ (RateLimitStore.window_hit failedPerAddressSeconds_pos) fun n => ?_
    · exact (RateLimitStore.peek_hit failedPerAddressSeconds_pos).trans
        (if_neg (failedRule_key_ne_ipRule_key _ _ _).symm)
    · refine count_set_le (d := { d with store := _ }) hl fun ha => ?_
      simpa [SignInCall.admitted, hs] using ha

end Invariants

section Pairs

variable {d d' : SignInDesk} {e : SignInEvent} {k : CallKey} {c c' : SignInCall}
variable {ip email : String}

/-- What a step is asked for.  When the failures of a wrong password are found to have room, they
have room for every other wrong password of its IP and address that is still under way too; a call
is handed over in the window its IP counted it in; and the auth library tells that a wrong password
is wrong. -/
def Metered (d : SignInDesk) : SignInEvent → Prop
  | .checkFailures k => ∀ c, d.calls.lookup k = some c → c.right = false →
      c.stage = .checking none none ∨ c.stage = .checking (some true) none →
      d.failures c.ip c.email < failedPerAddressLimit →
      d.failures c.ip c.email + d.count (SignInCall.pending c.ip c.email) < failedPerAddressLimit
  | .signInAllowed k => ∀ c, d.calls.lookup k = some c →
      c.stage = .checking (some true) (some true) → c.counted = some (d.ipWindow c.ip)
  | .reply k trouble _ => ∀ c, d.calls.lookup k = some c → c.right = false → trouble = false
  | _ => True

instance decidableMetered (d : SignInDesk) : ∀ e, Decidable (Metered d e)
  | .checkFailures k => inferInstanceAs (Decidable (∀ c ∈ d.calls.lookup k, c.right = false →
      c.stage = .checking none none ∨ c.stage = .checking (some true) none →
      d.failures c.ip c.email < failedPerAddressLimit →
      d.failures c.ip c.email + d.count (SignInCall.pending c.ip c.email) < failedPerAddressLimit))
  | .signInAllowed k => inferInstanceAs (Decidable (∀ c ∈ d.calls.lookup k,
      c.stage = .checking (some true) (some true) → c.counted = some (d.ipWindow c.ip)))
  | .reply k trouble _ => inferInstanceAs (Decidable (∀ c ∈ d.calls.lookup k,
      c.right = false → trouble = false))
  | .start .. | .allowIp _ | .countFailedSignIn _ | .wait _ => .isTrue trivial

/-- The failures of an IP and address, and the wrong passwords handed over in their windows. -/
structure PairHeld (d : SignInDesk) (ip email : String) : Prop where
  room : d.failures ip email + d.count (SignInCall.pending ip email) ≤ failedPerAddressLimit
  spent : d.count (SignInCall.guess ip email (d.failureWindow ip email)) ≤
    d.failures ip email + d.count (SignInCall.underWay ip email)
  later : ∀ n, d.failureWindow ip email < n → d.count (SignInCall.guess ip email n) = 0
  bound : ∀ n, d.count (SignInCall.guess ip email n) ≤ failedPerAddressLimit

theorem PairHeld.frame (h : PairHeld d ip email)
    (hfailures : d'.failures ip email = d.failures ip email)
    (hwindow : d'.failureWindow ip email = d.failureWindow ip email)
    (hpending : d'.count (SignInCall.pending ip email) ≤ d.count (SignInCall.pending ip email))
    (hunder : d'.count (SignInCall.underWay ip email) = d.count (SignInCall.underWay ip email))
    (hguess : ∀ n, d'.count (SignInCall.guess ip email n) = d.count (SignInCall.guess ip email n)) :
    PairHeld d' ip email where
  room := by
    have hr := h.room
    rw [hfailures]
    omega
  spent := by
    rw [hwindow, hguess, hfailures, hunder]
    exact h.spent
  later n hn := by
    rw [hwindow] at hn
    rw [hguess]
    exact h.later n hn
  bound n := by
    rw [hguess]
    exact h.bound n

theorem underWay_le_pending (d : SignInDesk) (ip email : String) :
    d.count (SignInCall.underWay ip email) ≤ d.count (SignInCall.pending ip email) := by
  refine count_le fun k c _ h => ?_
  unfold SignInCall.underWay at h
  unfold SignInCall.pending
  rw [Bool.and_eq_true] at h ⊢
  refine ⟨h.1, ?_⟩
  cases hs : c.stage <;> rw [hs] at h <;> simp [SignInStage.underWay, SignInStage.pending] at h ⊢

/-- A call of another IP or address, or with a right password, weighs nothing. -/
theorem PairHeld.set_other (h : PairHeld d ip email) (hl : d.calls.lookup k = some c)
    (hw : c.wrong ip email = false) (hw' : c'.wrong ip email = false) :
    PairHeld (d.set k c') ip email :=
  h.frame rfl rfl (count_set_same hl (by simp [SignInCall.pending, hw, hw'])).le
    (count_set_same hl (by simp [SignInCall.underWay, hw, hw']))
    fun n => count_set_same hl (by simp [SignInCall.guess, hw, hw'])

/-- A change that hands nothing over and ends nothing handed over. -/
theorem PairHeld.set_same (h : PairHeld d ip email) (hl : d.calls.lookup k = some c)
    (hw : c'.wrong ip email = c.wrong ip email) (hh : c'.handed = c.handed)
    (hu : c'.stage.underWay = c.stage.underWay)
    (hp : c'.stage.pending = true → c.stage.pending = true) : PairHeld (d.set k c') ip email := by
  refine h.frame rfl rfl (count_set_le hl ?_) (count_set_same hl ?_) fun n => count_set_same hl ?_
  · unfold SignInCall.pending
    rw [hw, Bool.and_eq_true, Bool.and_eq_true]
    exact fun hb => ⟨hb.1, hp hb.2⟩
  · unfold SignInCall.underWay
    rw [hw, hu]
  · unfold SignInCall.guess
    rw [hw, hh]

/-- A store that another counter was hit in. -/
theorem PairHeld.store_other (h : PairHeld d ip email) {store : RateLimitStore}
    (hpeek : store.peek d.now (failedRule ip email).key = d.failures ip email)
    (hwindow : store.window d.now (failedRule ip email).key = d.failureWindow ip email) :
    PairHeld { d with store := store } ip email :=
  h.frame hpeek hwindow (Nat.le_refl _) rfl fun _ => rfl

/-- A wrong password found to have room, under way from then on. -/
theorem PairHeld.joins (h : PairHeld d ip email) (hl : d.calls.lookup k = some c)
    (hh : c'.handed = c.handed) (hw : c'.wrong ip email = c.wrong ip email)
    (hu : c.stage.underWay = false) (hu' : c'.stage.underWay = false)
    (hroom : d.failures ip email + d.count (SignInCall.pending ip email) < failedPerAddressLimit) :
    PairHeld (d.set k c') ip email where
  room := by
    have hp := count_set hl c' (SignInCall.pending ip email)
    have hone : (if SignInCall.pending ip email c' then 1 else 0) ≤ 1 := by split_ifs <;> omega
    show d.failures ip email + _ ≤ _
    omega
  spent := by
    have hus : (d.set k c').count (SignInCall.underWay ip email) =
        d.count (SignInCall.underWay ip email) :=
      count_set_same hl (by simp [SignInCall.underWay, hu, hu'])
    have hg : ∀ n, (d.set k c').count (SignInCall.guess ip email n) =
        d.count (SignInCall.guess ip email n) :=
      fun n => count_set_same hl (by simp [SignInCall.guess, hw, hh])
    rw [hg, hus]
    exact h.spent
  later n hn := by
    have hg : (d.set k c').count (SignInCall.guess ip email n) =
        d.count (SignInCall.guess ip email n) :=
      count_set_same hl (by simp [SignInCall.guess, hw, hh])
    rw [hg]
    exact h.later n hn
  bound n := by
    have hg : (d.set k c').count (SignInCall.guess ip email n) =
        d.count (SignInCall.guess ip email n) :=
      count_set_same hl (by simp [SignInCall.guess, hw, hh])
    rw [hg]
    exact h.bound n

/-- A wrong password handed over. -/
theorem PairHeld.hands (h : PairHeld d ip email) (hl : d.calls.lookup k = some c)
    (hw : c.wrong ip email = true) (hw' : c'.wrong ip email = true) (hh : c.handed = none)
    {n : Nat} (hh' : c'.handed = some (n, d.failureWindow ip email))
    (hp : c.stage.pending = true) (hp' : c'.stage.pending = true)
    (hu : c.stage.underWay = false) (hu' : c'.stage.underWay = true) :
    PairHeld (d.set k c') ip email := by
  have hps : (d.set k c').count (SignInCall.pending ip email) =
      d.count (SignInCall.pending ip email) :=
    count_set_same hl (by simp [SignInCall.pending, hw, hw', hp, hp'])
  have hus := count_set hl c' (SignInCall.underWay ip email)
  have hgs := fun n => count_set hl c' (SignInCall.guess ip email n)
  simp only [SignInCall.underWay, hw, hw', hu, hu', Bool.and_true, Bool.and_false, if_true,
    Bool.false_eq_true, if_false, Nat.add_zero] at hus
  simp only [SignInCall.guess, hw, hw', hh, hh', Option.any_none, Option.any_some, Bool.true_and,
    Bool.false_eq_true, if_false, Nat.add_zero, beq_iff_eq] at hgs
  have hle := underWay_le_pending (d.set k c') ip email
  have hroom := h.room
  have hspent := h.spent
  have hunder : (d.set k c').count (SignInCall.underWay ip email) =
      1 + d.count (SignInCall.underWay ip email) := hus
  have hguess : ∀ n, (d.set k c').count (SignInCall.guess ip email n) =
      (if d.failureWindow ip email = n then 1 else 0) + d.count (SignInCall.guess ip email n) :=
    hgs
  refine ⟨?_, ?_, fun n hn => ?_, fun n => ?_⟩
  · rw [hps]
    exact hroom
  · show (d.set k c').count (SignInCall.guess ip email (d.failureWindow ip email)) ≤
      d.failures ip email + _
    rw [hguess, hunder, if_pos rfl]
    omega
  · have hn' : d.failureWindow ip email < n := hn
    rw [hguess, h.later n hn', if_neg (by omega)]
  · have hb := h.bound n
    rw [hguess]
    split_ifs with hcur
    · rw [hcur] at hspent
      omega
    · omega

end Pairs

section Runs

variable {d d' : SignInDesk} {e : SignInEvent} {k : CallKey} {c c' : SignInCall}
variable {ip email : String}

/-- A wrong password counted. -/
theorem PairHeld.counted (h : PairHeld d ip email) {store : RateLimitStore}
    (hl : d.calls.lookup k = some c)
    (hpeek : store.peek d.now (failedRule ip email).key = d.failures ip email + 1)
    (hwindow : store.window d.now (failedRule ip email).key = d.failureWindow ip email)
    (hw : c.wrong ip email = true) (hw' : c'.wrong ip email = true) (hh : c'.handed = c.handed)
    (hs : c.stage = .counting) {answer : SignInAnswer} (hs' : c'.stage = .done answer) :
    PairHeld ({ d with store := store }.set k c') ip email := by
  have hps := count_set (d := { d with store := store }) hl c' (SignInCall.pending ip email)
  have hus := count_set (d := { d with store := store }) hl c' (SignInCall.underWay ip email)
  have hgs : ∀ n, ({ d with store := store }.set k c').count (SignInCall.guess ip email n) =
      d.count (SignInCall.guess ip email n) :=
    fun n => count_set_same (d := { d with store := store }) hl
      (by simp [SignInCall.guess, hw, hw', hh])
  simp only [SignInCall.pending, SignInCall.underWay, hw, hw', hs, hs', SignInStage.pending,
    SignInStage.underWay, Bool.and_self, Bool.and_false, Bool.false_eq_true, if_true, if_false,
    Nat.zero_add] at hps hus
  have hpending : ({ d with store := store }.set k c').count (SignInCall.pending ip email) + 1 =
      d.count (SignInCall.pending ip email) := hps
  have hunder : ({ d with store := store }.set k c').count (SignInCall.underWay ip email) + 1 =
      d.count (SignInCall.underWay ip email) := hus
  have hroom := h.room
  have hspent := h.spent
  refine ⟨?_, ?_, fun n hn => ?_, fun n => ?_⟩
  · show store.peek d.now (failedRule ip email).key + _ ≤ _
    rw [hpeek]
    omega
  · show ({ d with store := store }.set k c').count (SignInCall.guess ip email
      (store.window d.now (failedRule ip email).key)) ≤
        store.peek d.now (failedRule ip email).key + _
    rw [hpeek, hwindow, hgs]
    omega
  · have hn' : store.window d.now (failedRule ip email).key < n := hn
    rw [hwindow] at hn'
    rw [hgs]
    exact h.later n hn'
  · rw [hgs]
    exact h.bound n

theorem PairHeld.waits (h : PairHeld d ip email) (ms : Nat) :
    PairHeld { d with now := d.now + ms } ip email := by
  rcases RateLimitStore.after_wait d.store d.now (failedRule ip email).key ms with
    ⟨hp, hw⟩ | ⟨hp, hw⟩
  · exact h.frame hp hw (Nat.le_refl _) rfl fun _ => rfl
  · have hwindow : SignInDesk.failureWindow { d with now := d.now + ms } ip email =
        d.failureWindow ip email + 1 := hw
    have hfailures : SignInDesk.failures { d with now := d.now + ms } ip email = 0 := hp
    have hnext := h.later _ (Nat.lt_succ_self _)
    have hroom := h.room
    refine ⟨?_, ?_, fun n hn => ?_, h.bound⟩
    · rw [hfailures]
      show 0 + d.count (SignInCall.pending ip email) ≤ _
      omega
    · rw [hwindow]
      show d.count (SignInCall.guess ip email (d.failureWindow ip email + 1)) ≤ _
      rw [hnext]
      exact Nat.zero_le _
    · rw [hwindow] at hn
      exact h.later n (by omega)

theorem wrong_iff {c : SignInCall} :
    c.wrong ip email = true ↔ c.ip = ip ∧ c.email = email ∧ c.right = false := by
  simp [SignInCall.wrong, and_assoc]

theorem PairHeld.moves (h : PairHeld d ip email) (hcalls : CallsHeld d)
    (hemail : ':' ∉ email.toList) (hmeter : Metered d e) (hm : Moves d e d') :
    PairHeld d' ip email := by
  cases hm with
  | idle => exact h
  | waits ms => exact h.waits ms
  | @begins k form human right c hl hip hr hplain hh hc hs =>
    have hstage : c.stage.pending = false ∧ c.stage.underWay = false := by
      rcases hs with hs | ⟨answer, hs⟩ <;> rw [hs] <;> exact ⟨rfl, rfl⟩
    refine h.frame rfl rfl (count_set_new hl ?_).le (count_set_new hl ?_)
      fun n => count_set_new hl ?_
    · simp [SignInCall.pending, hstage.1]
    · simp [SignInCall.underWay, hstage.2]
    · simp [SignInCall.guess, hh]
  | @asksIp k c failuresOk hl hs =>
    have hother : (failedRule ip email).key ≠ (ipRule c.ip).key :=
      failedRule_key_ne_ipRule_key _ _ _
    have hstore : PairHeld { d with store := (d.store.allow d.now (ipRule c.ip)).1 } ip email :=
      h.store_other ((RateLimitStore.peek_hit perIpSeconds_pos).trans (if_neg hother))
        (RateLimitStore.window_hit perIpSeconds_pos)
    refine hstore.set_same hl rfl rfl (by rw [hs]; rfl) fun hp => ?_
    rw [hs]
    cases hallow : (d.store.allow d.now (ipRule c.ip)).2 <;> rw [hallow] at hp
    · cases hp
    · rcases failuresOk with _ | _ | _
      · cases hp
      · cases hp
      · rfl
  | @asksFailures k c ipOk hl hs =>
    by_cases hjoin : c.wrong ip email = true ∧ ipOk ≠ some false ∧
        d.store.check d.now (failedRule c.ip c.email) = true
    · obtain ⟨hw, hok, hcheck⟩ := hjoin
      obtain ⟨rfl, rfl, hr⟩ := wrong_iff.1 hw
      have hroom : d.failures c.ip c.email < failedPerAddressLimit := of_decide_eq_true hcheck
      have hstage : c.stage = .checking none none ∨ c.stage = .checking (some true) none := by
        rcases ipOk with _ | _ | _
        · exact .inl hs
        · exact absurd rfl hok
        · exact .inr hs
      exact h.joins hl rfl rfl (by rw [hs]; rfl) rfl (hmeter c hl hr hstage hroom)
    · by_cases hw : c.wrong ip email = true
      · refine h.set_same hl rfl rfl (by rw [hs]; rfl) fun hp => ?_
        rcases ipOk with _ | _ | _
        · cases hcheck : d.store.check d.now (failedRule c.ip c.email) with
          | true => exact absurd ⟨hw, by simp, hcheck⟩ hjoin
          | false => simp [hcheck, SignInStage.pending] at hp
        · cases hp
        · cases hcheck : d.store.check d.now (failedRule c.ip c.email) with
          | true => exact absurd ⟨hw, by simp, hcheck⟩ hjoin
          | false => simp [hcheck, SignInStage.pending] at hp
      · exact h.set_other hl (Bool.eq_false_iff.2 hw) (Bool.eq_false_iff.2 hw)
  | @hands k c hl hs =>
    by_cases hw : c.wrong ip email = true
    · obtain ⟨rfl, rfl, hr⟩ := wrong_iff.1 hw
      exact h.hands hl hw hw ((hcalls _ _ hl).early _ _ hs) rfl (by rw [hs]; rfl) rfl
        (by rw [hs]; rfl) rfl
    · exact h.set_other hl (Bool.eq_false_iff.2 hw) (Bool.eq_false_iff.2 hw)
  | refuses hl hs hno =>
    exact h.set_same hl rfl rfl (by rw [hs]; rfl) fun hp => by cases hp
  | rejects hl hs hr =>
    exact h.set_same hl rfl rfl (by rw [hs]; rfl) fun _ => by rw [hs]; rfl
  | @ends k c trouble twoFactorRedirect answer hl hs hr ha =>
    refine h.set_other hl ?_ ?_ <;>
    · by_contra hw
      have hright := (wrong_iff.1 (by simpa using hw)).2.2
      rcases hr with hr | hr
      · exact absurd (hright.symm.trans hr) (by decide)
      · exact absurd ((hmeter c hl hright).symm.trans hr) (by decide)
  | @counts k c hl hs =>
    have hcall := hcalls _ _ hl
    by_cases hw : c.wrong ip email = true
    · obtain ⟨rfl, rfl, hr⟩ := wrong_iff.1 hw
      exact h.counted hl
        ((RateLimitStore.peek_hit failedPerAddressSeconds_pos).trans (if_pos rfl))
        (RateLimitStore.window_hit failedPerAddressSeconds_pos) hw hw rfl hs rfl
    · have hkey : (failedRule ip email).key ≠ (failedRule c.ip c.email).key := by
        intro hk
        obtain ⟨hi, he⟩ := failedRule_key_injective hemail hcall.plain hk
        exact hw (wrong_iff.2 ⟨hi.symm, he.symm, hcall.counting hs⟩)
      exact (h.store_other
        ((RateLimitStore.peek_hit failedPerAddressSeconds_pos).trans (if_neg hkey))
        (RateLimitStore.window_hit failedPerAddressSeconds_pos)).set_other hl
          (Bool.eq_false_iff.2 hw) (Bool.eq_false_iff.2 hw)

/-- What was handed over was handed over in the window it was counted in. -/
def Timely (d : SignInDesk) : Prop :=
  ∀ k c, d.calls.lookup k = some c → ∀ n m, c.handed = some (n, m) → c.counted = some n

theorem Timely.moves (h : Timely d) (hcalls : CallsHeld d) (hmeter : Metered d e)
    (hm : Moves d e d') : Timely d' := by
  cases hm with
  | idle => exact h
  | waits => exact h
  | begins hl hip hr hplain hh hc hs =>
    refine forall_set h fun n m hd => ?_
    rw [hh] at hd
    cases hd
  | asksIp hl hs =>
    refine forall_set (d := { d with store := _ }) h fun n m hd => ?_
    have hnone := (hcalls _ _ hl).early _ _ hs
    simp only [hnone, reduceCtorEq] at hd
  | asksFailures hl hs => exact forall_set h fun n m hd => h _ _ hl n m hd
  | @hands k c hl hs =>
    refine forall_set h fun n m hd => ?_
    simp only [Option.some.injEq, Prod.mk.injEq] at hd
    rw [← hd.1]
    exact hmeter c hl hs
  | refuses hl hs hno => exact forall_set h fun n m hd => h _ _ hl n m hd
  | rejects hl hs hr => exact forall_set h fun n m hd => h _ _ hl n m hd
  | ends hl hs hr ha => exact forall_set h fun n m hd => h _ _ hl n m hd
  | counts hl hs => exact forall_set (d := { d with store := _ }) h fun n m hd => h _ _ hl n m hd

end Runs

section Separation

namespace RateLimitStore

variable {store store' : RateLimitStore} {now : Time} {key key' : String} {seconds : Nat}

theorem live_congr (h : store.lookup key = store'.lookup key) :
    store.live now key = store'.live now key := by
  unfold live
  rw [h]

theorem peek_congr (h : store.lookup key = store'.lookup key) :
    store.peek now key = store'.peek now key := by
  unfold peek
  rw [live_congr h]

theorem window_congr (h : store.lookup key = store'.lookup key) :
    store.window now key = store'.window now key := by
  unfold window begun
  rw [live_congr h, h]

theorem hit_count_congr (h : store.lookup key = store'.lookup key) :
    (store.hit now key seconds).2 = (store'.hit now key seconds).2 := by
  rw [hit_count, hit_count, peek_congr h]

theorem lookup_hit_other (h : key' ≠ key) :
    (store.hit now key seconds).1.lookup key' = store.lookup key' := by
  unfold hit
  cases store.live now key with
  | none => exact (Table.lookup_insert_eq _ _ _ _).trans (if_neg h)
  | some c => exact (Table.lookup_insert_eq _ _ _ _).trans (if_neg h)

theorem lookup_hit_congr (h : store.lookup key = store'.lookup key)
    (h' : store.lookup key' = store'.lookup key') :
    (store.hit now key seconds).1.lookup key' = (store'.hit now key seconds).1.lookup key' := by
  by_cases hk : key' = key
  · subst hk
    unfold hit
    rw [live_congr h]
    cases hlive : store'.live now key' with
    | none =>
      unfold begun
      rw [h]
      simp only [Table.lookup_insert_eq, if_true]
    | some c => simp only [Table.lookup_insert_eq, if_true]
  · rw [lookup_hit_other hk, lookup_hit_other hk, h']

end RateLimitStore

/-- The counters of an IP. -/
def KeyOf (ip key : String) : Prop :=
  key = (ipRule ip).key ∨ ∃ email, ':' ∉ email.toList ∧ key = (failedRule ip email).key

/-- Two desks an IP cannot tell apart. -/
structure Sees (ip : String) (d d' : SignInDesk) : Prop where
  now : d.now = d'.now
  calls : ∀ n, d.calls.lookup ⟨ip, n⟩ = d'.calls.lookup ⟨ip, n⟩
  store : ∀ key, KeyOf ip key → d.store.lookup key = d'.store.lookup key

variable {d d' : SignInDesk} {e : SignInEvent} {k : CallKey} {c c' : SignInCall}
variable {ip email : String}

theorem Sees.refl (ip : String) (d : SignInDesk) : Sees ip d d :=
  ⟨rfl, fun _ => rfl, fun _ _ => rfl⟩

theorem Sees.trans {d'' : SignInDesk} (h : Sees ip d d') (h' : Sees ip d' d'') : Sees ip d d'' :=
  ⟨h.now.trans h'.now, fun n => (h.calls n).trans (h'.calls n),
    fun key hk => (h.store key hk).trans (h'.store key hk)⟩

theorem Sees.set (h : Sees ip d d') (k : CallKey) (c : SignInCall) :
    Sees ip (d.set k c) (d'.set k c) where
  now := h.now
  calls n := by
    unfold SignInDesk.set
    rw [Table.lookup_insert_eq, Table.lookup_insert_eq, h.calls]
  store := h.store

theorem Sees.set_other (hk : k.ip ≠ ip) (d : SignInDesk) (c : SignInCall) :
    Sees ip (d.set k c) d where
  now := rfl
  calls n := by
    unfold SignInDesk.set
    rw [Table.lookup_insert_eq, if_neg]
    rintro rfl
    exact hk rfl
  store _ _ := rfl

theorem keyOf_ne_ipRule {ip' key : String} (hip : ip' ≠ ip) (h : KeyOf ip key) :
    key ≠ (ipRule ip').key := by
  rcases h with rfl | ⟨email, _, rfl⟩
  · exact fun hk => hip (ipRule_key_injective hk).symm
  · exact failedRule_key_ne_ipRule_key _ _ _

theorem keyOf_ne_failedRule {ip' key : String} (hip : ip' ≠ ip) (he : ':' ∉ email.toList)
    (h : KeyOf ip key) : key ≠ (failedRule ip' email).key := by
  rcases h with rfl | ⟨email', he', rfl⟩
  · exact (failedRule_key_ne_ipRule_key _ _ _).symm
  · exact fun hk => hip (failedRule_key_injective he' he hk).1.symm

/-- A call of another IP changes nothing an IP sees. -/
theorem Sees.moves_other (hcalls : CallsHeld d) (hm : Moves d e d') (he : e.call? = some k)
    (hk : k.ip ≠ ip) : Sees ip d' d := by
  cases hm with
  | idle => exact .refl ip d
  | waits => cases he
  | begins =>
    cases he
    exact .set_other hk _ _
  | @asksIp k' c failuresOk hl hs =>
    cases he
    have hip : c.ip ≠ ip := fun h => hk ((hcalls _ _ hl).keyed.symm.trans h)
    exact (Sees.set_other hk _ _).trans ⟨rfl, fun _ => rfl,
      fun key hkey => RateLimitStore.lookup_hit_other (keyOf_ne_ipRule hip hkey)⟩
  | asksFailures =>
    cases he
    exact .set_other hk _ _
  | hands =>
    cases he
    exact .set_other hk _ _
  | refuses =>
    cases he
    exact .set_other hk _ _
  | rejects =>
    cases he
    exact .set_other hk _ _
  | ends =>
    cases he
    exact .set_other hk _ _
  | @counts k' c hl hs =>
    cases he
    have hcall := hcalls _ _ hl
    have hip : c.ip ≠ ip := fun h => hk (hcall.keyed.symm.trans h)
    exact (Sees.set_other hk _ _).trans ⟨rfl, fun _ => rfl,
      fun key hkey => RateLimitStore.lookup_hit_other (keyOf_ne_failedRule hip hcall.plain hkey)⟩

theorem Sees.hit (h : Sees ip d d') {key : String} (hkey : KeyOf ip key) (seconds : Nat) :
    Sees ip { d with store := (d.store.hit d.now key seconds).1 }
      { d' with store := (d'.store.hit d.now key seconds).1 } :=
  ⟨h.now, h.calls, fun key' hkey' =>
    RateLimitStore.lookup_hit_congr (h.store key hkey) (h.store key' hkey')⟩

theorem Sees.advance (h : Sees ip d d') (hc : CallHeld k c) (hk : k.ip = ip) (e : SignInEvent) :
    Sees ip (d.advance k c e) (d'.advance k c e) := by
  obtain ⟨store, calls, now⟩ := d
  obtain ⟨store', calls', now'⟩ := d'
  obtain rfl : now = now' := h.now
  have hip : c.ip = ip := hc.keyed.trans hk
  have hipKey : KeyOf ip (ipRule c.ip).key := .inl (by rw [hip])
  have hfailedKey : KeyOf ip (failedRule c.ip c.email).key := .inr ⟨c.email, hc.plain, by rw [hip]⟩
  have hipStore : store.lookup (ipRule c.ip).key = store'.lookup (ipRule c.ip).key :=
    h.store _ hipKey
  have hfailedStore : store.lookup (failedRule c.ip c.email).key =
      store'.lookup (failedRule c.ip c.email).key := h.store _ hfailedKey
  cases e with
  | start => exact h
  | wait => exact h
  | allowIp =>
    dsimp only [SignInDesk.advance, SignInDesk.allowIp]
    split
    · dsimp only [RateLimitStore.allow]
      rw [RateLimitStore.window_congr hipStore, RateLimitStore.hit_count_congr hipStore]
      exact (h.hit hipKey _).set _ _
    · exact h
  | checkFailures =>
    dsimp only [SignInDesk.advance, SignInDesk.checkFailures]
    split
    · unfold RateLimitStore.check
      rw [RateLimitStore.peek_congr hfailedStore]
      exact h.set _ _
    · exact h
  | signInAllowed =>
    dsimp only [SignInDesk.advance, SignInDesk.signInAllowed]
    split
    · rw [RateLimitStore.window_congr hfailedStore, RateLimitStore.window_congr hipStore]
      split_ifs
      · exact h.set _ _
      · exact h.set _ _
    · exact h
  | reply _ trouble twoFactorRedirect =>
    dsimp only [SignInDesk.advance, SignInDesk.reply]
    split
    · exact h.set _ _
    · exact h
  | countFailedSignIn =>
    dsimp only [SignInDesk.advance, SignInDesk.countFailedSignIn]
    split
    · dsimp only [RateLimitStore.allow]
      exact (h.hit hfailedKey _).set _ _
    · exact h

variable {lower : String → String} {validEmail longEnough : String → Bool}

theorem Sees.step (h : Sees ip d d') (hcalls : CallsHeld d)
    (he : ∀ k, e.call? = some k → k.ip = ip) :
    Sees ip (d.step lower validEmail longEnough e) (d'.step lower validEmail longEnough e) := by
  cases hc : e.call? with
  | none =>
    cases e with
    | wait ms => exact ⟨congrArg (· + (ms : Int)) h.now, h.calls, h.store⟩
    | _ => cases hc
  | some k =>
    obtain ⟨ip', n⟩ := k
    have hip : ip' = ip := he _ hc
    subst hip
    by_cases hs : ∃ k form human right, e = .start k form human right
    · obtain ⟨k', form, human, right, rfl⟩ := hs
      cases hc
      simp only [SignInDesk.step]
      rw [h.calls n]
      split_ifs
      · exact h.set _ _
      · exact h
    · have hne : ∀ k form human right, e ≠ .start k form human right :=
        fun k form human right hs' => hs ⟨k, form, human, right, hs'⟩
      rw [step_eq_advance hc hne, step_eq_advance hc hne, ← h.calls n]
      cases hl : d.calls.lookup ⟨ip', n⟩ with
      | none => exact h
      | some c => exact h.advance (hcalls _ _ hl) rfl e

end Separation

section Throttle

variable (lower : String → String) (validEmail longEnough : String → Bool) (now : Time)

/-- The desk after some events. -/
def signIns (events : List SignInEvent) : SignInDesk :=
  events.foldl (SignInDesk.step lower validEmail longEnough) (SignInDesk.initial now)

def SignInEvent.notOf (other : String) (e : SignInEvent) : Bool :=
  decide (e.call?.map (·.ip) ≠ some other)

/-- What the throttle is for. -/
structure Throttled (events : List SignInEvent) : Prop where
  /-- Wrong passwords of an IP for an address, in one window of their failures. -/
  guesses : ∀ ip email window, (signIns lower validEmail longEnough now events).count
    (SignInCall.guess ip email window) ≤ failedPerAddressLimit
  /-- Calls of an IP, in one window of the IP. -/
  attempts : ∀ ip window, (signIns lower validEmail longEnough now events).count
    (SignInCall.handedOver ip window) ≤ perIpLimit
  refused : ∀ k c error email, (signIns lower validEmail longEnough now events).calls.lookup k = some c →
    c.stage = .done (.state error email true) → c.handed = none
  /-- Nothing a right password's call does changes a counter of failures. -/
  spares : ∀ k c e, (signIns lower validEmail longEnough now events).calls.lookup k = some c →
    c.right = true → e.call? = some k → ∀ ip email,
    ((signIns lower validEmail longEnough now events).step lower validEmail longEnough e).store.lookup
        (failedRule ip email).key =
      (signIns lower validEmail longEnough now events).store.lookup (failedRule ip email).key
  /-- The calls of an IP go as they would without another's. -/
  apart : ∀ ip other, other ≠ ip → ∀ n,
    (signIns lower validEmail longEnough now events).calls.lookup ⟨ip, n⟩ =
      (signIns lower validEmail longEnough now (events.filter (·.notOf other))).calls.lookup ⟨ip, n⟩

variable {lower : String → String} {validEmail longEnough : String → Bool} {now : Time}

theorem callsHeld_initial (now : Time) : CallsHeld (SignInDesk.initial now) := by
  intro k c h
  simp [SignInDesk.initial] at h

theorem count_initial (now : Time) (p : SignInCall → Bool) :
    (SignInDesk.initial now).count p = 0 := rfl

theorem ipHeld_initial (now : Time) (ip : String) : IpHeld (SignInDesk.initial now) ip where
  spent := by
    rw [count_initial]
    exact Nat.zero_le _
  later n _ := count_initial now _
  bound n := by
    rw [count_initial]
    exact Nat.zero_le _

theorem pairHeld_initial (now : Time) (ip email : String) :
    PairHeld (SignInDesk.initial now) ip email where
  room := by
    rw [count_initial]
    exact Nat.zero_le _
  spent := by
    rw [count_initial]
    exact Nat.zero_le _
  later n _ := count_initial now _
  bound n := by
    rw [count_initial]
    exact Nat.zero_le _

theorem callsHeld_foldl (hv : ∀ e, validEmail e = true → ':' ∉ e.toList) :
    ∀ (events : List SignInEvent) {d : SignInDesk}, CallsHeld d →
      CallsHeld (events.foldl (SignInDesk.step lower validEmail longEnough) d)
  | [], _, h => h
  | e :: events, d, h => by
    show CallsHeld (events.foldl (SignInDesk.step lower validEmail longEnough)
      (d.step lower validEmail longEnough e))
    exact callsHeld_foldl hv events (h.moves (step_moves hv d e))

/-- Leaving out another IP's calls changes nothing an IP sees. -/
theorem sees_filter (hv : ∀ e, validEmail e = true → ':' ∉ e.toList) {ip other : String}
    (ho : other ≠ ip) : ∀ (events : List SignInEvent) {d d' : SignInDesk}, CallsHeld d →
      CallsHeld d' → Sees ip d d' →
      Sees ip (events.foldl (SignInDesk.step lower validEmail longEnough) d)
        ((events.filter (·.notOf other)).foldl (SignInDesk.step lower validEmail longEnough) d')
  | [], _, _, _, _, h => h
  | e :: events, d, d', hd, hd', h => by
    have hd₁ : CallsHeld (d.step lower validEmail longEnough e) := hd.moves (step_moves hv d e)
    have hd₁' : CallsHeld (d'.step lower validEmail longEnough e) := hd'.moves (step_moves hv d' e)
    by_cases he : e.notOf other = true
    · rw [List.filter_cons_of_pos he]
      refine sees_filter hv ho events hd₁ hd₁' ?_
      by_cases hown : ∀ k, e.call? = some k → k.ip = ip
      · exact h.step hd hown
      · push Not at hown
        obtain ⟨k, hk, hne⟩ := hown
        have hout : Sees ip (d.step lower validEmail longEnough e) d :=
          .moves_other hd (step_moves hv d e) hk hne
        have hout' : Sees ip (d'.step lower validEmail longEnough e) d' :=
          .moves_other hd' (step_moves hv d' e) hk hne
        exact (hout.trans h).trans ⟨hout'.now.symm, fun n => (hout'.calls n).symm,
          fun key hkey => (hout'.store key hkey).symm⟩
    · rw [List.filter_cons_of_neg he]
      refine sees_filter hv ho events hd₁ hd' ?_
      have hof : e.call?.map (·.ip) = some other := by
        unfold SignInEvent.notOf at he
        simpa using he
      obtain ⟨k, hk, hko⟩ := Option.map_eq_some_iff.1 hof
      have hne : k.ip ≠ ip := by
        rw [hko]
        exact ho
      have hout : Sees ip (d.step lower validEmail longEnough e) d :=
        .moves_other hd (step_moves hv d e) hk hne
      exact hout.trans h

theorem lookup_failed_of_right {d d' : SignInDesk} {e : SignInEvent} {k : CallKey}
    {c : SignInCall} (hcalls : CallsHeld d) (hm : Moves d e d') (he : e.call? = some k)
    (hl : d.calls.lookup k = some c) (hr : c.right = true) (ip email : String) :
    d'.store.lookup (failedRule ip email).key = d.store.lookup (failedRule ip email).key := by
  cases hm with
  | asksIp =>
    exact RateLimitStore.lookup_hit_other (failedRule_key_ne_ipRule_key _ _ _)
  | counts hl' hs =>
    cases he
    cases hl.symm.trans hl'
    exact absurd (((hcalls _ _ hl).counting hs).symm.trans hr) (by decide)
  | _ => rfl

/-- A call handed over in a window of its IP had been admitted in it. -/
theorem handedOver_le_admitted {d : SignInDesk} (h : Timely d) (ip : String) (window : Nat) :
    d.count (SignInCall.handedOver ip window) ≤ d.count (SignInCall.admitted ip window) := by
  refine count_le fun k c hl hc => ?_
  unfold SignInCall.handedOver at hc
  rw [Bool.and_eq_true, decide_eq_true_eq] at hc
  obtain ⟨hip, hany⟩ := hc
  obtain ⟨⟨n, m⟩, hh, hn⟩ := (Option.any_eq_true _ _).1 hany
  have hwindow : n = window := by simpa using hn
  have hcounted := h k c hl n m hh
  simp [SignInCall.admitted, hip, hcounted, hwindow, hh]

theorem guess_of_colon {d : SignInDesk} (hcalls : CallsHeld d) {ip email : String}
    (he : ':' ∈ email.toList) (window : Nat) :
    d.count (SignInCall.guess ip email window) = 0 := by
  refine count_zero fun k c hl => ?_
  have hne : c.email ≠ email := by
    rintro rfl
    exact (hcalls k c hl).plain he
  simp [SignInCall.guess, SignInCall.wrong, hne]

theorem signIns_throttled (hv : ∀ e, validEmail e = true → ':' ∉ e.toList)
    {events : List SignInEvent}
    (h : EveryStep (SignInDesk.step lower validEmail longEnough) Metered (SignInDesk.initial now) events) :
    Throttled lower validEmail longEnough now events := by
  have hcalls : CallsHeld (signIns lower validEmail longEnough now events) :=
    callsHeld_foldl hv events (callsHeld_initial now)
  have hheld := EveryStep.keeps
    (I := fun d => CallsHeld d ∧ Timely d ∧ (∀ ip, IpHeld d ip) ∧
      ∀ ip email, ':' ∉ email.toList → PairHeld d ip email)
    (fun d e hI hmeter => by
      have hm : Moves d e (d.step lower validEmail longEnough e) := step_moves hv d e
      exact ⟨hI.1.moves hm, hI.2.1.moves hI.1 hmeter hm, fun ip => (hI.2.2.1 ip).moves hI.1 hm,
        fun ip email he => (hI.2.2.2 ip email he).moves hI.1 he hmeter hm⟩)
    ⟨callsHeld_initial now, fun k c hl => by simp [SignInDesk.initial] at hl,
      ipHeld_initial now, fun ip email _ => pairHeld_initial now ip email⟩ h
  obtain ⟨-, htimely, hips, hpairs⟩ := hheld
  refine ⟨fun ip email window => ?_, fun ip window => ?_, fun k c error email hl hs => ?_,
    fun k c e hl hr he ip email => ?_, fun ip other ho n => ?_⟩
  · by_cases he : ':' ∈ email.toList
    · rw [guess_of_colon hcalls he]
      exact Nat.zero_le _
    · exact (hpairs ip email he).bound window
  · exact (handedOver_le_admitted htimely ip window).trans ((hips ip).bound window)
  · exact (hcalls k c hl).refused error email hs
  · exact lookup_failed_of_right hcalls (step_moves hv _ e) he hl hr ip email
  · exact (sees_filter hv ho events (callsHeld_initial now) (callsHeld_initial now)
      (.refl ip _)).calls n

section Guesses

/-- An address with an at sign and no colon. -/
def plainEmail (e : String) : Bool := e.toList.contains '@' && !e.toList.contains ':'

theorem plainEmail_no_colon (e : String) (h : plainEmail e = true) : ':' ∉ e.toList := by
  unfold plainEmail at h
  rw [Bool.and_eq_true] at h
  simpa using h.2

/-- The guesses of one IP at the admin's password, one after another or all at once. -/
def guessForm : SignInForm := ⟨some "admin@example.com", some "password1"⟩

def guessKey (n : Nat) : CallKey := ⟨"203.0.113.9", n⟩

def askAll (n : Nat) : List SignInEvent :=
  [.start (guessKey n) guessForm true false, .allowIp (guessKey n), .checkFailures (guessKey n)]

/-- Some guesses at once, each to its end. -/
def burst (ns : List Nat) : List SignInEvent :=
  ns.flatMap askAll ++ ns.map (fun n => .signInAllowed (guessKey n)) ++
    ns.map (fun n => .reply (guessKey n) false false) ++
    ns.map fun n => .countFailedSignIn (guessKey n)

def eightLong (password : String) : Bool := 8 ≤ password.length

/-- Three guesses at once, two at once, and one that is refused. -/
theorem signIns_throttled_bursts :
    ((signIns id plainEmail eightLong 0 (burst [0, 1, 2] ++ burst [3, 4] ++ burst [5])).calls.lookup
      (guessKey 5)).map (·.stage) = some (.done (.state tooManySignIns "admin@example.com" true)) ∧
    Throttled id plainEmail eightLong 0 (burst [0, 1, 2] ++ burst [3, 4] ++ burst [5]) :=
  ⟨by decide +kernel, signIns_throttled plainEmail_no_colon (by decide +kernel)⟩

/-- Six wrong passwords at once all find the failures to have room. -/
theorem signIns_six_at_once : ¬ ∀ (lower : String → String) (validEmail longEnough : String → Bool)
    (now : Time) (events : List SignInEvent), (∀ e, validEmail e = true → ':' ∉ e.toList) →
      Throttled lower validEmail longEnough now events := by
  intro h
  have hsix := (h id plainEmail eightLong 0 ((List.range 6).flatMap askAll ++
    (List.range 6).map fun n => .signInAllowed (guessKey n)) plainEmail_no_colon).guesses
      "203.0.113.9" "admin@example.com" 1
  revert hsix
  decide +kernel

end Guesses

end Throttle

end EchoAndAura
