import EchoAndAura.TwoFactor

/-!
# No password-only session survives the setup

Nothing opens a session without a code once two-factor is on, so what is left to end is what was
open before (`NoWeaker`).  The confirmation ends the sessions opened before the clock it read, which
is before its code check: all of them, where every session the password alone has opened is older
than that clock reading when the code check takes effect (`OpenedBefore`).  A sign-in between the
two is not.
-/

namespace EchoAndAura

namespace AdminDesk

/-- The session was opened by the password alone. -/
def PasswordOnly (d : AdminDesk) (id : Id) (session : AdminSession) : Prop :=
  d.sessions.lookup id = some session ∧ session.origin = .password

/-- Two-factor stays on, and no session is opened by the password alone while it is. -/
structure NoWeaker (d d' : AdminDesk) : Prop where
  on : d.twoFactorEnabled = true → d'.twoFactorEnabled = true
  sessions : d.twoFactorEnabled = true → ∀ id session, d'.PasswordOnly id session →
    d.PasswordOnly id session
  confirmed : d'.confirmed = d.confirmed

/-- Once a confirmation is done, two-factor is on and every session has had a code. -/
def Enrolled (d : AdminDesk) : Prop :=
  0 < d.confirmed → d.twoFactorEnabled = true ∧ ∀ id session, ¬ d.PasswordOnly id session

/-- Once a confirmation is done, a session that `requireAdmin` lets through was opened by a call
that had checked a code. -/
def Coded (d : AdminDesk) : Prop :=
  0 < d.confirmed → ∀ cookie session, d.requireAdmin cookie = .ok session →
    ∃ opened, d.sessions.lookup cookie = some opened ∧ opened.origin = .code

variable {d d' d'' : AdminDesk}

theorem lookup_of_requireAdmin {cookie : Id} {session : PublicSession}
    (h : d.requireAdmin cookie = .ok session) : ∃ opened, d.sessions.lookup cookie = some opened := by
  rcases hl : d.sessions.lookup cookie with _ | opened
  · simp [requireAdmin, requireAdminPendingTwoFactor, getPublicSession, hl, bind, Except.bind] at h
  · exact ⟨opened, rfl⟩

theorem Enrolled.coded (h : d.Enrolled) : d.Coded := by
  intro hdone cookie session hadmin
  obtain ⟨opened, hl⟩ := lookup_of_requireAdmin hadmin
  refine ⟨opened, hl, ?_⟩
  rcases ho : opened.origin with _ | _
  · exact absurd ⟨hl, ho⟩ ((h hdone).2 cookie opened)
  · rfl

theorem NoWeaker.refl (d : AdminDesk) : d.NoWeaker d := ⟨id, fun _ _ _ h => h, rfl⟩

theorem NoWeaker.trans (h : d.NoWeaker d') (h' : d'.NoWeaker d'') : d.NoWeaker d'' :=
  ⟨fun hon => h'.on (h.on hon),
    fun hon id session hs => h.sessions hon id session (h'.sessions (h.on hon) id session hs),
    h'.confirmed.trans h.confirmed⟩

theorem NoWeaker.enrolled (h : d.NoWeaker d') (hd : d.Enrolled) : d'.Enrolled := by
  intro hc
  rw [h.confirmed] at hc
  obtain ⟨hon, hnone⟩ := hd hc
  exact ⟨h.on hon, fun id session hs => hnone id session (h.sessions hon id session hs)⟩

theorem passwordOnly_openSession {id : Id} {session : AdminSession}
    (h : (d.openSession .code).PasswordOnly id session) : d.PasswordOnly id session := by
  obtain ⟨hs, ho⟩ := h
  have hs' : (d.sessions.insert d.nextSession ⟨d.now, .code⟩).lookup id = some session := hs
  rw [Table.lookup_insert_eq] at hs'
  split_ifs at hs' with hid
  · obtain rfl := Option.some.inj hs'
    cases ho
  · exact ⟨hs', ho⟩

theorem passwordOnly_endSession {id id' : Id} {session : AdminSession}
    (h : (d.endSession id').PasswordOnly id session) :
    d.PasswordOnly id session ∧ id ≠ id' := by
  obtain ⟨hs, ho⟩ := h
  have hs' : (d.sessions.erase id').lookup id = some session := hs
  rw [Table.lookup_erase_eq] at hs'
  split_ifs at hs' with hid
  exact ⟨⟨hs', ho⟩, hid⟩

theorem passwordOnly_revoke {before : Time} {id : Id} {session : AdminSession}
    (h : (d.revokeSessionsCreatedBefore before).PasswordOnly id session) :
    d.PasswordOnly id session ∧ ¬ session.createdAt < before := by
  obtain ⟨hs, ho⟩ := h
  obtain ⟨hs', hkept⟩ := Table.lookup_filter.1 hs
  simp only [Bool.not_eq_true'] at hkept
  exact ⟨⟨hs', ho⟩, of_decide_eq_false hkept⟩

theorem noWeaker_openSession (d : AdminDesk) : d.NoWeaker (d.openSession .code) :=
  ⟨id, fun _ _ _ h => passwordOnly_openSession h, rfl⟩

theorem noWeaker_endSession (d : AdminDesk) (id : Id) : d.NoWeaker (d.endSession id) :=
  ⟨fun h => h, fun _ _ _ h => (passwordOnly_endSession h).1, rfl⟩

theorem noWeaker_signInEmail {password : String} {codes : List SecondFactor} :
    d.NoWeaker (d.signInEmail password codes).1 := by
  unfold signInEmail
  split_ifs with hp hon
  · exact NoWeaker.refl d
  · exact NoWeaker.refl d
  · exact ⟨fun h => absurd h hon, fun h => absurd h hon, rfl⟩

theorem noWeaker_enableTwoFactor {password : String} {factor : Factor} :
    d.NoWeaker (d.enableTwoFactor password factor) := by
  unfold enableTwoFactor
  split_ifs
  · exact NoWeaker.refl d
  · exact ⟨fun h => h, fun _ _ _ h => h, rfl⟩

variable {totp : String → Time → String → Bool}

theorem noWeaker_verifyCode {code : SecondFactor} (h : d.verifyCode totp code = some d') :
    d.NoWeaker d' := by
  cases code with
  | totp code =>
    simp only [verifyCode] at h
    split_ifs at h
    obtain rfl := Option.some.inj h
    exact noWeaker_openSession d
  | backup code =>
    simp only [verifyCode] at h
    split at h
    · cases h
    · split_ifs at h
      obtain rfl := Option.some.inj h
      exact ⟨fun h => h, fun _ _ _ h => passwordOnly_openSession h, rfl⟩

/-- The code check: two-factor is on, and what the password alone has opened was there before, the
confirming session apart. -/
theorem verifyTOTP_spec {cookie : Id} {code : String} (h : d.verifyTOTP totp cookie code = some d') :
    d.NoWeaker d' ∧ d'.twoFactorEnabled = true ∧
      ∀ id session, d'.PasswordOnly id session → d.PasswordOnly id session ∧ id ≠ cookie := by
  unfold verifyTOTP at h
  split_ifs at h
  obtain rfl := Option.some.inj h
  have left (id session)
      (hs : (({ d with twoFactorEnabled := true }.endSession cookie).openSession
        .code).PasswordOnly id session) : d.PasswordOnly id session ∧ id ≠ cookie :=
    passwordOnly_endSession (passwordOnly_openSession hs)
  exact ⟨⟨fun _ => rfl, fun _ id session hs => (left id session hs).1, rfl⟩, rfl, left⟩

end AdminDesk

/-- A confirmation about to end the older sessions leaves no session without a code. -/
def AdminStage.EndsAll (d : AdminDesk) (t : AdminStage) : Prop :=
  ∀ before, t = .revoking before → d.twoFactorEnabled = true ∧
    ∀ id session, d.PasswordOnly id session → session.createdAt < before

theorem AdminDesk.NoWeaker.endsAll {d d' : AdminDesk} {t : AdminStage} (h : d.NoWeaker d')
    (ht : t.EndsAll d) : t.EndsAll d' := by
  intro before hb
  obtain ⟨hon, hold⟩ := ht before hb
  exact ⟨h.on hon, fun id session hs => hold id session (h.sessions hon id session hs)⟩

/-- When a confirmation's code check takes effect, every other session the password alone has opened
is older than the clock the confirmation has read; and the delete after it does not fail. -/
def OpenedBefore (totp : String → Time → String → Bool) (s : Tasks AdminDesk AdminStage) :
    Turn AdminRequest CallOutcome AdminChange → Prop
  | .go i out =>
    (out ≠ .failed → ∀ cookie code before, s.tasks[i]? = some (.verifying cookie code before) →
      s.state.rightCode totp code = true → ∀ id session, s.state.PasswordOnly id session →
        id ≠ cookie → session.createdAt < before) ∧
    (out = .failed → ∀ before, s.tasks[i]? ≠ some (.revoking before))
  | _ => True

section Run

variable {totp : String → Time → String → Bool} {d : AdminDesk} {s : Tasks AdminDesk AdminStage}

theorem noWeaker_revoke (d : AdminDesk) (before : Time) :
    d.NoWeaker (d.revokeSessionsCreatedBefore before) :=
  ⟨fun h => h, fun _ _ _ h => (AdminDesk.passwordOnly_revoke h).1, rfl⟩

/-- What a call leaves, but for the one that ends the older sessions. -/
theorem noWeaker_effect {t : AdminStage} (ht : ∀ before, t ≠ .revoking before) :
    d.NoWeaker (d.effect totp t).1 := by
  cases t with
  | signingIn password codes => exact AdminDesk.noWeaker_signInEmail
  | challenged codes =>
    rcases codes with _ | ⟨code, codes⟩
    · exact AdminDesk.NoWeaker.refl d
    · simp only [AdminDesk.effect]
      split
      · rename_i hv
        exact AdminDesk.noWeaker_verifyCode hv
      · exact AdminDesk.NoWeaker.refl d
  | enabling cookie password factor =>
    simp only [AdminDesk.effect]
    split_ifs
    · exact AdminDesk.noWeaker_enableTwoFactor
    · exact AdminDesk.NoWeaker.refl d
  | verifying cookie code before =>
    simp only [AdminDesk.effect]
    split
    · rename_i hv
      exact (AdminDesk.verifyTOTP_spec hv).1
    · exact AdminDesk.NoWeaker.refl d
  | revoking before => exact absurd rfl (ht before)
  | starting | confirming | throttling => exact AdminDesk.NoWeaker.refl d

/-- Only a code check that takes effect goes on to end the older sessions. -/
theorem revoking_of_effect {t : AdminStage} {before : Time}
    (h : (d.effect totp t).2 = some (.revoking before)) :
    ∃ cookie code, t = .verifying cookie code before ∧
      d.verifyTOTP totp cookie code = some (d.effect totp t).1 := by
  cases t with
  | signingIn password codes =>
    simp only [AdminDesk.effect, AdminDesk.signInEmail] at h
    split_ifs at h
    all_goals simp at h
  | challenged codes =>
    rcases codes with _ | ⟨code, codes⟩
    · simp [AdminDesk.effect] at h
    · simp only [AdminDesk.effect] at h
      split at h <;> simp at h
  | verifying cookie code before' =>
    simp only [AdminDesk.effect] at h ⊢
    split at h
    · rename_i hv
      simp only [Option.some.injEq, AdminStage.revoking.injEq] at h
      exact ⟨cookie, code, h ▸ rfl, by rw [hv]⟩
    · simp at h
  | confirming cookie code =>
    simp only [AdminDesk.effect] at h
    split_ifs at h
    simp at h
  | starting =>
    simp only [AdminDesk.effect] at h
    split_ifs at h
    simp at h
  | enabling | throttling | revoking => simp [AdminDesk.effect] at h

theorem rightCode_of_verifyTOTP {d' : AdminDesk} {cookie : Id} {code : String}
    (h : d.verifyTOTP totp cookie code = some d') : d.rightCode totp code = true := by
  unfold AdminDesk.verifyTOTP at h
  split_ifs at h with hc
  exact hc.2

theorem next_enrolled {t : AdminStage} {out : CallOutcome} {others : List AdminStage}
    (hI : d.Enrolled) (ht : t.EndsAll d)
    (hopen : out ≠ .failed → ∀ cookie code before, t = .verifying cookie code before →
      d.rightCode totp code = true → ∀ id session, d.PasswordOnly id session →
        id ≠ cookie → session.createdAt < before)
    (hdelete : out = .failed → ∀ before, t ≠ .revoking before) :
    (d.next totp t out).1.Enrolled ∧
      (∀ t', (d.next totp t out).2 = some t' → t'.EndsAll (d.next totp t out).1) ∧
      ∀ u ∈ others, u.EndsAll d → u.EndsAll (d.next totp t out).1 := by
  by_cases hfailed : out = .failed
  · subst hfailed
    have stays : d.next totp t .failed = (d, none) := by
      cases t with
      | revoking before => exact absurd rfl (hdelete rfl before)
      | _ => rfl
    rw [stays]
    exact ⟨hI, by simp, fun _ _ hu => hu⟩
  have taken : (d.next totp t out).1 = (d.effect totp t).1 ∧
      ∀ t', (d.next totp t out).2 = some t' → (d.effect totp t).2 = some t' := by
    cases out with
    | ok => exact ⟨rfl, fun _ h => h⟩
    | lost => exact ⟨rfl, by simp [AdminDesk.next]⟩
    | failed => exact absurd rfl hfailed
  rw [taken.1]
  by_cases hrev : ∃ before, t = .revoking before
  · obtain ⟨before, rfl⟩ := hrev
    obtain ⟨hon, hold⟩ := ht before rfl
    refine ⟨fun _ => ⟨hon, fun id session hs => ?_⟩, fun t' ht' => ?_, fun u _ hu => ?_⟩
    · obtain ⟨hwas, hkept⟩ := @AdminDesk.passwordOnly_revoke d before _ _ hs
      exact hkept (hold id session hwas)
    · cases taken.2 t' ht'
    · exact (noWeaker_revoke d before).endsAll hu
  have weaker : d.NoWeaker (d.effect totp t).1 :=
    noWeaker_effect fun before hb => hrev ⟨before, hb⟩
  refine ⟨weaker.enrolled hI, fun t' ht' before hb => ?_, fun u _ hu => weaker.endsAll hu⟩
  subst hb
  obtain ⟨cookie, code, hverify, hv⟩ := revoking_of_effect (taken.2 _ ht')
  obtain ⟨-, hon, hleft⟩ := AdminDesk.verifyTOTP_spec hv
  refine ⟨hon, fun id session hs => ?_⟩
  obtain ⟨hwas, hne⟩ := hleft id session hs
  exact hopen hfailed cookie code before hverify (rightCode_of_verifyTOTP hv) id session hwas hne

theorem step_enrolled (e : Turn AdminRequest CallOutcome AdminChange)
    (h : s.Sound AdminDesk.Enrolled AdminStage.EndsAll) (he : OpenedBefore totp s e) :
    (s.step (adminWork totp) e).Sound AdminDesk.Enrolled AdminStage.EndsAll := by
  cases e with
  | start q =>
    refine h.start fun before hb => ?_
    cases q <;> cases hb
  | world w =>
    cases w with
    | clock t => exact h.world h.state fun _ _ ht => ht
    | endSession id =>
      have weaker := AdminDesk.noWeaker_endSession s.state id
      exact h.world (weaker.enrolled h.state) fun _ _ ht => weaker.endsAll ht
  | go i out =>
    refine h.go fun t hi ht => next_enrolled h.state ht ?_ ?_
    · intro hout cookie code before ht'
      exact he.1 hout cookie code before (ht' ▸ hi)
    · intro hout before ht'
      exact he.2 hout before (ht' ▸ hi)

end Run

/-- Where no password-only session is opened at or after the clock a confirmation reads, and still
open at its code check, a session that `requireAdmin` lets through once a confirmation is done was
opened by a call that had checked a code. -/
theorem requireAdmin_coded (totp : String → Time → String → Bool) (d : AdminDesk)
    (hd : d.confirmed = 0) (turns : List (Turn AdminRequest CallOutcome AdminChange))
    (hopened : EveryStep (Tasks.step (adminWork totp)) (OpenedBefore totp) ⟨d, []⟩ turns) :
    ((⟨d, []⟩ : Tasks AdminDesk AdminStage).run (adminWork totp) turns).state.Coded := by
  have start : (⟨d, []⟩ : Tasks AdminDesk AdminStage).Sound AdminDesk.Enrolled AdminStage.EndsAll :=
    ⟨fun h => absurd h (by simp [hd]), by simp⟩
  exact (start.run (fun s e h => step_enrolled e h) hopened).state.coded

/-- An admin who has not set the factor up, signed in at a tenth. -/
def newAdmin : AdminDesk :=
  { role := "admin", password := "pw", twoFactorEnabled := false, factor := some ⟨"secret", []⟩
    sessions := AList.singleton 0 ⟨10, .password⟩, nextSession := 1, now := 100, confirmed := 0 }

/-- A factor whose code never changes. -/
def fixedCode (_ : String) (_ : Time) (code : String) : Bool := code == "123456"

/-- A second device signs in, and the first one confirms a code. -/
def signInThenConfirm : List (Turn AdminRequest CallOutcome AdminChange) :=
  [.start (.signIn "pw" []), .go 0 .ok, .world (.clock 101), .start (.confirmSetup 0 "123 456"),
    .go 0 .ok, .go 0 .ok, .world (.clock 102), .go 0 .ok, .go 0 .ok]

/-- The same sign-in, between the clock the confirmation reads and its code check. -/
def signInWhileConfirming : List (Turn AdminRequest CallOutcome AdminChange) :=
  [.start (.confirmSetup 0 "123 456"), .go 0 .ok, .go 0 .ok, .world (.clock 101),
    .start (.signIn "pw" []), .go 1 .ok, .world (.clock 102), .go 0 .ok, .go 0 .ok]

def adminAfter (turns : List (Turn AdminRequest CallOutcome AdminChange)) : AdminDesk :=
  ((⟨newAdmin, []⟩ : Tasks AdminDesk AdminStage).run (adminWork fixedCode) turns).state

theorem signedIn_before {id : Id} {session : AdminSession}
    (h : ((AList.singleton 0 ⟨10, .password⟩ : Table Id AdminSession).insert 1
      ⟨100, .password⟩).lookup id = some session) : session.createdAt < 101 := by
  rw [Table.lookup_insert_eq] at h
  split_ifs at h
  · obtain rfl := Option.some.inj h
    decide
  · obtain ⟨-, rfl⟩ := Table.lookup_singleton.1 h
    decide

theorem requireAdmin_coded_otherDevice :
    (adminAfter signInThenConfirm).Coded ∧ (adminAfter signInThenConfirm).confirmed = 1 ∧
      (adminAfter signInThenConfirm).requireAdmin 2 = .ok ⟨.admin, true⟩ := by
  refine ⟨requireAdmin_coded fixedCode newAdmin rfl signInThenConfirm ?_, by decide, by rfl⟩
  refine ⟨trivial, ⟨?_, ?_⟩, trivial, trivial, ⟨?_, ?_⟩, ⟨?_, ?_⟩, trivial, ⟨?_, ?_⟩, ⟨?_, ?_⟩,
    trivial⟩
  case refine_7 =>
    rintro - cookie code before ⟨⟩ - id session ⟨hs, -⟩ -
    exact signedIn_before hs
  all_goals
    intro hout
    first
    | cases hout
    | intro cookie code before h
      cases h

/-- A session the password alone has opened between the clock reading and the code check stays, and
passes as one that has had a code. -/
theorem requireAdmin_passwordOnly :
    ¬ (adminAfter signInWhileConfirming).Coded ∧ (adminAfter signInWhileConfirming).confirmed = 1 ∧
      (adminAfter signInWhileConfirming).sessions.lookup 1 = some ⟨101, .password⟩ ∧
      (adminAfter signInWhileConfirming).requireAdmin 1 = .ok ⟨.admin, true⟩ := by
  refine ⟨fun h => ?_, by decide, by decide, by rfl⟩
  obtain ⟨opened, hl, ho⟩ := h (by decide) 1 ⟨.admin, true⟩ rfl
  have : opened = ⟨101, .password⟩ := (Option.some.inj hl).symm
  subst this
  cases ho

end EchoAndAura
