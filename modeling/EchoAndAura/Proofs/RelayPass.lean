import EchoAndAura.Proofs.Lookup
import EchoAndAura.RelayPass

/-!
# The relay opens only what was signed

A signed pass opens to its claims until they expire (`verify_signed`): the base64 text gives back
its bytes, the bytes their text, the text its object.  So where no tag is forged, a token that opens
was signed with the claims it opens to (`verify_unforged`), and these decide which room it is let
into.
-/

namespace EchoAndAura

namespace Relay

open Utf16 (Units ofString)

section Codec

theorem urlChar_digitChar : ∀ n < 64, isUrlChar (urlChar (Base64.digitChar n)) = true ∧
    plainChar (urlChar (Base64.digitChar n)) = Base64.digitChar n ∧
    urlChar (Base64.digitChar n) ≠ '=' ∧ urlChar (Base64.digitChar n) ≠ '.' := by decide

theorem rdropWhile_replicate {front : List Char} {c : Char} (h : c ∉ front) (n : Nat) :
    (front ++ List.replicate n c).rdropWhile (· == c) = front := by
  have hpad : ∀ d ∈ List.replicate n c, (d == c) = true := fun d hd => by
    rw [List.eq_of_mem_replicate hd, beq_self_eq_true]
  unfold List.rdropWhile
  rw [List.reverse_append, List.reverse_replicate, List.dropWhile_append_of_pos hpad]
  cases hr : front.reverse with
  | nil =>
    rw [List.reverse_eq_nil_iff.1 hr]
    rfl
  | cons d rest =>
    have hd : ¬ (d == c) = true := fun hdc => by
      rw [beq_iff_eq] at hdc
      refine h (List.mem_reverse.1 ?_)
      rw [hr, hdc]
      exact List.mem_cons_self
    have hstop : (d :: rest).dropWhile (· == c) = d :: rest := List.dropWhile_cons_of_neg hd
    rw [hstop, ← hr, List.reverse_reverse]

theorem toBase64Url_eq (bytes : List UInt8) :
    toBase64Url bytes = (Base64.sextets bytes).map fun n => urlChar (Base64.digitChar n) := by
  have hpad : urlChar '=' = '=' := rfl
  have hnot : '=' ∉ (Base64.sextets bytes).map fun n => urlChar (Base64.digitChar n) := fun hm => by
    obtain ⟨n, hn, he⟩ := List.mem_map.1 hm
    exact (urlChar_digitChar n (Base64.sextets_lt bytes n hn)).2.2.1 he
  unfold toBase64Url Base64.btoa Base64.padding
  rw [List.map_append, List.map_map, List.map_replicate, hpad]
  exact rdropWhile_replicate hnot _

theorem fromBase64Url_toBase64Url (bytes : List UInt8) :
    fromBase64Url (toBase64Url bytes) = some bytes := by
  have hlt := Base64.sextets_lt bytes
  have hall : (toBase64Url bytes).all isUrlChar = true := by
    rw [toBase64Url_eq, List.all_eq_true]
    intro c hc
    obtain ⟨n, hn, rfl⟩ := List.mem_map.1 hc
    exact (urlChar_digitChar n (hlt n hn)).1
  have hplain : (toBase64Url bytes).map plainChar =
      (Base64.sextets bytes).map Base64.digitChar := by
    rw [toBase64Url_eq, List.map_map]
    exact List.map_congr_left fun n hn => (urlChar_digitChar n (hlt n hn)).2.1
  rw [fromBase64Url, if_pos hall, hplain, Base64.atob_unpadded]

/-- The characters of a pass, its dot apart. -/
theorem toBase64Url_plain {bytes : List UInt8} {c : Char} (h : c ∈ toBase64Url bytes) :
    isSpace c = false ∧ c ≠ ',' := by
  have hplain : ∀ n < 64, isSpace (urlChar (Base64.digitChar n)) = false ∧
      urlChar (Base64.digitChar n) ≠ ',' := by decide
  rw [toBase64Url_eq] at h
  obtain ⟨n, hn, rfl⟩ := List.mem_map.1 h
  exact hplain n (Base64.sextets_lt bytes n hn)

theorem dot_notMem (bytes : List UInt8) : '.' ∉ toBase64Url bytes := by
  rw [toBase64Url_eq]
  intro hm
  obtain ⟨n, hn, he⟩ := List.mem_map.1 hm
  exact (urlChar_digitChar n (Base64.sextets_lt bytes n hn)).2.2.2 he

theorem toBase64Url_ne_nil {bytes : List UInt8} (h : bytes ≠ []) : toBase64Url bytes ≠ [] := by
  rw [toBase64Url_eq]
  intro hnil
  have hempty := List.map_eq_nil_iff.1 hnil
  match bytes, h, hempty with
  | [], h, _ => exact h rfl
  | [_], _, he => simp [Base64.sextets] at he
  | [_, _], _, he => simp [Base64.sextets] at he
  | _ :: _ :: _ :: _, _, he => simp [Base64.sextets] at he

theorem encode_injective {text text' : List Char} (h : Utf8.encode text = Utf8.encode text') :
    text = text' := by
  rw [← Utf8.decode_encode text, h, Utf8.decode_encode]

end Codec

section Claims

variable (claims : RelayClaims)

theorem field_role : field claims.json "role" = some (.str (ofString claims.role.name)) := by
  rcases claims with ⟨_, _, _ | _, _ | _, _⟩ <;> rfl

theorem field_eventId : field claims.json "eventId" = some (.str claims.eventId) := by
  rcases claims with ⟨_, _, _ | _, _ | _, _⟩ <;> rfl

theorem field_passId : text? (field claims.json "passId") = claims.passId := by
  rcases claims with ⟨_, _, _ | _, _ | _, _⟩ <;> rfl

theorem field_gate : text? (field claims.json "gate") = claims.gate := by
  rcases claims with ⟨_, _, _ | _, _ | _, _⟩ <;> rfl

theorem field_exp : whole? (field claims.json "exp") = some claims.exp := by
  have hwhole : whole? (some (.decimal claims.exp 0)) = some claims.exp := by
    simp [whole?]
  rw [← hwhole]
  rcases claims with ⟨_, _, _ | _, _ | _, _⟩ <;> rfl

theorem hasRole_iff (role : RelayRole) : hasRole claims.json role = true ↔ claims.role = role := by
  unfold hasRole
  rw [field_role]
  rcases hrole : claims.role <;> cases role <;> decide

/-- Claims' text starts with a brace, not with a byte order mark. -/
theorem decodeText_text :
    decodeText (Utf8.encode (JsonText.text claims.json)) = JsonText.text claims.json := by
  unfold decodeText
  rw [Utf8.decode_encode, RelayClaims.json, JsonText.text]
  dsimp only
  rw [if_neg (by decide)]

theorem openBody_text (now : Time) (h : validClaims claims.json = true) :
    openBody (Utf8.encode (JsonText.text claims.json)) now =
      if now < claims.exp * 1000 then some claims.json else none := by
  unfold openBody
  rw [decodeText_text, JsonText.parse_text]
  dsimp only
  rw [h, field_exp]
  rfl

end Claims

section Tokens

variable {mac : List UInt8 → List UInt8 → List UInt8} {secret : Units} {claims : RelayClaims}

theorem splitOn_token {c : Char} {body sig : List Char} (hbody : c ∉ body) (hsig : c ∉ sig) :
    (body ++ c :: sig).splitOn c = [body, sig] := by
  have hjoin : [c].intercalate [body, sig] = body ++ c :: sig := by
    rw [List.intercalate_cons_cons, List.intercalate_singleton, List.append_assoc]
    rfl
  rw [← hjoin]
  refine List.splitOn_intercalate c ?_ (List.cons_ne_nil _ _)
  simp only [List.forall_mem_cons, List.not_mem_nil, IsEmpty.forall_iff, implies_true, and_true]
  exact ⟨hbody, hsig⟩

theorem signRelayPass_ok {token : String} (h : signRelayPass mac claims secret = .ok token) :
    validClaims claims.json = true ∧ ∃ key, hmacKey secret = .ok key ∧
      token.toList = body claims.json ++
        '.' :: toBase64Url (mac key (Utf8.encode (body claims.json))) := by
  unfold signRelayPass at h
  split_ifs at h with hvalid
  cases hkey : hmacKey secret with
  | error e =>
    rw [hkey] at h
    exact absurd h (by simp [bind, Except.bind])
  | ok key =>
    rw [hkey] at h
    have htoken := Except.ok.inj h
    rw [← htoken, String.toList_ofList]
    exact ⟨hvalid, key, rfl, rfl⟩

/-- What a signed pass opens to: its claims, until they expire. -/
theorem verify_signed (hmac : ∀ key data, (mac key data).length = 32) {token : String}
    (h : signRelayPass mac claims secret = .ok token) (now : Time) :
    verifyRelayPass mac token secret now =
      .ok (if now < claims.exp * 1000 then some claims.json else none) := by
  obtain ⟨hvalid, key, hkey, htoken⟩ := signRelayPass_ok h
  have hmacne : mac key (Utf8.encode (body claims.json)) ≠ [] := fun hnil => by
    have hlen := hmac key (Utf8.encode (body claims.json))
    rw [hnil] at hlen
    cases hlen
  have htext : Utf8.encode (JsonText.text claims.json) ≠ [] := fun hnil => by
    have hdecode := Utf8.decode_encode (JsonText.text claims.json)
    rw [hnil, RelayClaims.json, JsonText.text] at hdecode
    cases hdecode
  have hbody : body claims.json ≠ [] := toBase64Url_ne_nil htext
  unfold verifyRelayPass
  have hopened : fromBase64Url (body claims.json) =
      some (Utf8.encode (JsonText.text claims.json)) := fromBase64Url_toBase64Url _
  have hdot : '.' ∉ body claims.json := dot_notMem _
  rw [htoken, splitOn_token hdot (dot_notMem _)]
  dsimp only
  rw [if_neg (not_or.2 ⟨hbody, toBase64Url_ne_nil hmacne⟩), fromBase64Url_toBase64Url, hopened]
  dsimp only
  rw [hkey]
  show (if mac key _ = mac key _ then _ else _) = _
  rw [if_pos rfl, openBody_text claims now hvalid]

/-- A token that carries a tag, and the text it is the tag of. -/
def Carries (token : String) (data tag : List UInt8) : Prop :=
  ∃ body sig, token.toList = body ++ '.' :: sig ∧ data = Utf8.encode body ∧
    fromBase64Url sig = some tag

/-- The texts our server has signed, asked to sign these claims. -/
def signedTexts (mac : List UInt8 → List UInt8 → List UInt8) (secret : Units)
    (asked : List RelayClaims) : List (List UInt8) :=
  (asked.filter fun claims => (signRelayPass mac claims secret).toBool).map fun claims =>
    Utf8.encode (body claims.json)

/-- HMAC is not forged: a token carries a tag under the secret only of a text that was signed. -/
def Unforged (mac : List UInt8 → List UInt8 → List UInt8) (secret : Units)
    (signed : List (List UInt8)) (token : String) : Prop :=
  ∀ key data, hmacKey secret = .ok key → Carries token data (mac key data) → data ∈ signed

/-- A pass as it was signed carries its own tag alone. -/
theorem unforged_signed {asked : List RelayClaims} {token : String} (hasked : claims ∈ asked)
    (h : signRelayPass mac claims secret = .ok token) :
    Unforged mac secret (signedTexts mac secret asked) token := by
  rintro key data - ⟨text, sig, htoken, rfl, -⟩
  obtain ⟨-, key', -, hsigned⟩ := signRelayPass_ok h
  rw [hsigned] at htoken
  obtain ⟨rfl, -⟩ := (List.append_cons_inj_of_notMem (dot_notMem _) (dot_notMem _)).1 htoken
  refine List.mem_map.2 ⟨claims, List.mem_filter.2 ⟨hasked, ?_⟩, rfl⟩
  rw [h]
  rfl

theorem verify_ok {token : String} {now : Time} {value : JsonText.Value}
    (h : verifyRelayPass mac token secret now = .ok (some value)) :
    ∃ key body sig bytes, hmacKey secret = .ok key ∧ token.toList = body ++ '.' :: sig ∧
      fromBase64Url sig = some (mac key (Utf8.encode body)) ∧ fromBase64Url body = some bytes ∧
        openBody bytes now = some value := by
  unfold verifyRelayPass at h
  split at h
  · rename_i body sig hsplit
    by_cases hnil : body = [] ∨ sig = []
    · rw [if_pos hnil] at h
      cases h
    rw [if_neg hnil] at h
    split at h
    · rename_i sigBytes bodyBytes hsig hbody
      cases hkey : hmacKey secret with
      | error e =>
        rw [hkey] at h
        exact absurd h (by simp [bind, Except.bind])
      | ok key =>
        rw [hkey] at h
        change (if sigBytes = mac key (Utf8.encode body) then
          Except.ok (openBody bodyBytes now) else .ok none) = _ at h
        have htag : sigBytes = mac key (Utf8.encode body) := by
          by_contra htag
          rw [if_neg htag] at h
          cases h
        rw [if_pos htag] at h
        have hjoin : ['.'].intercalate (token.toList.splitOn '.') = token.toList :=
          List.intercalate_splitOn '.'
        rw [hsplit, List.intercalate_cons_cons, List.intercalate_singleton,
          List.append_assoc] at hjoin
        exact ⟨key, body, sig, bodyBytes, rfl, hjoin.symm, htag ▸ hsig, hbody, Except.ok.inj h⟩
    · cases h
  · cases h

theorem verify_unforged {asked : List RelayClaims} {token : String} {now : Time}
    {value : JsonText.Value} (hforge : Unforged mac secret (signedTexts mac secret asked) token)
    (h : verifyRelayPass mac token secret now = .ok (some value)) :
    ∃ claims ∈ asked, (∃ sig, token.toList = body claims.json ++ '.' :: sig) ∧
      validClaims claims.json = true ∧ value = claims.json ∧ now < claims.exp * 1000 := by
  obtain ⟨key, text, sig, bytes, hkey, htoken, hsig, hbytes, hopen⟩ := verify_ok h
  have hcarries : Carries token (Utf8.encode text) (mac key (Utf8.encode text)) :=
    ⟨text, sig, htoken, rfl, hsig⟩
  obtain ⟨claims, hsigned, hdata⟩ := List.mem_map.1 (hforge key _ hkey hcarries)
  obtain ⟨hasked, hok⟩ := List.mem_filter.1 hsigned
  have hvalid : validClaims claims.json = true := by
    cases hs : signRelayPass mac claims secret with
    | error e =>
      rw [hs] at hok
      cases hok
    | ok token => exact (signRelayPass_ok hs).1
  have htext : text = body claims.json := (encode_injective hdata).symm
  have hopened : fromBase64Url (body claims.json) =
      some (Utf8.encode (JsonText.text claims.json)) := fromBase64Url_toBase64Url _
  rw [htext, hopened, Option.some.injEq] at hbytes
  rw [← hbytes, openBody_text claims now hvalid, Option.ite_none_right_eq_some] at hopen
  obtain ⟨hexp, hvalue⟩ := hopen
  exact ⟨claims, hasked, ⟨sig, htext ▸ htoken⟩, hvalid, (Option.some.inj hvalue).symm, hexp⟩

end Tokens

section Worker

variable {mac : List UInt8 → List UInt8 → List UInt8} {env : RelayEnv} {request : RelayRequest}
variable {now : Time} {eventId : String}

theorem passFor_ok {token : String} {secret : Units} {role : RelayRole} {value : JsonText.Value}
    (h : passFor mac token secret now role eventId = .ok (some value)) :
    verifyRelayPass mac token secret now = .ok (some value) ∧ hasRole value role = true ∧
      text? (field value "eventId") = some (ofString eventId) := by
  unfold passFor at h
  cases hv : verifyRelayPass mac token secret now with
  | error e =>
    rw [hv] at h
    exact absurd h (by simp [bind, Except.bind])
  | ok claims =>
    rw [hv] at h
    have hfilter := Except.ok.inj h
    rw [Option.filter_eq_some_iff, Bool.and_eq_true, beq_iff_eq] at hfilter
    obtain ⟨rfl, hrole, hevent⟩ := hfilter
    exact ⟨rfl, hrole, hevent⟩

/-- What a request that announces had: our server's pass. -/
theorem fetchAnnounce_ok {response : RelayResponse}
    (h : fetchAnnounce mac env request eventId now = .ok response) :
    (∃ status body, response = .text status body) ∨ response = .announce eventId ∧ ∃ value,
      passFor mac (bearerToken request) env.secret now .server eventId = .ok (some value) := by
  unfold fetchAnnounce at h
  by_cases hmethod : request.method ≠ "POST"
  · rw [if_pos hmethod] at h
    cases h
    exact .inl ⟨_, _, rfl⟩
  rw [if_neg hmethod] at h
  cases hp : passFor mac (bearerToken request) env.secret now .server eventId with
  | error e =>
    rw [hp] at h
    cases h
  | ok value =>
    rw [hp] at h
    cases value with
    | none =>
      cases h
      exact .inl ⟨_, _, rfl⟩
    | some value =>
      cases h
      exact .inr ⟨rfl, value, rfl⟩

/-- What a request that joins had: a gate's pass. -/
theorem fetchWs_ok {response : RelayResponse}
    (h : fetchWs mac env request eventId now = .ok response) :
    (∃ status body, response = .text status body) ∨ ∃ value headers,
      response = .join eventId headers ∧
        passFor mac (offeredToken request) env.secret now .gate eventId = .ok (some value) ∧
        headers.passId = (text? (field value "passId")).getD [] ∧
        encodeURIComponent ((text? (field value "gate")).getD []) = .ok headers.gate ∧
        headers.exp = (whole? (field value "exp")).getD 0 := by
  unfold fetchWs at h
  by_cases hupgrade : request.upgrade.map String.toLower ≠ some "websocket"
  · rw [if_pos hupgrade] at h
    cases h
    exact .inl ⟨_, _, rfl⟩
  rw [if_neg hupgrade] at h
  by_cases horigin : request.origin.getD "" ∉ splitComma env.allowedOrigins
  · rw [if_pos horigin] at h
    cases h
    exact .inl ⟨_, _, rfl⟩
  rw [if_neg horigin] at h
  cases hp : passFor mac (offeredToken request) env.secret now .gate eventId with
  | error e =>
    rw [hp] at h
    cases h
  | ok value =>
    rw [hp] at h
    cases value with
    | none =>
      cases h
      exact .inl ⟨_, _, rfl⟩
    | some value =>
      cases hg : encodeURIComponent ((text? (field value "gate")).getD []) with
      | error e =>
        simp only [bind, Except.bind, hg] at h
        cases h
      | ok gate =>
        simp only [bind, Except.bind, hg] at h
        cases h
        exact .inr ⟨value, _, rfl, rfl, rfl, hg, rfl⟩

/-- A request that is answered with a room was routed there. -/
theorem fetch_room {response : RelayResponse} (h : fetch mac env request now = .ok response)
    (hroom : ∀ status body, response ≠ .text status body) :
    ∃ eventId route, routeOf request.pathname = some (eventId, route) ∧
      match route with
      | .announce => fetchAnnounce mac env request eventId now = .ok response
      | .ws => fetchWs mac env request eventId now = .ok response := by
  unfold fetch at h
  by_cases hhealth : request.pathname = "/health"
  · rw [if_pos hhealth] at h
    cases h
    exact absurd rfl (hroom _ _)
  rw [if_neg hhealth] at h
  cases hroute : routeOf request.pathname with
  | none =>
    rw [hroute] at h
    cases h
    exact absurd rfl (hroom _ _)
  | some idRoute =>
    obtain ⟨id, route⟩ := idRoute
    rw [hroute] at h
    dsimp only at h
    by_cases huuid : (!isUuid id) = true
    · rw [if_pos huuid] at h
      cases h
      exact absurd rfl (hroom _ _)
    · rw [if_neg huuid] at h
      exact ⟨id, route, rfl, by cases route <;> exact h⟩

theorem fetch_announce (h : fetch mac env request now = .ok (.announce eventId)) :
    routeOf request.pathname = some (eventId, .announce) ∧ ∃ value,
      passFor mac (bearerToken request) env.secret now .server eventId = .ok (some value) := by
  obtain ⟨id, route, hroute, hfetch⟩ := fetch_room h fun _ _ => RelayResponse.noConfusion
  cases route with
  | announce =>
    rcases fetchAnnounce_ok hfetch with ⟨_, _, hr⟩ | ⟨hr, hpass⟩
    · cases hr
    · cases hr
      exact ⟨hroute, hpass⟩
  | ws =>
    rcases fetchWs_ok hfetch with ⟨_, _, hr⟩ | ⟨_, _, hr, _⟩ <;> cases hr

theorem fetch_join {headers : JoinHeaders}
    (h : fetch mac env request now = .ok (.join eventId headers)) :
    routeOf request.pathname = some (eventId, .ws) ∧ ∃ value,
      passFor mac (offeredToken request) env.secret now .gate eventId = .ok (some value) ∧
        headers.passId = (text? (field value "passId")).getD [] ∧
        encodeURIComponent ((text? (field value "gate")).getD []) = .ok headers.gate ∧
        headers.exp = (whole? (field value "exp")).getD 0 := by
  obtain ⟨id, route, hroute, hfetch⟩ := fetch_room h fun _ _ => RelayResponse.noConfusion
  cases route with
  | announce =>
    rcases fetchAnnounce_ok hfetch with ⟨_, _, hr⟩ | ⟨hr, _⟩ <;> cases hr
  | ws =>
    rcases fetchWs_ok hfetch with ⟨_, _, hr⟩ | ⟨value, headers', hr, hpass⟩
    · cases hr
    · cases hr
      exact ⟨hroute, value, hpass⟩

/-- A gate's claims name their pass and their gate. -/
theorem gate_named {claims : RelayClaims} (h : validClaims claims.json = true)
    (hrole : claims.role = .gate) : ∃ passId gate, claims.passId = some passId ∧
      claims.gate = some gate := by
  unfold validClaims at h
  simp only [Bool.and_eq_true] at h
  rw [(hasRole_iff claims .gate).2 hrole, field_passId, field_gate] at h
  simp only [Bool.not_true, Bool.false_or, Bool.and_eq_true, Option.any_eq_true] at h
  obtain ⟨-, ⟨passId, hpass, -⟩, gate, hgate, -⟩ := h
  exact ⟨passId, gate, hpass, hgate⟩

/-- What a pass of a role and an event was signed as. -/
theorem passFor_unforged {asked : List RelayClaims} {token : String} {role : RelayRole}
    {value : JsonText.Value}
    (hforge : Unforged mac env.secret (signedTexts mac env.secret asked) token)
    (h : passFor mac token env.secret now role eventId = .ok (some value)) :
    ∃ claims ∈ asked, validClaims claims.json = true ∧ value = claims.json ∧
      claims.role = role ∧ claims.eventId = ofString eventId ∧ now < claims.exp * 1000 := by
  obtain ⟨hv, hrole, hevent⟩ := passFor_ok h
  obtain ⟨claims, hasked, -, hvalid, rfl, hexp⟩ := verify_unforged hforge hv
  rw [field_eventId] at hevent
  exact ⟨claims, hasked, hvalid, rfl, (hasRole_iff claims role).1 hrole, Option.some.inj hevent,
    hexp⟩

/-- A signed pass is let in under its own role and event alone. -/
theorem passFor_signed (hmac : ∀ key data, (mac key data).length = 32) {claims : RelayClaims}
    {token : String} {role : RelayRole} {value : JsonText.Value}
    (hsign : signRelayPass mac claims env.secret = .ok token)
    (h : passFor mac token env.secret now role eventId = .ok (some value)) :
    claims.role = role ∧ claims.eventId = ofString eventId := by
  obtain ⟨hv, hrole, hevent⟩ := passFor_ok h
  rw [verify_signed hmac hsign] at hv
  have hvalue := Except.ok.inj hv
  rw [Option.ite_none_right_eq_some] at hvalue
  obtain ⟨-, hjson⟩ := hvalue
  cases hjson
  rw [field_eventId] at hevent
  exact ⟨(hasRole_iff claims role).1 hrole, Option.some.inj hevent⟩

/-- A pass opens to the claims it was signed with until they expire, no other token opens to
anything, and a room takes announcements and phones only from passes of that role and event. -/
theorem relayPass_opens (mac : List UInt8 → List UInt8 → List UInt8)
    (hmac : ∀ key data, (mac key data).length = 32) {env : RelayEnv}
    (hsecret : secretMinLength ≤ env.secret.length) (asked : List RelayClaims) (now : Time) :
    (∀ claims : RelayClaims, validClaims claims.json = true → now < claims.exp * 1000 →
      ∃ token, signRelayPass mac claims env.secret = .ok token ∧
        verifyRelayPass mac token env.secret now = .ok (some claims.json)) ∧
    (∀ token value, Unforged mac env.secret (signedTexts mac env.secret asked) token →
      verifyRelayPass mac token env.secret now = .ok (some value) →
      ∃ claims ∈ asked, (∃ sig, token.toList = body claims.json ++ '.' :: sig) ∧
        validClaims claims.json = true ∧ value = claims.json ∧ now < claims.exp * 1000) ∧
    (∀ request eventId,
      Unforged mac env.secret (signedTexts mac env.secret asked) (bearerToken request) →
      fetch mac env request now = .ok (.announce eventId) →
      routeOf request.pathname = some (eventId, .announce) ∧ ∃ claims ∈ asked,
        claims.role = .server ∧ claims.eventId = ofString eventId ∧ now < claims.exp * 1000) ∧
    (∀ request eventId headers,
      Unforged mac env.secret (signedTexts mac env.secret asked) (offeredToken request) →
      fetch mac env request now = .ok (.join eventId headers) →
      routeOf request.pathname = some (eventId, .ws) ∧ ∃ claims ∈ asked, ∃ gate,
        claims.role = .gate ∧ claims.eventId = ofString eventId ∧ now < claims.exp * 1000 ∧
        claims.passId = some headers.passId ∧ claims.gate = some gate ∧
        encodeURIComponent gate = .ok headers.gate ∧ headers.exp = claims.exp) ∧
    ∀ claims token request eventId, signRelayPass mac claims env.secret = .ok token →
      (bearerToken request = token → fetch mac env request now = .ok (.announce eventId) →
        claims.role = .server ∧ claims.eventId = ofString eventId) ∧
      ∀ headers, offeredToken request = token →
        fetch mac env request now = .ok (.join eventId headers) →
        claims.role = .gate ∧ claims.eventId = ofString eventId := by
  refine ⟨fun claims hvalid hexp => ?_, fun token value hforge hv => verify_unforged hforge hv,
    fun request eventId hforge h => ?_, fun request eventId headers hforge h => ?_,
    fun claims token request eventId hsign => ⟨fun htoken h => ?_, fun headers htoken h => ?_⟩⟩
  · have hkey : hmacKey env.secret = .ok (encodeText env.secret) := if_neg (by omega)
    have hsign : signRelayPass mac claims env.secret = .ok (String.ofList (body claims.json ++
        '.' :: toBase64Url (mac (encodeText env.secret) (Utf8.encode (body claims.json))))) := by
      rw [signRelayPass, if_pos hvalid, hkey]
      rfl
    exact ⟨_, hsign, by rw [verify_signed hmac hsign, if_pos hexp]⟩
  · obtain ⟨hroute, value, hpass⟩ := fetch_announce h
    obtain ⟨claims, hasked, -, -, hrole, hevent, hexp⟩ := passFor_unforged hforge hpass
    exact ⟨hroute, claims, hasked, hrole, hevent, hexp⟩
  · obtain ⟨hroute, value, hpass, hid, hgate, hends⟩ := fetch_join h
    obtain ⟨claims, hasked, hvalid, rfl, hrole, hevent, hexp⟩ := passFor_unforged hforge hpass
    obtain ⟨passId, gate, hpassId, hnamed⟩ := gate_named hvalid hrole
    rw [field_passId, hpassId] at hid
    rw [field_gate, hnamed] at hgate
    rw [field_exp] at hends
    exact ⟨hroute, claims, hasked, gate, hrole, hevent, hexp, hid ▸ hpassId, hnamed, hgate, hends⟩
  · obtain ⟨-, value, hpass⟩ := fetch_announce h
    exact passFor_signed hmac hsign (htoken ▸ hpass)
  · obtain ⟨-, value, hpass, -⟩ := fetch_join h
    exact passFor_signed hmac hsign (htoken ▸ hpass)

/-- What a phone offers after the protocol's name is read back. -/
theorem offeredToken_signed {claims : RelayClaims} {secret : Units} {token : String}
    (hsign : signRelayPass mac claims secret = .ok token)
    (h : request.protocol = some (relayProtocol ++ ", " ++ token)) :
    offeredToken request = token := by
  obtain ⟨-, key, -, htoken⟩ := signRelayPass_ok hsign
  have hplain : ∀ c ∈ token.toList, isSpace c = false ∧ c ≠ ',' := by
    rw [htoken]
    intro c hc
    rcases List.mem_append.1 hc with hc | hc
    · exact toBase64Url_plain hc
    rcases List.mem_cons.1 hc with rfl | hc
    · decide
    · exact toBase64Url_plain hc
  have hcomma : ',' ∉ ' ' :: token.toList := by
    rintro (- | ⟨-, hc⟩)
    exact (hplain _ hc).2 rfl
  have hsplit : (relayProtocol ++ ", " ++ token).toList.splitOn ',' =
      [relayProtocol.toList, ' ' :: token.toList] := by
    rw [String.toList_append, String.toList_append, List.append_assoc]
    exact splitOn_token (by decide) hcomma
  have htrim : trim (String.ofList (' ' :: token.toList)) = token := by
    have hraw : (String.ofList (' ' :: token.toList)).toList = [' '] ++ (token.toList ++ []) := by
      simp
    exact String.toList_injective
      (trim_around (by decide) (by decide) (fun c hc => (hplain c hc).1) hraw)
  have hname : trim (String.ofList relayProtocol.toList) = relayProtocol := by decide
  unfold offeredToken splitComma
  rw [h, Option.getD_some, hsplit]
  simp only [List.map_cons, List.map_nil, htrim, hname, if_true]

end Worker

section Door

/-- The signature of the pass below. -/
def doorTag : List UInt8 :=
  [252, 59, 241, 219, 166, 255, 15, 206, 124, 123, 237, 210, 13, 55, 206, 75, 71, 9, 78, 78, 78,
    120, 42, 68, 233, 27, 101, 208, 60, 36, 19, 232]

def doorEnv : RelayEnv where
  secret := ofString "a-test-relay-secret-that-is-long-enough-0123"
  allowedOrigins := "https://echoandaura.com"

def doorClaims : RelayClaims where
  role := .gate
  eventId := ofString "6f1c2b8e-3a4d-4c5e-9f60-718293a4b5c6"
  passId := some (ofString "0a1b2c3d-4e5f-4a6b-8c7d-9e0f1a2b3c4d")
  gate := some (ofString "গেট \"২\" 😀")
  exp := 1791658800

def doorPass : String :=
  "eyJ2IjoxLCJyb2xlIjoiZ2F0ZSIsImV2ZW50SWQiOiI2ZjFjMmI4ZS0zYTRkLTRjNWUtOWY2MC03MTgyOTNhNGI1YzYi" ++
  "LCJwYXNzSWQiOiIwYTFiMmMzZC00ZTVmLTRhNmItOGM3ZC05ZTBmMWEyYjNjNGQiLCJnYXRlIjoi4KaX4KeH4KafIFwi" ++
  "4KeoXCIg8J-YgCIsImV4cCI6MTc5MTY1ODgwMH0._Dvx26b_D858e-3SDTfOS0cJTk5OeCpE6Rtl0DwkE-g"

/-- A tag for the text of the pass above, and none for any other. -/
def doorMac (_ data : List UInt8) : List UInt8 :=
  if data = Utf8.encode (body doorClaims.json) then doorTag else List.replicate 32 0

/-- The phone of that gate connects. -/
def doorRequest : RelayRequest where
  pathname := "/events/6f1c2b8e-3a4d-4c5e-9f60-718293a4b5c6/ws"
  method := "GET"
  authorization := none
  upgrade := some "websocket"
  origin := some "https://echoandaura.com"
  protocol := some (relayProtocol ++ ", " ++ doorPass)
  after := some 12
  epoch := none

def doorHeaders : JoinHeaders where
  passId := ofString "0a1b2c3d-4e5f-4a6b-8c7d-9e0f1a2b3c4d"
  gate := "%E0%A6%97%E0%A7%87%E0%A6%9F%20%22%E0%A7%A8%22%20%F0%9F%98%80"
  exp := 1791658800
  after := 12
  epoch := ""

theorem doorMac_length (key data : List UInt8) : (doorMac key data).length = 32 := by
  unfold doorMac
  split_ifs <;> rfl

theorem doorPass_signed : signRelayPass doorMac doorClaims doorEnv.secret = .ok doorPass := by
  decide +kernel

theorem doorPass_opens : verifyRelayPass doorMac doorPass doorEnv.secret 1791640800000 =
    .ok (some doorClaims.json) := by
  rw [verify_signed doorMac_length doorPass_signed, if_pos (by decide)]

theorem doorRequest_offers : offeredToken doorRequest = doorPass :=
  offeredToken_signed doorPass_signed rfl

theorem doorRequest_joins : fetch doorMac doorEnv doorRequest 1791640800000 =
    .ok (.join "6f1c2b8e-3a4d-4c5e-9f60-718293a4b5c6" doorHeaders) := by
  have hroute : routeOf doorRequest.pathname = some ("6f1c2b8e-3a4d-4c5e-9f60-718293a4b5c6", .ws) := by
    decide +kernel
  have hpass : passFor doorMac (offeredToken doorRequest) doorEnv.secret 1791640800000 .gate
      "6f1c2b8e-3a4d-4c5e-9f60-718293a4b5c6" = .ok (some doorClaims.json) := by
    unfold passFor
    rw [doorRequest_offers, doorPass_opens]
    refine congrArg Except.ok (Option.filter_eq_some_iff.2 ⟨rfl, ?_⟩)
    decide +kernel
  unfold fetch
  rw [if_neg (by decide +kernel), hroute]
  dsimp only
  rw [if_neg (by decide +kernel)]
  unfold fetchWs
  rw [if_neg (by decide +kernel), if_neg (by decide +kernel), hpass]
  decide +kernel

theorem relayPass_opens_door :
    (∃ token, signRelayPass doorMac doorClaims doorEnv.secret = .ok token ∧
      verifyRelayPass doorMac token doorEnv.secret 1791640800000 = .ok (some doorClaims.json)) ∧
    (∃ claims ∈ [doorClaims], (∃ sig, doorPass.toList = body claims.json ++ '.' :: sig) ∧
      validClaims claims.json = true ∧ doorClaims.json = claims.json ∧
      1791640800000 < claims.exp * 1000) ∧
    ∃ claims ∈ [doorClaims], ∃ gate, claims.role = .gate ∧
      claims.eventId = ofString "6f1c2b8e-3a4d-4c5e-9f60-718293a4b5c6" ∧
      1791640800000 < claims.exp * 1000 ∧ claims.passId = some doorHeaders.passId ∧
      claims.gate = some gate ∧ encodeURIComponent gate = .ok doorHeaders.gate ∧
      doorHeaders.exp = claims.exp := by
  have hunforged := unforged_signed (List.mem_singleton_self doorClaims) doorPass_signed
  obtain ⟨hopens, hverify, -, hjoin, -⟩ := relayPass_opens doorMac doorMac_length
    (show secretMinLength ≤ doorEnv.secret.length by decide +kernel) [doorClaims] 1791640800000
  exact ⟨hopens doorClaims (by decide +kernel) (by decide),
    hverify doorPass doorClaims.json hunforged doorPass_opens,
    (hjoin doorRequest _ doorHeaders (doorRequest_offers ▸ hunforged) doorRequest_joins).2⟩

end Door

end Relay

end EchoAndAura
