import EchoAndAura.ClientIp

/-!
# One visitor, one rate-limit key

The walk reads nothing to the left of the rightmost entry outside the proxies' ranges
(`clientIp_left`).  There an IPv6 text gives the first four groups of its address however it is
spelled (`ipv6Prefix64_spells`), and a text that ends in an IPv4 address behind `::ffff:` that
address; the other texts of a mapped address are not taken for one (`entryKey_spells`).
-/

namespace EchoAndAura

open IpText

section Splitting

/-- Characters put in front of the first part. -/
def prependPart (w : List Char) : List (List Char) → List (List Char)
  | [] => [w]
  | part :: parts => (w ++ part) :: parts

theorem splitDouble_ne_nil : ∀ (s : List Char), splitDouble s ≠ []
  | [] => by simp [splitDouble]
  | [c] => by simp [splitDouble]
  | c :: d :: cs => by
    rw [splitDouble]
    split_ifs
    · exact List.cons_ne_nil _ _
    · split <;> exact List.cons_ne_nil _ _

theorem splitDouble_cons {c d : Char} {cs : List Char} (h : ¬ (c = ':' ∧ d = ':')) :
    splitDouble (c :: d :: cs) = prependPart [c] (splitDouble (d :: cs)) := by
  rw [splitDouble, if_neg h]
  cases splitDouble (d :: cs) <;> rfl

theorem prependPart_append (v w : List Char) {parts : List (List Char)} (h : parts ≠ []) :
    prependPart v (prependPart w parts) = prependPart (v ++ w) parts := by
  cases parts with
  | nil => exact absurd rfl h
  | cons part parts => simp [prependPart]

theorem splitDouble_word : ∀ {w : List Char}, ':' ∉ w → ∀ (rest : List Char),
    splitDouble (w ++ rest) = prependPart w (splitDouble rest)
  | [], _, rest => by
    cases h : splitDouble rest with
    | nil => exact absurd h (splitDouble_ne_nil rest)
    | cons part parts => simpa [prependPart] using h
  | [c], hw, rest => by
    have hc : c ≠ ':' := fun h => hw (h ▸ List.mem_cons_self)
    cases rest with
    | nil => rfl
    | cons d cs => exact splitDouble_cons fun h => hc h.1
  | c :: d :: w, hw, rest => by
    have hc : c ≠ ':' := fun h => hw (h ▸ List.mem_cons_self)
    have ih := splitDouble_word (w := d :: w) (fun h => hw (List.mem_cons_of_mem _ h)) rest
    rw [List.cons_append, List.cons_append, splitDouble_cons fun h => hc h.1]
    rw [List.cons_append] at ih
    rw [ih, prependPart_append [c] (d :: w) (splitDouble_ne_nil rest)]
    rfl

theorem splitDouble_row : ∀ {gs : List Group}, GroupRow gs → ∀ (rest : List Char),
    splitDouble (rowText gs ++ rest) = prependPart (rowText gs) (splitDouble rest)
  | [], _, rest => splitDouble_word (w := []) (by simp) rest
  | [g], h, rest => by
    rw [rowText_singleton]
    exact splitDouble_word (h.text_ne g List.mem_cons_self).2 rest
  | g :: g' :: gs, h, rest => by
    have htail : GroupRow (g' :: gs) := by
      cases g with
      | hex digits => exact h.2
      | dotted v => exact h.elim
    have ih := splitDouble_row htail rest
    obtain ⟨hne, hcolon⟩ := htail.text_ne g' List.mem_cons_self
    obtain ⟨c, cs, hcs⟩ : ∃ c cs, rowText (g' :: gs) ++ rest = c :: cs ∧ c ≠ ':' := by
      obtain ⟨c, cs, hg⟩ := List.exists_cons_of_ne_nil hne
      have hc : c ≠ ':' := fun hc => hcolon (hg ▸ hc ▸ List.mem_cons_self)
      cases gs with
      | nil => exact ⟨c, cs ++ rest, by rw [rowText_singleton, hg]; rfl, hc⟩
      | cons g'' gs =>
        exact ⟨c, cs ++ ':' :: rowText (g'' :: gs) ++ rest, by
          rw [rowText_cons_cons, hg]
          simp, hc⟩
    rw [rowText_cons_cons, List.append_assoc, List.cons_append,
      splitDouble_word (h.text_ne g List.mem_cons_self).2, hcs.1,
      splitDouble_cons fun hh => hcs.2 hh.2, ← hcs.1, ih,
      prependPart_append _ _ (splitDouble_ne_nil rest),
      prependPart_append _ _ (splitDouble_ne_nil rest)]
    rfl

theorem splitDouble_nil_row {gs : List Group} (h : GroupRow gs) :
    splitDouble (rowText gs) = [rowText gs] := by
  have hs := splitDouble_row h []
  rw [List.append_nil] at hs
  rw [hs]
  simp [splitDouble, prependPart]

theorem splitDouble_colons {gs : List Group} (h : GroupRow gs) (rest : List Char) :
    splitDouble (rowText gs ++ ':' :: ':' :: rest) = rowText gs :: splitDouble rest := by
  rw [splitDouble_row h]
  have hd : splitDouble (':' :: ':' :: rest) = [] :: splitDouble rest := by
    rw [splitDouble, if_pos ⟨rfl, rfl⟩]
  rw [hd]
  simp [prependPart]

end Splitting

section Prefix

theorem sideGroups_row {gs : List Group} (h : GroupRow gs) :
    sideGroups (rowText gs) = gs.map Group.text := by
  unfold sideGroups
  split_ifs with hnil
  · rw [h.rowText_eq_nil.1 hnil]
    rfl
  · exact h.splitOn fun hgs => hnil (h.rowText_eq_nil.2 hgs)

theorem groupWidth_row : ∀ {gs : List Group}, GroupRow gs →
    groupWidth (gs.map Group.text) = (rowValues gs).length
  | [], _ => rfl
  | .hex digits :: gs, h => by
    have ih := @groupWidth_row gs h.2
    have hdot : '.' ∉ digits := fun hc => (isHexDigit_ne (h.1.2.2 _ hc)).2.1 rfl
    unfold groupWidth rowValues at ih ⊢
    rw [List.map_cons, List.map_cons, List.sum_cons, ih, List.flatMap_cons, List.length_append]
    simp [Group.text, Group.values, hdot]
  | [.dotted v], _ => by
    simp [groupWidth, rowValues, Group.text, Group.values, V4.groups, v.dot_mem_text]
  | .dotted _ :: _ :: _, h => h.elim

/-- The groups of a text with the zeros left out put in. -/
def filled : V6Text → List Group
  | .full gs => gs
  | .compressed head tail =>
    head ++ List.replicate (8 - (rowValues head).length - (rowValues tail).length) (.hex ['0']) ++
      tail

theorem row_append : ∀ {gs hs : List Group}, GroupRow gs → (∀ g ∈ gs, g.IsHex) → GroupRow hs →
    GroupRow (gs ++ hs)
  | [], _, _, _, h => h
  | .hex _ :: gs, _, hgs, hhex, h =>
    ⟨hgs.1, @row_append gs _ hgs.2 (fun g hg => hhex g (List.mem_cons_of_mem _ hg)) h⟩
  | .dotted _ :: _, _, _, hhex, _ => (hhex _ List.mem_cons_self).elim

theorem row_zeros : ∀ (n : Nat), GroupRow (List.replicate n (.hex ['0']))
  | 0 => trivial
  | n + 1 => ⟨⟨by simp, by simp, by decide⟩, row_zeros n⟩

theorem values_zeros (n : Nat) :
    rowValues (List.replicate n (.hex ['0'])) = List.replicate n 0 := by
  unfold rowValues
  induction n with
  | zero => rfl
  | succ n ih =>
    rw [List.replicate_succ, List.flatMap_cons, ih]
    rfl

theorem rowValues_append (gs hs : List Group) :
    rowValues (gs ++ hs) = rowValues gs ++ rowValues hs := List.flatMap_append

variable {t : V6Text}

theorem filled_row (h : t.Ok) : GroupRow (filled t) := by
  cases t with
  | full gs => exact h.1
  | compressed head tail =>
    have hzeros : ∀ g ∈ List.replicate (8 - (rowValues head).length - (rowValues tail).length)
        (Group.hex ['0']), g.IsHex := fun g hg => by
      rw [(List.mem_replicate.1 hg).2]
      trivial
    refine row_append (row_append h.1 h.2.1 (row_zeros _)) (fun g hg => ?_) h.2.2.1
    rcases List.mem_append.1 hg with hg | hg
    · exact h.2.1 g hg
    · exact hzeros g hg

theorem filled_values : ∀ (t : V6Text), rowValues (filled t) = t.groups
  | .full gs => rfl
  | .compressed head tail => by
    simp only [filled, V6Text.groups, rowValues_append, values_zeros]

theorem ipv6Groups_text (h : t.Ok) : ipv6Groups t.text = .ok ((filled t).map Group.text) := by
  cases t with
  | full gs =>
    have hparts : splitDouble (V6Text.full gs).text = [rowText gs] := splitDouble_nil_row h.1
    unfold ipv6Groups
    rw [hparts]
    simp [filled, sideGroups_row h.1]
  | compressed head tail =>
    have hparts : splitDouble (V6Text.compressed head tail).text =
        [rowText head, rowText tail] := by
      have hs := splitDouble_colons h.1 (rowText tail)
      rw [splitDouble_nil_row h.2.2.1] at hs
      exact hs
    have hlen := h.2.2.2
    unfold ipv6Groups
    rw [hparts]
    simp only [List.headD_cons, List.tail_cons, sideGroups_row h.1, sideGroups_row h.2.2.1,
      groupWidth_row h.1, groupWidth_row h.2.2.1]
    rw [if_neg (by omega)]
    simp [filled, Group.text]

theorem take_row : ∀ {gs : List Group} {n : Nat}, GroupRow gs → (∀ g ∈ gs, g.Small) →
    n + 2 ≤ (rowValues gs).length →
    ((gs.map Group.text).take n).map dropZeros = ((rowValues gs).take n).map hexText
  | _, 0, _, _, _ => by simp
  | [], n + 1, _, _, hn => by simp [rowValues] at hn
  | .hex digits :: gs, n + 1, h, hs, hn => by
    rw [List.forall_mem_cons] at hs
    have hvalues : rowValues (.hex digits :: gs) = hexNumber digits :: rowValues gs := rfl
    rw [hvalues, List.length_cons] at hn
    have ih := @take_row gs n h.2 hs.2 (by omega)
    rw [hvalues, List.map_cons, List.take_succ_cons, List.take_succ_cons, List.map_cons,
      List.map_cons, ih]
    exact congrArg (· :: _) (dropZeros_eq h.1.1 h.1.2.1 hs.1)
  | [.dotted v], n + 1, _, _, hn => by
    simp [rowValues, Group.values, V4.groups] at hn
  | .dotted _ :: _ :: _, _ + 1, h, _, _ => h.elim

theorem ipv6Prefix64_text (h : t.Ok) (hs : ∀ g ∈ filled t, g.Small) (hlen : t.groups.length = 8) :
    ipv6Prefix64 (String.ofList t.text) =
      .ok (String.ofList ([':'].intercalate ((t.groups.take 4).map hexText) ++
        "::/64".toList)) := by
  have hrow := take_row (n := 4) (filled_row h) hs (by rw [filled_values, hlen]; omega)
  unfold ipv6Prefix64
  rw [String.toList_ofList, ipv6Groups_text h]
  rw [filled_values] at hrow
  show Except.ok _ = _
  rw [hrow]

theorem filled_small (h : t.Ok) : ∀ g ∈ filled t.lower, g.Small := by
  cases t with
  | full gs => exact h.1.small_lower
  | compressed head tail =>
    intro g hg
    simp only [V6Text.lower, filled, List.mem_append] at hg
    rcases hg with (hg | hg) | hg
    · exact h.1.small_lower g hg
    · rw [(List.mem_replicate.1 hg).2]
      show ∀ c ∈ ['0'], hexDigits.contains c = true
      rw [List.forall_mem_singleton]
      decide
    · exact h.2.2.1.small_lower g hg

/-- The key of an IPv6 visitor. -/
def prefixKey (a : V6) : String :=
  String.ofList ([':'].intercalate ((a.groups.take 4).map hexText) ++ "::/64".toList)

/-- However an address is spelled in small letters, its first four groups are its key. -/
theorem ipv6Prefix64_spells {s : List Char} {a : V6} (h : Spells s a) :
    ipv6Prefix64 (String.ofList (s.map Char.toLower)) = .ok (prefixKey a) := by
  obtain ⟨t, hok, rfl, hg⟩ := h
  have hgroups : t.lower.groups = a.groups := hok.groups_lower.trans hg
  rw [← t.text_lower, ipv6Prefix64_text hok.lower (filled_small hok) (by rw [hgroups, a.eight]),
    hgroups]
  rfl

theorem prefixKey_iff {a b : V6} :
    prefixKey a = prefixKey b ↔ a.groups.take 4 = b.groups.take 4 := by
  constructor
  · intro h
    have hl := congrArg String.toList h
    simp only [prefixKey, String.toList_ofList, List.append_cancel_right_eq] at hl
    have hsplit : ∀ c : V6, ([':'].intercalate ((c.groups.take 4).map hexText)).splitOn ':' =
        (c.groups.take 4).map hexText := fun c => by
      refine List.splitOn_intercalate ':' ?_ ?_
      · simp only [List.forall_mem_map]
        intro g hg hc
        have hsmall := c.small g (List.mem_of_mem_take hg)
        exact (isHexDigit_ne (isHexDigit_of_lower (hexText_mem hsmall hc))).1 rfl
      · intro hnil
        have hlen := congrArg List.length hnil
        rw [List.length_map, List.length_take, c.eight] at hlen
        exact absurd hlen (by decide)
    have hm : (a.groups.take 4).map hexText = (b.groups.take 4).map hexText := by
      rw [← hsplit a, ← hsplit b, hl]
    have hback : ∀ c : V6, ((c.groups.take 4).map hexText).map hexNumber = c.groups.take 4 :=
      fun c => by
        rw [List.map_map]
        refine (List.map_congr_left fun g hg => ?_).trans (List.map_id _)
        exact hexNumber_hexText (c.small g (List.mem_of_mem_take hg))
    rw [← hback a, ← hback b, hm]
  · intro h
    unfold prefixKey
    rw [h]

theorem prefixKey_ne_text (a : V6) (v : V4) : prefixKey a ≠ String.ofList v.text := by
  intro h
  have hl := congrArg String.toList h
  simp only [prefixKey, String.toList_ofList] at hl
  have hslash : '/' ∈ v.text := by
    rw [← hl]
    exact List.mem_append_right _ (by decide)
  exact (v.text_ne hslash).2 rfl

end Prefix

section Entries

variable {lower : String → String} {isIP : String → Nat}
variable {check : List Subnet → String → IpFamily → Bool}

/-- `isIP` follows the syntax of addresses, and a block list tests the address. -/
structure NodeNet (isIP : String → Nat) (check : List Subnet → String → IpFamily → Bool) :
    Prop where
  four : ∀ s, isIP s = 4 ↔ ∃ v : V4, s.toList = v.text
  six : ∀ s a, Spells s.toList a → isIP s = 6
  tests : ∀ s s' a, Spells s.toList a → Spells s'.toList a →
    check trustedProxies s .ipv6 = check trustedProxies s' .ipv6

/-- `toLowerCase` of a text of ASCII characters. -/
def LowersAscii (lower : String → String) : Prop :=
  ∀ s, (∀ c ∈ s.toList, c.toNat < 128) → (lower s).toList = s.toList.map Char.toLower

/-- A visitor's address. -/
inductive IpAddress
  | v4 (v : V4)
  | v6 (a : V6)

/-- The key of a visitor: an IPv4 address, or the first 64 bits of an IPv6 one. -/
def IpAddress.key : IpAddress → String
  | v4 v => String.ofList v.text
  | v6 a => (a.v4?.map fun v => String.ofList v.text).getD (prefixKey a)

/-- `::ffff:` in any case and a dotted IPv4 address. -/
def DottedMapped (lower : String → String) (entry : String) : Prop :=
  ∃ v : V4, (lower entry).toList = mappedPrefix ++ v.text

/-- What the walk gives for an entry it stops at. -/
def entryKey (lower : String → String) (isIP : String → Nat) (entry : String) :
    Except String (Option String) :=
  let ip := unmapIPv4 lower isIP entry
  if isIP ip = 0 then .ok none
  else if isIP ip = 6 then (ipv6Prefix64 ip).map some
  else .ok (some ip)

/-- A proxy's entry. -/
def Proxied (lower : String → String) (isIP : String → Nat)
    (check : List Subnet → String → IpFamily → Bool) (entry : String) : Prop :=
  isIP (unmapIPv4 lower isIP entry) ≠ 0 ∧
    check trustedProxies (unmapIPv4 lower isIP entry)
      (familyOf (isIP (unmapIPv4 lower isIP entry))) = true

theorem lt_of_hexDigit {c : Char} (hc : isHexDigit c = true) : c.toNat < 128 := by
  have h := isHexDigit_all (p := fun c => decide (c.toNat < 128)) (by decide) hc
  simpa using h

theorem lt_of_v4 {v : V4} {c : Char} (hc : c ∈ v.text) : c.toNat < 128 := by
  have hall : decimalDigits.all (fun c => decide (c.toNat < 128)) = true := by decide
  rcases v.mem_text hc with h | rfl
  · simpa using List.all_eq_true.1 hall c h
  · decide

theorem lt_of_row : ∀ {gs : List Group}, GroupRow gs → ∀ c ∈ rowText gs, c.toNat < 128
  | [], _, c, hc => by simp [rowText] at hc
  | [.hex digits], h, c, hc => by
    rw [rowText_singleton] at hc
    exact lt_of_hexDigit (h.1.2.2 c hc)
  | [.dotted v], _, c, hc => by
    rw [rowText_singleton] at hc
    exact lt_of_v4 hc
  | .hex digits :: g :: gs, h, c, hc => by
    rw [rowText_cons_cons, List.mem_append, List.mem_cons] at hc
    rcases hc with hc | rfl | hc
    · exact lt_of_hexDigit (h.1.2.2 c hc)
    · decide
    · exact lt_of_row h.2 c hc
  | .dotted _ :: _ :: _, h, _, _ => h.elim

theorem lt_of_spells {s : List Char} {a : V6} (h : Spells s a) : ∀ c ∈ s, c.toNat < 128 := by
  obtain ⟨t, hok, rfl, -⟩ := h
  intro c hc
  cases t with
  | full gs => exact lt_of_row hok.1 c hc
  | compressed head tail =>
    simp only [V6Text.text, List.mem_append, List.mem_cons] at hc
    rcases hc with hc | rfl | rfl | hc
    · exact lt_of_row hok.1 c hc
    · decide
    · decide
    · exact lt_of_row hok.2.2.1 c hc

variable {entry : String} {a : V6} {v : V4}

theorem lower_spells (hlower : LowersAscii lower) (h : Spells entry.toList a) :
    (lower entry).toList = entry.toList.map Char.toLower := hlower entry (lt_of_spells h)

/-- The prefix of a mapped address is seven characters. -/
theorem mappedPrefix_iff (hnode : NodeNet isIP check) {l : List Char} :
    (mappedPrefix.isPrefixOf l = true ∧ isIP (String.ofList (l.drop 7)) = 4) ↔
      ∃ v : V4, l = mappedPrefix ++ v.text := by
  have hlen : mappedPrefix.length = 7 := by decide
  constructor
  · rintro ⟨hpre, hfour⟩
    obtain ⟨v, hv⟩ := (hnode.four _).1 hfour
    rw [String.toList_ofList] at hv
    obtain ⟨rest, rfl⟩ := List.isPrefixOf_iff_prefix.1 hpre
    rw [← hlen, List.drop_left] at hv
    exact ⟨v, by rw [hv]⟩
  · rintro ⟨v, rfl⟩
    rw [← hlen, List.drop_left]
    exact ⟨List.isPrefixOf_iff_prefix.2 ⟨v.text, rfl⟩,
      (hnode.four _).2 ⟨v, String.toList_ofList⟩⟩

theorem unmapIPv4_dotted (hnode : NodeNet isIP check)
    (h : (lower entry).toList = mappedPrefix ++ v.text) :
    unmapIPv4 lower isIP entry = String.ofList v.text := by
  have hlen : mappedPrefix.length = 7 := by decide
  unfold unmapIPv4
  dsimp only
  rw [if_pos ((mappedPrefix_iff hnode).2 ⟨v, h⟩), h, ← hlen, List.drop_left]

theorem unmapIPv4_other (hnode : NodeNet isIP check) (h : ¬ DottedMapped lower entry) :
    unmapIPv4 lower isIP entry = lower entry := by
  unfold unmapIPv4
  dsimp only
  rw [if_neg fun hc => h ((mappedPrefix_iff hnode).1 hc)]

theorem unmapIPv4_v4 (hlower : LowersAscii lower) (hnode : NodeNet isIP check)
    (h : entry.toList = v.text) : unmapIPv4 lower isIP entry = String.ofList v.text := by
  have hlow : (lower entry).toList = v.text := by
    rw [hlower entry fun c hc => lt_of_v4 (h ▸ hc), h, v.lower_text]
  have hnot : ¬ DottedMapped lower entry := by
    rintro ⟨w, hw⟩
    rw [hlow] at hw
    have hcolon : ':' ∈ v.text := by
      rw [hw]
      exact List.mem_append_left _ (by decide)
    exact (v.text_ne hcolon).1 rfl
  rw [unmapIPv4_other hnode hnot, ← hlow, String.ofList_toList]

theorem entryKey_v4 (hnode : NodeNet isIP check)
    (h : unmapIPv4 lower isIP entry = String.ofList v.text) :
    entryKey lower isIP entry = .ok (some (String.ofList v.text)) := by
  have hfour : isIP (String.ofList v.text) = 4 := (hnode.four _).2 ⟨v, String.toList_ofList⟩
  unfold entryKey
  dsimp only
  rw [h, hfour]
  rfl

/-- The key of an IPv6 entry. -/
theorem entryKey_v6 (hlower : LowersAscii lower) (hnode : NodeNet isIP check)
    (h : Spells entry.toList a) (hd : ¬ DottedMapped lower entry) :
    entryKey lower isIP entry = .ok (some (prefixKey a)) := by
  have hsix : isIP (lower entry) = 6 :=
    hnode.six _ a (by rw [lower_spells hlower h]; exact h.lower)
  have htext : lower entry = String.ofList (entry.toList.map Char.toLower) := by
    rw [← lower_spells hlower h, String.ofList_toList]
  unfold entryKey
  dsimp only
  rw [unmapIPv4_other hnode hd, hsix, htext, ipv6Prefix64_spells h]
  rfl

theorem proxied_v4 (hlower : LowersAscii lower) (hnode : NodeNet isIP check)
    (h : entry.toList = v.text) : Proxied lower isIP check entry ↔
      check trustedProxies (String.ofList v.text) .ipv4 = true := by
  have hfour : isIP (String.ofList v.text) = 4 := (hnode.four _).2 ⟨v, String.toList_ofList⟩
  unfold Proxied
  rw [unmapIPv4_v4 hlower hnode h, hfour]
  exact and_iff_right (by decide)

theorem proxied_v6 (hlower : LowersAscii lower) (hnode : NodeNet isIP check)
    (h : Spells entry.toList a) (hd : ¬ DottedMapped lower entry) :
    Proxied lower isIP check entry ↔ check trustedProxies (lower entry) .ipv6 = true := by
  have hsix : isIP (lower entry) = 6 :=
    hnode.six _ a (by rw [lower_spells hlower h]; exact h.lower)
  unfold Proxied
  rw [unmapIPv4_other hnode hd, hsix]
  exact and_iff_right (by decide)

theorem spells_of_dotted (hlower : LowersAscii lower) (h : Spells entry.toList a)
    (hd : (lower entry).toList = mappedPrefix ++ v.text) : a.v4? = some v := by
  rw [lower_spells hlower h] at hd
  have hs := h.lower
  rw [hd] at hs
  exact V6.v4?_eq_some.2 hs.mapped

/-- An IPv6 entry has its address's key unless the address is mapped and the entry hides it. -/
theorem entryKey_spells (hlower : LowersAscii lower) (hnode : NodeNet isIP check)
    (h : Spells entry.toList a) :
    entryKey lower isIP entry = .ok (some (IpAddress.v6 a).key) ↔
      a.v4? = none ∨ DottedMapped lower entry := by
  by_cases hd : DottedMapped lower entry
  · obtain ⟨v, hv⟩ := hd
    refine iff_of_true ?_ (.inr ⟨v, hv⟩)
    rw [entryKey_v4 hnode (unmapIPv4_dotted hnode hv), IpAddress.key, spells_of_dotted hlower h hv]
    rfl
  · rw [entryKey_v6 hlower hnode h hd, IpAddress.key]
    cases hv : a.v4? with
    | none => exact iff_of_true rfl (.inl rfl)
    | some v =>
      refine iff_of_false (fun heq => ?_) fun ho => ho.elim (by simp) hd
      have hkey : prefixKey a = String.ofList v.text := by
        simpa using heq
      exact prefixKey_ne_text a v hkey

end Entries

section Walk

variable {lower : String → String} {isIP : String → Nat}
variable {check : List Subnet → String → IpFamily → Bool}

theorem walkHops_proxied {hops rest : List String}
    (h : ∀ hop ∈ hops, Proxied lower isIP check hop) :
    walkHops lower isIP check (hops ++ rest) = walkHops lower isIP check rest := by
  induction hops with
  | nil => rfl
  | cons hop hops ih =>
    rw [List.forall_mem_cons] at h
    obtain ⟨⟨hip, hcheck⟩, hrest⟩ := h
    rw [List.cons_append, walkHops, if_neg hip, if_pos hcheck, ih hrest]

theorem walkHops_outside {hop : String} {rest : List String} (h : ¬ Proxied lower isIP check hop) :
    walkHops lower isIP check (hop :: rest) = entryKey lower isIP hop := by
  unfold entryKey
  rw [walkHops]
  dsimp only
  by_cases hip : isIP (unmapIPv4 lower isIP hop) = 0
  · rw [if_pos hip, if_pos hip]
  · rw [if_neg hip, if_neg hip, if_neg fun hcheck => h ⟨hip, hcheck⟩]

theorem walkHops_append {hops rest : List String}
    (h : ∃ hop ∈ hops, ¬ Proxied lower isIP check hop) :
    walkHops lower isIP check (hops ++ rest) = walkHops lower isIP check hops := by
  induction hops with
  | nil => simp at h
  | cons hop hops ih =>
    by_cases hp : Proxied lower isIP check hop
    · have hone : ∀ h ∈ [hop], Proxied lower isIP check h := by simpa using hp
      have hlater : ∃ hop ∈ hops, ¬ Proxied lower isIP check hop := by
        obtain ⟨e, he, hne⟩ := h
        rcases List.mem_cons.1 he with rfl | he
        · exact absurd hp hne
        · exact ⟨e, he, hne⟩
      have hskip : ∀ later, walkHops lower isIP check (hop :: later) =
          walkHops lower isIP check later := fun later => walkHops_proxied hone
      rw [List.cons_append, hskip, hskip, ih hlater]
    · rw [List.cons_append, walkHops_outside hp, walkHops_outside hp]

theorem hops_comma (left rest : String) : hops (left ++ "," ++ rest) = hops left ++ hops rest := by
  have hcomma : (left ++ "," ++ rest).toList = left.toList ++ ',' :: rest.toList := by
    have hc : (",":String).toList = [','] := rfl
    rw [String.toList_append, String.toList_append, hc, List.append_assoc]
    rfl
  unfold hops
  rw [hcomma, List.splitOn_append_cons_self, List.map_append, List.filter_append]

/-- Nothing to the left of an entry outside the ranges is read. -/
theorem clientIp_left {left rest : String} (h : ∃ hop ∈ hops rest, ¬ Proxied lower isIP check hop) :
    clientIpFromForwardedFor lower isIP check (some (left ++ "," ++ rest)) =
      clientIpFromForwardedFor lower isIP check (some rest) := by
  show walkHops lower isIP check (hops (left ++ "," ++ rest)).reverse = _
  rw [hops_comma, List.reverse_append]
  exact walkHops_append (by simpa using h)

/-- The rightmost entry outside the ranges. -/
def Visitor (lower : String → String) (isIP : String → Nat)
    (check : List Subnet → String → IpFamily → Bool) (header entry : String) : Prop :=
  ∃ left right, hops header = left ++ entry :: right ∧
    (∀ hop ∈ right, Proxied lower isIP check hop) ∧ ¬ Proxied lower isIP check entry

theorem Visitor.clientIp {header entry : String} (h : Visitor lower isIP check header entry) :
    clientIpFromForwardedFor lower isIP check (some header) = entryKey lower isIP entry := by
  obtain ⟨left, right, hhops, hright, hentry⟩ := h
  show walkHops lower isIP check (hops header).reverse = _
  rw [hhops, List.reverse_append, List.reverse_cons, List.append_assoc]
  rw [walkHops_proxied (by simpa using hright), List.singleton_append, walkHops_outside hentry]

/-- Another text of the same address is outside the ranges too. -/
theorem outside_of_spells (hlower : LowersAscii lower) (hnode : NodeNet isIP check)
    {entry entry' : String} {a : V6} (h : Spells entry.toList a) (h' : Spells entry'.toList a)
    (hd : a.v4? = none ∨ DottedMapped lower entry) (hd' : a.v4? = none ∨ DottedMapped lower entry')
    (hout : ¬ Proxied lower isIP check entry) : ¬ Proxied lower isIP check entry' := by
  cases hv : a.v4? with
  | none =>
    have hnot : ∀ {e : String}, Spells e.toList a → ¬ DottedMapped lower e := fun he ⟨v, hm⟩ => by
      rw [spells_of_dotted hlower he hm] at hv
      cases hv
    have hlow : ∀ {e : String}, Spells e.toList a → Spells (lower e).toList a := fun he => by
      rw [lower_spells hlower he]
      exact he.lower
    rw [proxied_v6 hlower hnode h (hnot h)] at hout
    rw [proxied_v6 hlower hnode h' (hnot h'), ← hnode.tests _ _ a (hlow h) (hlow h')]
    exact hout
  | some v =>
    obtain ⟨w, hw⟩ := hd.resolve_left (by simp [hv])
    obtain ⟨w', hw'⟩ := hd'.resolve_left (by simp [hv])
    have hs : some v = some w := hv.symm.trans (spells_of_dotted hlower h hw)
    have hs' : some v = some w' := hv.symm.trans (spells_of_dotted hlower h' hw')
    cases hs
    cases hs'
    unfold Proxied at hout ⊢
    rw [unmapIPv4_dotted hnode hw] at hout
    rw [unmapIPv4_dotted hnode hw']
    exact hout

/-- One visitor, one key, as far as the entries are ones the condition holds of. -/
structure OneKey (lower : String → String) (isIP : String → Nat)
    (check : List Subnet → String → IpFamily → Bool) (cond : String → V6 → Prop) : Prop where
  left : ∀ left rest, (∃ hop ∈ hops rest, ¬ Proxied lower isIP check hop) →
    clientIpFromForwardedFor lower isIP check (some (left ++ "," ++ rest)) =
      clientIpFromForwardedFor lower isIP check (some rest)
  v4 : ∀ header entry v, Visitor lower isIP check header entry → entry.toList = V4.text v →
    clientIpFromForwardedFor lower isIP check (some header) = .ok (some (IpAddress.v4 v).key)
  v6 : ∀ header entry a, Visitor lower isIP check header entry → Spells entry.toList a →
    cond entry a →
    clientIpFromForwardedFor lower isIP check (some header) = .ok (some (IpAddress.v6 a).key)
  spellings : ∀ header header' left left' entry entry' right right' a,
    hops header = left ++ entry :: right → hops header' = left' ++ entry' :: right' →
    (∀ hop ∈ right, Proxied lower isIP check hop) →
    (∀ hop ∈ right', Proxied lower isIP check hop) → ¬ Proxied lower isIP check entry →
    Spells entry.toList a → Spells entry'.toList a → cond entry a → cond entry' a →
    clientIpFromForwardedFor lower isIP check (some header) =
      clientIpFromForwardedFor lower isIP check (some header')
  sameNet : ∀ a b, V6.v4? a = none → V6.v4? b = none →
    ((IpAddress.v6 a).key = (IpAddress.v6 b).key ↔ a.groups.take 4 = b.groups.take 4)
  mapped : ∀ v a, V6.v4? a = some v → (IpAddress.v6 a).key = (IpAddress.v4 v).key
  apart : ∀ v a, V6.v4? a = none → (IpAddress.v4 v).key ≠ (IpAddress.v6 a).key

/-- Not mapped, or written so that it is seen to be. -/
def ShowsMapped (lower : String → String) (entry : String) (a : V6) : Prop :=
  a.v4? = none ∨ DottedMapped lower entry

theorem key_v6 {a : V6} (h : a.v4? = none) : (IpAddress.v6 a).key = prefixKey a := by
  simp only [IpAddress.key, h]
  rfl

theorem clientIp_oneKey (hlower : LowersAscii lower) (hnode : NodeNet isIP check) :
    OneKey lower isIP check (ShowsMapped lower) ∧
      ∀ header entry a, Visitor lower isIP check header entry → Spells entry.toList a →
        (clientIpFromForwardedFor lower isIP check (some header) =
          .ok (some (IpAddress.v6 a).key) ↔ ShowsMapped lower entry a) := by
  refine ⟨⟨fun left rest h => clientIp_left h, fun header entry v hvis hv => ?_,
    fun header entry a hvis hs hc => ?_, ?_, fun a b ha hb => ?_, fun v a ha => ?_,
    fun v a ha hk => ?_⟩, fun header entry a hvis hs => ?_⟩
  · rw [hvis.clientIp, entryKey_v4 hnode (unmapIPv4_v4 hlower hnode hv)]
    rfl
  · rw [hvis.clientIp]
    exact (entryKey_spells hlower hnode hs).2 hc
  · intro header header' left left' entry entry' right right' a hh hh' hr hr' hout hs hs' hc hc'
    have hvis : Visitor lower isIP check header entry := ⟨left, right, hh, hr, hout⟩
    have hvis' : Visitor lower isIP check header' entry' :=
      ⟨left', right', hh', hr', outside_of_spells hlower hnode hs hs' hc hc' hout⟩
    rw [hvis.clientIp, hvis'.clientIp, (entryKey_spells hlower hnode hs).2 hc,
      (entryKey_spells hlower hnode hs').2 hc']
  · rw [key_v6 ha, key_v6 hb]
    exact prefixKey_iff
  · simp only [IpAddress.key, ha]
    rfl
  · rw [key_v6 ha] at hk
    exact prefixKey_ne_text a v hk.symm
  · rw [hvis.clientIp]
    exact entryKey_spells hlower hnode hs

end Walk

section Instance

theorem colon_of_spells {s : List Char} {a : V6} (h : Spells s a) : ':' ∈ s := by
  obtain ⟨t, hok, rfl, -⟩ := h
  cases t with
  | full gs =>
    obtain ⟨hrow, hlen⟩ := hok
    match gs, hrow, hlen with
    | [], _, hlen => exact absurd hlen (by decide)
    | [.hex _], _, hlen => exact absurd hlen (by simp [rowValues, Group.values])
    | [.dotted _], _, hlen => exact absurd hlen (by simp [rowValues, Group.values, V4.groups])
    | g :: g' :: gs, _, _ =>
      show ':' ∈ rowText (g :: g' :: gs)
      rw [rowText_cons_cons]
      exact List.mem_append_right _ List.mem_cons_self
  | compressed head tail => exact List.mem_append_right _ List.mem_cons_self

def asciiLower (s : String) : String := String.ofList (s.toList.map Char.toLower)

open Classical in
/-- The syntax of addresses. -/
noncomputable def syntaxIP (s : String) : Nat :=
  if ∃ v : V4, s.toList = v.text then 4 else if ∃ a, Spells s.toList a then 6 else 0

theorem lowersAscii_asciiLower : LowersAscii asciiLower := fun _ _ => String.toList_ofList

/-- A block list of the two ranges that the proxies below are in. -/
def proxyCheck (_ : List Subnet) (ip : String) : IpFamily → Bool
  | .ipv4 => "172.64.".toList.isPrefixOf ip.toList
  | .ipv6 => match ipv6Prefix64 (asciiLower ip) with
    | .ok net => "2606:4700:".toList.isPrefixOf net.toList
    | .error _ => false

theorem nodeNet_syntaxIP : NodeNet syntaxIP proxyCheck where
  four s := by
    unfold syntaxIP
    split_ifs with hv hs
    · exact iff_of_true rfl hv
    · exact iff_of_false (by decide) hv
    · exact iff_of_false (by decide) hv
  six s a h := by
    unfold syntaxIP
    rw [if_neg, if_pos ⟨a, h⟩]
    rintro ⟨v, hv⟩
    exact (v.text_ne (hv ▸ colon_of_spells h)).1 rfl
  tests s s' a h h' := by
    unfold proxyCheck asciiLower
    rw [ipv6Prefix64_spells h, ipv6Prefix64_spells h']

def documentationV6 : V6 := ⟨[0x2001, 0xdb8, 0, 0x12, 0, 0, 0, 5], rfl, by decide⟩

theorem documentationV6_spells : Spells "2001:0DB8:0:12::5".toList documentationV6 := by
  refine ⟨.compressed [.hex "2001".toList, .hex "0DB8".toList, .hex "0".toList, .hex "12".toList]
    [.hex "5".toList], ⟨⟨?_, ?_, ?_, ?_, trivial⟩, ?_, ⟨?_, trivial⟩, ?_⟩, ?_, ?_⟩
  · exact ⟨by decide, by decide, by decide⟩
  · exact ⟨by decide, by decide, by decide⟩
  · exact ⟨by decide, by decide, by decide⟩
  · exact ⟨by decide, by decide, by decide⟩
  · simp [Group.IsHex]
  · exact ⟨by decide, by decide, by decide⟩
  · decide
  · decide
  · decide

/-- A proxy's address. -/
def cloudflareV6 : V6 := ⟨[0x2606, 0x4700, 0, 0, 0, 0, 0, 9], rfl, by decide⟩

theorem cloudflareV6_spells : Spells "2606:4700::9".toList cloudflareV6 := by
  refine ⟨.compressed [.hex "2606".toList, .hex "4700".toList] [.hex "9".toList],
    ⟨⟨?_, ?_, trivial⟩, ?_, ⟨?_, trivial⟩, ?_⟩, ?_, ?_⟩
  · exact ⟨by decide, by decide, by decide⟩
  · exact ⟨by decide, by decide, by decide⟩
  · simp [Group.IsHex]
  · exact ⟨by decide, by decide, by decide⟩
  · decide
  · decide
  · decide

theorem not_dotted {s : String} (h : '.' ∉ (asciiLower s).toList) : ¬ DottedMapped asciiLower s := by
  rintro ⟨v, hv⟩
  exact h (hv ▸ List.mem_append_right _ v.dot_mem_text)

/-- A visitor who writes a hop of her own and comes through two proxies. -/
theorem clientIp_documentationV6 : clientIpFromForwardedFor asciiLower syntaxIP proxyCheck
    (some "198.51.100.7, 2001:0DB8:0:12::5, 2606:4700::9, 172.64.3.9") =
      .ok (some (IpAddress.v6 documentationV6).key) := by
  have hvisitor : ¬ Proxied asciiLower syntaxIP proxyCheck "2001:0DB8:0:12::5" := by
    rw [proxied_v6 lowersAscii_asciiLower nodeNet_syntaxIP documentationV6_spells
      (not_dotted (by decide +kernel))]
    decide +kernel
  have hfirst : Proxied asciiLower syntaxIP proxyCheck "2606:4700::9" :=
    (proxied_v6 lowersAscii_asciiLower nodeNet_syntaxIP cloudflareV6_spells
      (not_dotted (by decide +kernel))).2 (by decide +kernel)
  have hlast : Proxied asciiLower syntaxIP proxyCheck "172.64.3.9" :=
    (proxied_v4 (v := ⟨172, 64, 3, 9⟩) lowersAscii_asciiLower nodeNet_syntaxIP
      (by decide +kernel)).2 (by decide +kernel)
  refine (clientIp_oneKey lowersAscii_asciiLower nodeNet_syntaxIP).1.v6 _ "2001:0DB8:0:12::5" _
    ⟨["198.51.100.7"], ["2606:4700::9", "172.64.3.9"], by decide +kernel, ?_, hvisitor⟩
    documentationV6_spells (.inl (by decide +kernel))
  simp only [List.forall_mem_cons, List.not_mem_nil, IsEmpty.forall_iff, implies_true, and_true]
  exact ⟨hfirst, hlast⟩

/-- `1.2.3.4`, mapped, in hexadecimal digits. -/
def hiddenMapped : String := "::ffff:102:304"

theorem hiddenMapped_spells : Spells hiddenMapped.toList (V4.mapped ⟨1, 2, 3, 4⟩) := by
  refine ⟨.compressed [] [.hex "ffff".toList, .hex "102".toList, .hex "304".toList],
    ⟨trivial, by simp, ⟨⟨?_, ?_, ?_, trivial⟩, ?_⟩⟩, ?_, ?_⟩
  · exact ⟨by decide, by decide, by decide⟩
  · exact ⟨by decide, by decide, by decide⟩
  · exact ⟨by decide, by decide, by decide⟩
  · decide
  · decide
  · decide

/-- A mapped address in hexadecimal digits has the key of all of `0:0:0:0::/64`. -/
theorem clientIp_hiddenMapped : ¬ ∀ (lower : String → String) (isIP : String → Nat)
    (check : List Subnet → String → IpFamily → Bool), LowersAscii lower → NodeNet isIP check →
      OneKey lower isIP check fun _ _ => True := by
  intro h
  have hkey := h asciiLower syntaxIP proxyCheck lowersAscii_asciiLower nodeNet_syntaxIP
  have hnot : ¬ DottedMapped asciiLower hiddenMapped := not_dotted (by decide +kernel)
  have hout : ¬ Proxied asciiLower syntaxIP proxyCheck hiddenMapped := by
    rw [proxied_v6 lowersAscii_asciiLower nodeNet_syntaxIP hiddenMapped_spells hnot]
    decide +kernel
  have hvis : Visitor asciiLower syntaxIP proxyCheck hiddenMapped hiddenMapped :=
    ⟨[], [], by decide +kernel, by simp, hout⟩
  have hresult := hkey.v6 _ _ _ hvis hiddenMapped_spells trivial
  rw [hvis.clientIp] at hresult
  have hshown := (entryKey_spells lowersAscii_asciiLower nodeNet_syntaxIP
    hiddenMapped_spells).1 hresult
  exact hnot (hshown.resolve_left (by decide +kernel))

end Instance

end EchoAndAura
