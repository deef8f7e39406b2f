import EchoAndAura.IpText
import EchoAndAura.Text

/-!
# The visitor's address

`clientIpFromForwardedFor`: the rightmost entry of `X-Forwarded-For` that is not a proxy's, an IPv6
one by its /64.  `lower` is JavaScript's `toLowerCase`, and `isIP` and `check` (a `BlockList`'s) are
Node's.
-/

namespace EchoAndAura

def cloudflareRanges : List String :=
  ["173.245.48.0/20", "103.21.244.0/22", "103.22.200.0/22", "103.31.4.0/22", "141.101.64.0/18",
    "108.162.192.0/18", "190.93.240.0/20", "188.114.96.0/20", "197.234.240.0/22",
    "198.41.128.0/17", "162.158.0.0/15", "104.16.0.0/13", "104.24.0.0/14", "172.64.0.0/13",
    "131.0.72.0/22", "2400:cb00::/32", "2606:4700::/32", "2803:f800::/32", "2405:b500::/32",
    "2405:8100::/32", "2a06:98c0::/29", "2c0f:f248::/32"]

/-- The families a `BlockList` tells apart. -/
inductive IpFamily
  | ipv4
  | ipv6
  deriving DecidableEq, Repr

structure Subnet where
  network : String
  bits : Nat
  family : IpFamily

def subnetOf (range : String) : Subnet :=
  let parts := range.toList.splitOn '/'
  let network := parts.headD []
  { network := String.ofList network
    bits := (parts.getD 1 []).foldl (fun n c => 10 * n + (c.toNat - '0'.toNat)) 0
    family := if network.contains ':' then .ipv6 else .ipv4 }

def trustedProxies : List Subnet := cloudflareRanges.map subnetOf

section ClientIp

variable (lower : String → String) (isIP : String → Nat)
variable (check : List Subnet → String → IpFamily → Bool)

def mappedPrefix : List Char := "::ffff:".toList

/-- `::ffff:192.0.2.1` is an IPv4 visitor written as IPv6. -/
def unmapIPv4 (ip : String) : String :=
  let lowered := lower ip
  let rest := String.ofList (lowered.toList.drop 7)
  if mappedPrefix.isPrefixOf lowered.toList ∧ isIP rest = 4 then rest else lowered

/-- `split('::')` -/
def splitDouble : List Char → List (List Char)
  | [] => [[]]
  | [c] => [[c]]
  | c :: d :: cs =>
    if c = ':' ∧ d = ':' then [] :: splitDouble cs
    else match splitDouble (d :: cs) with
      | [] => [[c]]
      | part :: parts => (c :: part) :: parts

/-- The groups of one side of a `::`; a dotted one fills two. -/
def groupWidth (groups : List (List Char)) : Nat :=
  (groups.map fun g => if g.contains '.' then 2 else 1).sum

def sideGroups (side : List Char) : List (List Char) := if side = [] then [] else side.splitOn ':'

/-- An array cannot be of a length below zero. -/
def ipv6Groups (ip : List Char) : Except String (List (List Char)) :=
  let parts := splitDouble ip
  let left := sideGroups (parts.headD [])
  match parts.tail with
  | [] => .ok left
  | tail :: _ =>
    let right := sideGroups tail
    if 8 < groupWidth left + groupWidth right then .error "RangeError: Invalid array length"
    else .ok (left ++ List.replicate (8 - groupWidth left - groupWidth right) ['0'] ++ right)

def ipv6Prefix64 (ip : String) : Except String String := do
  let groups ← ipv6Groups ip.toList
  let prefix64 := (groups.take 4).map IpText.dropZeros
  return String.ofList ([':'].intercalate prefix64 ++ "::/64".toList)

def familyOf (version : Nat) : IpFamily := if version = 6 then .ipv6 else .ipv4

/-- The walk over the hops, the rightmost first. -/
def walkHops : List String → Except String (Option String)
  | [] => .ok none
  | hop :: hops =>
    let ip := unmapIPv4 lower isIP hop
    let version := isIP ip
    if version = 0 then .ok none
    else if check trustedProxies ip (familyOf version) then walkHops hops
    else if version = 6 then (ipv6Prefix64 ip).map some
    else .ok (some ip)

/-- The entries, trimmed, without the empty ones. -/
def hops (header : String) : List String :=
  ((header.toList.splitOn ',').map fun hop => trim (String.ofList hop)).filter (· ≠ "")

def clientIpFromForwardedFor (header : Option String) : Except String (Option String) :=
  match header with
  | none => .ok none
  | some header => walkHops lower isIP check (hops header).reverse

end ClientIp

end EchoAndAura
