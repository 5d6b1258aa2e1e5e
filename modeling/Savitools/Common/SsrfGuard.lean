import Mathlib.Algebra.Group.Nat.Defs
import Savitools.Common.Exceptions
import Savitools.Net.Addresses

namespace Savitools.Common.SsrfGuard

open Strings.CodeUnits Strings.Decimals Net.Addresses Exceptions

def ipv4ToInt (ip : Text) : BitVec 32 :=
  (split (unit '.') ip).foldl (fun acc octet => (acc <<< 8) + BitVec.ofNat 32 (digitsValue octet)) 0

def inIpv4Range (ip cidr : Text) : Bool :=
  match split (unit '/') cidr with
  | [range, bitsStr] =>
      let bits := digitsValue bitsStr
      let mask : BitVec 32 := if bits = 0 then 0 else (~~~(0 : BitVec 32)) <<< (32 - bits)
      (ipv4ToInt ip &&& mask) == (ipv4ToInt range &&& mask)
  | _ => false

def forbiddenIpv4Ranges : List Text :=
  [text "0.0.0.0/8", text "10.0.0.0/8", text "100.64.0.0/10", text "127.0.0.0/8", text "169.254.0.0/16",
    text "172.16.0.0/12", text "192.0.0.0/24", text "192.168.0.0/16", text "198.18.0.0/15", text "224.0.0.0/4",
    text "240.0.0.0/4"]

def isForbiddenIpv4 (ip : Text) : Bool := forbiddenIpv4Ranges.any (inIpv4Range ip)

/-- The prefixes by which link-local and unique-local addresses are told. -/
def hasLocalPrefix (normalized : Text) : Bool :=
  [text "fe80:", text "fe8", text "fe9", text "fea", text "feb", text "fc", text "fd"].any
    (fun pre => pre.isPrefixOf normalized)

def mappedPrefix : Text := text "::ffff:"

/-- `^::ffff:(\d+\.\d+\.\d+\.\d+)$`, with its group. -/
def mappedIpv4 (normalized : Text) : Option Text :=
  let rest := normalized.drop mappedPrefix.length
  if mappedPrefix.isPrefixOf normalized ∧ (split (unit '.') rest).length = 4 ∧
      (split (unit '.') rest).all (fun part => part ≠ [] && part.all isDigit) then
    some rest
  else none

def isForbiddenIp (ip : Text) : Bool :=
  if isIP ip = 4 then isForbiddenIpv4 ip
  else if isIP ip = 6 then
    let normalized := ip.map toLowerAscii
    if normalized = text "::1" ∨ normalized = text "::" then true
    else if hasLocalPrefix normalized then true
    -- The group has digits and dots only, so the call on it takes the IPv4 branch or none.
    else (mappedIpv4 normalized).any (fun mapped => isIP mapped = 4 && isForbiddenIpv4 mapped)
  else false

def nonPublicAddress : Exception := .badRequest (text "Target host resolves to a non-public address")

/-- `dnsLookup` gives all addresses of a name, or nothing when it fails. -/
def assertPublicHostname (dnsLookup : Text → Option (List Text)) (hostname : Text) : Except Exception Unit :=
  if isIP hostname ≠ 0 then if isForbiddenIp hostname then .error nonPublicAddress else .ok ()
  else
    match dnsLookup hostname with
    | none => .error (.badGateway (text "Could not resolve host: " ++ hostname))
    | some records => if records = [] ∨ records.any isForbiddenIp then .error nonPublicAddress else .ok ()

end Savitools.Common.SsrfGuard

namespace Savitools.Common.SsrfAddresses

open Strings.CodeUnits Strings.Decimals Net.Addresses SsrfGuard

/-- The refused IPv4 ranges: the first address and the number of leading bits that count. -/
def forbiddenRanges : List (Nat × Nat) :=
  [(0, 8), (dotted 10 0 0 0, 8), (dotted 100 64 0 0, 10), (dotted 127 0 0 0, 8), (dotted 169 254 0 0, 16),
    (dotted 172 16 0 0, 12), (dotted 192 0 0 0, 24), (dotted 192 168 0 0, 16), (dotted 198 18 0 0, 15),
    (dotted 224 0 0 0, 4), (dotted 240 0 0 0, 4)]

def Within (v : Nat) (range : Nat × Nat) : Prop := v / 2 ^ (32 - range.2) = range.1 / 2 ^ (32 - range.2)

def ForbiddenV4 (v : Nat) : Prop := ∃ range ∈ forbiddenRanges, Within v range

inductive ForbiddenV6 : List Nat → Prop
  | linkLocal {first : Nat} (rest : List Nat) (hle : 0xfe80 ≤ first) (hlt : first < 0xfec0) : ForbiddenV6 (first :: rest)
  | uniqueLocal {first : Nat} (rest : List Nat) (hle : 0xfc00 ≤ first) (hlt : first < 0xfe00) :
      ForbiddenV6 (first :: rest)
  | unspecified : ForbiddenV6 [0, 0, 0, 0, 0, 0, 0, 0]
  | loopback : ForbiddenV6 [0, 0, 0, 0, 0, 0, 0, 1]
  | compatible {hi lo : Nat} (h : ForbiddenV4 (hi * 65536 + lo)) : ForbiddenV6 [0, 0, 0, 0, 0, 0, hi, lo]
  | mapped {hi lo : Nat} (h : ForbiddenV4 (hi * 65536 + lo)) : ForbiddenV6 [0, 0, 0, 0, 0, 0xffff, hi, lo]

def Forbidden : Address → Prop
  | .v4 value => ForbiddenV4 value
  | .v6 groups => ForbiddenV6 groups

theorem mask_eq_iff (x y : BitVec 32) (k : Nat) :
    x &&& (~~~(0 : BitVec 32)) <<< k = y &&& (~~~(0 : BitVec 32)) <<< k ↔ x.toNat / 2 ^ k = y.toNat / 2 ^ k := by
  have hmask : ∀ i, ((~~~(0 : BitVec 32)) <<< k).getLsbD i = (decide (i < 32) && decide (k ≤ i)) := by
    intro i
    have hzero : (0 : BitVec 32).getLsbD (i - k) = false := BitVec.getLsbD_zero
    rw [BitVec.getLsbD_shiftLeft, BitVec.getLsbD_not, hzero, Bool.not_false, Bool.and_true]
    by_cases hi : i < 32
    · rw [decide_eq_true hi, decide_eq_true (show i - k < 32 by omega), Bool.and_true, Bool.true_and, Bool.true_and,
        ← decide_not]
      exact decide_eq_decide.mpr Nat.not_lt
    · rw [decide_eq_false hi, Bool.false_and, Bool.false_and, Bool.false_and]
  have hshift : x >>> k = y >>> k ↔ x.toNat / 2 ^ k = y.toNat / 2 ^ k := by
    rw [← BitVec.toNat_inj, BitVec.toNat_ushiftRight, BitVec.toNat_ushiftRight, Nat.shiftRight_eq_div_pow,
      Nat.shiftRight_eq_div_pow]
  rw [← hshift]
  constructor
  · intro h
    refine BitVec.eq_of_getLsbD_eq (fun i _ => ?_)
    have hbit := congrArg (fun v => v.getLsbD (k + i)) h
    simp only [BitVec.getLsbD_and, hmask] at hbit
    rw [BitVec.getLsbD_ushiftRight, BitVec.getLsbD_ushiftRight]
    by_cases hi : k + i < 32
    · simpa [hi] using hbit
    · rw [BitVec.getLsbD_of_ge _ _ (Nat.le_of_not_lt hi), BitVec.getLsbD_of_ge _ _ (Nat.le_of_not_lt hi)]
  · intro h
    refine BitVec.eq_of_getLsbD_eq (fun i hi => ?_)
    rw [BitVec.getLsbD_and, BitVec.getLsbD_and, hmask]
    by_cases hk : k ≤ i
    · have hbit := congrArg (fun v => v.getLsbD (i - k)) h
      simp only [BitVec.getLsbD_ushiftRight, Nat.add_sub_cancel' hk] at hbit
      rw [hbit]
    · rw [decide_eq_false hk, Bool.and_false, Bool.and_false, Bool.and_false]

theorem toNat_push {acc : BitVec 32} {n : Nat} (h : acc.toNat * 256 + n < 2 ^ 32) :
    ((acc <<< 8) + BitVec.ofNat 32 n).toNat = acc.toNat * 256 + n := by
  rw [BitVec.toNat_add, BitVec.toNat_shiftLeft, BitVec.toNat_ofNat, Nat.shiftLeft_eq]
  omega

theorem toNat_ipv4ToInt {ip : Text} {v : Nat} (h : readIPv4 ip = some v) : (ipv4ToInt ip).toNat = v := by
  obtain ⟨a, b, c, d, w, x, y, z, hsplit, hw, hx, hy, hz, rfl⟩ := readIPv4_eq_some h
  obtain ⟨-, -, rfl, hw⟩ := octet_eq_some hw
  obtain ⟨-, -, rfl, hx⟩ := octet_eq_some hx
  obtain ⟨-, -, rfl, hy⟩ := octet_eq_some hy
  obtain ⟨-, -, rfl, hz⟩ := octet_eq_some hz
  have hzero : (0 : BitVec 32).toNat = 0 := rfl
  rw [ipv4ToInt, hsplit]
  simp only [List.foldl_cons, List.foldl_nil]
  have h₁ := @toNat_push 0 (digitsValue a) (by rw [hzero]; omega)
  have h₂ := toNat_push (show _ * 256 + digitsValue b < 2 ^ 32 by rw [h₁, hzero]; omega)
  have h₃ := toNat_push (show _ * 256 + digitsValue c < 2 ^ 32 by rw [h₂, h₁, hzero]; omega)
  have h₄ := toNat_push (show _ * 256 + digitsValue d < 2 ^ 32 by rw [h₃, h₂, h₁, hzero]; omega)
  rw [h₄, h₃, h₂, h₁, hzero, dotted]
  omega

/-- What a range of the list denotes. -/
def rangeOf (cidr : Text) : Nat × Nat :=
  match split (unit '/') cidr with
  | [range, bits] => ((ipv4ToInt range).toNat, digitsValue bits)
  | _ => (0, 0)

theorem inIpv4Range_iff {ip cidr : Text} {v : Nat} (h : readIPv4 ip = some v) (hbits : (rangeOf cidr).2 ≠ 0) :
    inIpv4Range ip cidr = true ↔ Within v (rangeOf cidr) := by
  rcases hsplit : split (unit '/') cidr with _ | ⟨range, _ | ⟨bits, _ | ⟨more, others⟩⟩⟩
  · exact absurd (by rw [rangeOf, hsplit]) hbits
  · exact absurd (by rw [rangeOf, hsplit]) hbits
  · have hrange : rangeOf cidr = ((ipv4ToInt range).toNat, digitsValue bits) := by rw [rangeOf, hsplit]
    rw [hrange] at hbits ⊢
    rw [inIpv4Range, hsplit, Within, ← toNat_ipv4ToInt h]
    simp only [beq_iff_eq, if_neg hbits]
    exact mask_eq_iff _ _ _
  · exact absurd (by rw [rangeOf, hsplit]) hbits

theorem isForbiddenIpv4_iff {ip : Text} {v : Nat} (h : readIPv4 ip = some v) :
    isForbiddenIpv4 ip = true ↔ ForbiddenV4 v := by
  have hranges : forbiddenIpv4Ranges.map rangeOf = forbiddenRanges := by decide
  have hbits : ∀ cidr ∈ forbiddenIpv4Ranges, (rangeOf cidr).2 ≠ 0 := by decide
  rw [isForbiddenIpv4, List.any_eq_true, ForbiddenV4, ← hranges]
  constructor
  · rintro ⟨cidr, hcidr, hin⟩
    exact ⟨_, List.mem_map_of_mem hcidr, (inIpv4Range_iff h (hbits cidr hcidr)).mp hin⟩
  · rintro ⟨range, hrange, hwithin⟩
    obtain ⟨cidr, hcidr, rfl⟩ := List.mem_map.mp hrange
    exact ⟨cidr, hcidr, (inIpv4Range_iff h (hbits cidr hcidr)).mpr hwithin⟩

theorem hexDigitValue_lt {u : UInt16} (hu : isHexDigit u = true) : hexDigitValue u < 16 :=
  List.idxOf_lt_length_iff.mpr (List.contains_iff_mem.mp hu)

theorem toLowerAscii_eq_iff {u : UInt16} (hu : isHexDigit u = true) (w : UInt16) :
    toLowerAscii u = w ↔ hexDigitValue u = hexDigits.idxOf w :=
  (List.idxOf_inj (List.contains_iff_mem.mp hu)).symm

/-- The first group of an address that is link-local or unique-local. -/
def LocalGroup (x : Nat) : Prop := (0xfe80 ≤ x ∧ x < 0xfec0) ∨ (0xfc00 ≤ x ∧ x < 0xfe00)

theorem localGroup_iff {a b c d : Nat} (hb : b < 16) (hc : c < 16) (hd : d < 16) (ha : a < 16) :
    LocalGroup (16 * (16 * (16 * (16 * 0 + a) + b) + c) + d) ↔
      a = 15 ∧ (b = 12 ∨ b = 13 ∨ (b = 14 ∧ (c = 8 ∨ c = 9 ∨ c = 10 ∨ c = 11))) := by
  rw [LocalGroup]
  constructor
  · intro h
    obtain rfl : a = 15 := by omega
    obtain hb | rfl : b < 14 ∨ b = 14 := by omega
    · omega
    · omega
  · omega

theorem hasLocalPrefix_cons (a b c : UInt16) (rest : Text) :
    hasLocalPrefix (a :: b :: c :: rest) = true ↔ a = unit 'f' ∧
      (b = unit 'c' ∨ b = unit 'd' ∨
        (b = unit 'e' ∧ (c = unit '8' ∨ c = unit '9' ∨ c = unit 'a' ∨ c = unit 'b'))) := by
  have hlink : [text "fe80:", text "fe8", text "fe9", text "fea", text "feb"] =
      [[unit 'f', unit 'e', unit '8', unit '0', unit ':'], [unit 'f', unit 'e', unit '8'],
        [unit 'f', unit 'e', unit '9'], [unit 'f', unit 'e', unit 'a'], [unit 'f', unit 'e', unit 'b']] := by decide
  have hunique : [text "fc", text "fd"] = [[unit 'f', unit 'c'], [unit 'f', unit 'd']] := by decide
  have hall : hasLocalPrefix (a :: b :: c :: rest) =
      ([text "fe80:", text "fe8", text "fe9", text "fea", text "feb"] ++ [text "fc", text "fd"]).any
        (fun pre => pre.isPrefixOf (a :: b :: c :: rest)) := rfl
  rw [hall, hlink, hunique]
  simp only [List.cons_append, List.nil_append, List.any_cons, List.any_nil, List.isPrefixOf_cons_cons,
    List.isPrefixOf_nil_left, Bool.and_true, Bool.or_false, Bool.or_eq_true, Bool.and_eq_true, beq_iff_eq]
  constructor
  · rintro (⟨rfl, rfl, rfl, -⟩ | ⟨rfl, rfl, rfl⟩ | ⟨rfl, rfl, rfl⟩ | ⟨rfl, rfl, rfl⟩ | ⟨rfl, rfl, rfl⟩ | ⟨rfl, rfl⟩ |
      ⟨rfl, rfl⟩) <;> simp
  · rintro ⟨rfl, rfl | rfl | ⟨rfl, rfl | rfl | rfl | rfl⟩⟩ <;> simp

theorem hasLocalPrefix_short {a : UInt16} {rest : Text} : hasLocalPrefix (a :: unit ':' :: rest) = false := by
  have hpre : ∀ pre ∈ [text "fe80:", text "fe8", text "fe9", text "fea", text "feb", text "fc", text "fd"],
      ∃ x y tail, pre = x :: y :: tail ∧ y ≠ unit ':' := by
    intro pre hmem
    simp only [List.mem_cons, List.not_mem_nil, or_false] at hmem
    rcases hmem with rfl | rfl | rfl | rfl | rfl | rfl | rfl <;> exact ⟨_, _, _, rfl, by decide⟩
  refine List.any_eq_false.mpr (fun pre hmem hstarts => ?_)
  obtain ⟨x, y, tail, rfl, hy⟩ := hpre pre hmem
  simp only [List.isPrefixOf_cons_cons, Bool.and_eq_true, beq_iff_eq] at hstarts
  exact hy hstarts.2.1

/-- What the prefixes tell about the first group: they are met only by a group that is not
zero, and of the groups of four digits by the local ones. -/
theorem hasLocalPrefix_group {h rest : Text} {x : Nat} (hx : hexGroup h = some x) :
    (hasLocalPrefix ((h ++ unit ':' :: rest).map toLowerAscii) = true → x ≠ 0) ∧
      (LocalGroup x ↔ hasLocalPrefix ((h ++ unit ':' :: rest).map toLowerAscii) = true ∧ h.length = 4) := by
  obtain ⟨hne, hlength, hdigits, rfl⟩ := hexGroup_eq_some hx
  have hcolon : toLowerAscii (unit ':') = unit ':' := by decide
  have hnot : ¬(unit ':' = unit '8' ∨ unit ':' = unit '9' ∨ unit ':' = unit 'a' ∨ unit ':' = unit 'b') := by decide
  obtain ⟨h8, h9, hA, hB, hC, hD, hE, hF⟩ : hexDigits.idxOf (unit '8') = 8 ∧ hexDigits.idxOf (unit '9') = 9 ∧
      hexDigits.idxOf (unit 'a') = 10 ∧ hexDigits.idxOf (unit 'b') = 11 ∧ hexDigits.idxOf (unit 'c') = 12 ∧
      hexDigits.idxOf (unit 'd') = 13 ∧ hexDigits.idxOf (unit 'e') = 14 ∧ hexDigits.idxOf (unit 'f') = 15 := by decide
  rw [List.all_eq_true] at hdigits
  have hvalue : ∀ u ∈ h, hexDigitValue u < 16 := fun u hu => hexDigitValue_lt (hdigits u hu)
  match h with
  | [] => exact absurd rfl hne
  | [a] =>
      have ha := hvalue a (by simp)
      simp only [List.cons_append, List.nil_append, List.map_cons, hcolon, hasLocalPrefix_short, hexValue,
        List.foldl_cons, List.foldl_nil, LocalGroup, Bool.false_eq_true, false_and]
      exact ⟨False.elim, fun h => by omega, False.elim⟩
  | [a, b] =>
      simp only [List.forall_mem_cons, List.mem_singleton, forall_eq] at hdigits hvalue
      simp only [List.cons_append, List.nil_append, List.map_cons, hcolon, hasLocalPrefix_cons, hnot, and_false, or_false,
        toLowerAscii_eq_iff hdigits.1, toLowerAscii_eq_iff hdigits.2, hC, hD, hF, hexValue, List.foldl_cons,
        List.foldl_nil, LocalGroup, List.length_cons, List.length_nil]
      omega
  | [a, b, c] =>
      simp only [List.forall_mem_cons, List.mem_singleton, forall_eq] at hdigits hvalue
      simp only [List.cons_append, List.nil_append, List.map_cons, hasLocalPrefix_cons, toLowerAscii_eq_iff hdigits.1,
        toLowerAscii_eq_iff hdigits.2.1, toLowerAscii_eq_iff hdigits.2.2, h8, h9, hA, hB, hC, hD, hE, hF, hexValue,
        List.foldl_cons, List.foldl_nil, LocalGroup, List.length_cons, List.length_nil]
      omega
  | [a, b, c, d] =>
      simp only [List.forall_mem_cons, List.mem_singleton, forall_eq] at hdigits hvalue
      obtain ⟨ha, hb, hc, hd⟩ := hvalue
      have hlocal := localGroup_iff hb hc hd ha
      simp only [List.cons_append, List.nil_append, List.map_cons, hasLocalPrefix_cons, toLowerAscii_eq_iff hdigits.1,
        toLowerAscii_eq_iff hdigits.2.1, toLowerAscii_eq_iff hdigits.2.2.1, h8, h9, hA, hB, hC, hD, hE, hF, hexValue,
        List.foldl_cons, List.foldl_nil, hlocal, List.length_cons, List.length_nil]
      exact ⟨by omega, fun h => ⟨h, trivial⟩, fun h => h.1⟩
  | a :: b :: c :: d :: e :: rest =>
      simp only [List.length_cons] at hlength
      omega

theorem hasLocalPrefix_colon (rest : Text) : hasLocalPrefix (unit ':' :: rest) = false := by
  have hpre : ∀ pre ∈ [text "fe80:", text "fe8", text "fe9", text "fea", text "feb", text "fc", text "fd"],
      ∃ tail, pre = unit 'f' :: tail := by
    intro pre hmem
    simp only [List.mem_cons, List.not_mem_nil, or_false] at hmem
    rcases hmem with rfl | rfl | rfl | rfl | rfl | rfl | rfl <;> exact ⟨_, rfl⟩
  refine List.any_eq_false.mpr (fun pre hmem hstarts => ?_)
  obtain ⟨tail, rfl⟩ := hpre pre hmem
  simp only [List.isPrefixOf_cons_cons, Bool.and_eq_true, beq_iff_eq] at hstarts
  exact absurd hstarts.1 (by decide)

/-- The text before the first colon. -/
def firstPart (ip : Text) : Text := ip.takeWhile (fun u => u ≠ unit ':')

theorem firstPart_append {h : Text} (hcolon : unit ':' ∉ h) (rest : Text) : firstPart (h ++ unit ':' :: rest) = h := by
  have hall : ∀ u ∈ h, decide (u ≠ unit ':') = true := fun u hu => decide_eq_true (fun heq => hcolon (heq ▸ hu))
  rw [firstPart, List.takeWhile_append_of_pos hall, List.takeWhile_cons_of_neg (by simp), List.append_nil]

theorem hasLocalPrefix_firstGroup {ip : Text} {groups : List Nat} (h : FirstGroup ip groups) :
    (hasLocalPrefix (ip.map toLowerAscii) = true → groups.head? ≠ some 0) ∧
      ((∃ x, groups.head? = some x ∧ LocalGroup x) ↔
        hasLocalPrefix (ip.map toLowerAscii) = true ∧ (firstPart ip).length = 4) := by
  rcases h with ⟨hhead, hzero⟩ | ⟨first, rest, x, rfl, hfirst, hx, hgroups⟩
  · obtain ⟨rest, rfl⟩ := List.head?_eq_some_iff.mp hhead
    have hcolon : (unit ':' :: rest).map toLowerAscii = unit ':' :: rest.map toLowerAscii := rfl
    rw [hcolon, hasLocalPrefix_colon, hzero]
    refine ⟨nofun, ?_, nofun⟩
    rintro ⟨x, hx, hlocal⟩
    obtain rfl := Option.some.inj hx
    exact absurd hlocal (by simp [LocalGroup])
  · obtain ⟨hnonzero, hlocal⟩ := @hasLocalPrefix_group first rest x hx
    rw [hgroups, firstPart_append hfirst]
    refine ⟨fun hpre heq => hnonzero hpre (Option.some.inj heq), ?_⟩
    rw [← hlocal]
    constructor
    · rintro ⟨y, hy, hlocal⟩
      exact Option.some.inj hy ▸ hlocal
    · exact fun hlocal => ⟨x, rfl, hlocal⟩

theorem mappedIpv4_append {quad : Text} {v : Nat} (h : readIPv4 quad = some v) :
    mappedIpv4 (mappedPrefix ++ quad) = some quad := by
  obtain ⟨a, b, c, d, w, x, y, z, hsplit, hw, hx, hy, hz, -⟩ := readIPv4_eq_some h
  have hpart : ∀ {part : Text} {n : Nat}, octet part = some n → (decide (part ≠ []) && part.all isDigit) = true := by
    intro part n hoctet
    obtain ⟨hne, hdigits, -⟩ := octet_eq_some hoctet
    rw [decide_eq_true hne, hdigits, Bool.and_self]
  rw [mappedIpv4, List.drop_left, hsplit]
  refine if_pos ⟨List.isPrefixOf_iff_prefix.mpr (List.prefix_append _ _), rfl, ?_⟩
  simp only [List.all_cons, List.all_nil, hpart hw, hpart hx, hpart hy, hpart hz, Bool.and_self]

theorem mappedIpv4_eq_some {normalized quad : Text} (h : mappedIpv4 normalized = some quad) :
    normalized = mappedPrefix ++ quad := by
  rw [mappedIpv4] at h
  split at h
  next hc =>
    obtain ⟨rest, rfl⟩ := List.isPrefixOf_iff_prefix.mp hc.1
    rw [List.drop_left] at h
    rw [Option.some.inj h]
  next => cases h

theorem isIP_eq_four {ip : Text} : isIP ip = 4 ↔ ∃ v, readIPv4 ip = some v := by
  rw [isIP, ← Option.isSome_iff_exists]
  split
  next h => exact iff_of_true rfl h
  next h =>
    refine iff_of_false ?_ h
    split <;> decide

/-- The mapped addresses that the guard refuses. -/
theorem mapped_iff (normalized : Text) :
    (mappedIpv4 normalized).any (fun mapped => isIP mapped = 4 && isForbiddenIpv4 mapped) = true ↔
      ∃ quad v, normalized = mappedPrefix ++ quad ∧ readIPv4 quad = some v ∧ ForbiddenV4 v := by
  rw [Option.any_eq_true]
  constructor
  · rintro ⟨quad, hquad, h⟩
    rw [Bool.and_eq_true, decide_eq_true_eq] at h
    obtain ⟨v, hv⟩ := isIP_eq_four.mp h.1
    exact ⟨quad, v, mappedIpv4_eq_some hquad, hv, (isForbiddenIpv4_iff hv).mp h.2⟩
  · rintro ⟨quad, v, rfl, hv, hforbidden⟩
    exact ⟨quad, mappedIpv4_append hv, Bool.and_eq_true_iff.mpr
      ⟨decide_eq_true (isIP_eq_four.mpr ⟨v, hv⟩), (isForbiddenIpv4_iff hv).mpr hforbidden⟩⟩

theorem hexGroup_ffff {a b c d : UInt16} (ha : toLowerAscii a = unit 'f') (hb : toLowerAscii b = unit 'f')
    (hc : toLowerAscii c = unit 'f') (hd : toLowerAscii d = unit 'f') : hexGroup [a, b, c, d] = some 0xffff := by
  have hdigit : hexDigits.contains (unit 'f') = true := by decide
  have hvalue : hexDigits.idxOf (unit 'f') = 15 := by decide
  have hall : [a, b, c, d].all isHexDigit = true := by
    simp only [List.all_cons, List.all_nil, isHexDigit, ha, hb, hc, hd, hdigit, Bool.and_self]
  have hsum : hexValue [a, b, c, d] = 0xffff := by
    simp only [hexValue, List.foldl_cons, List.foldl_nil, hexDigitValue, ha, hb, hc, hd, hvalue]
  rw [hexGroup, if_pos ⟨List.cons_ne_nil _ _, Nat.le_refl 4, hall⟩, hsum]

theorem not_mem_quad {quad : Text} {v : Nat} (h : readIPv4 quad = some v) {u : UInt16} (hdigit : isDigit u = false)
    (hdot : u ≠ unit '.') : u ∉ quad := by
  intro hu
  rcases mem_of_readIPv4 h hu with hd | hd
  · rw [hdigit] at hd
    cases hd
  · exact hdot hd

/-- A text that is a mapped address in lower case denotes it. -/
theorem readIPv6_mapped {ip quad : Text} {v : Nat} (hmap : ip.map toLowerAscii = mappedPrefix ++ quad)
    (hquad : readIPv4 quad = some v) :
    readIPv6 ip = some [0, 0, 0, 0, 0, 0xffff, v / 65536, v % 65536] := by
  have hstarts : mappedPrefix = [unit ':', unit ':', unit 'f', unit 'f', unit 'f', unit 'f', unit ':'] := by decide
  obtain ⟨front, back, rfl, hfront, hback⟩ := List.map_eq_append_iff.mp hmap
  have hsmall : ∀ u ∈ quad, between 'a' 'z' u = false := by
    intro u hu
    rcases mem_of_readIPv4 hquad hu with hdigit | rfl
    · exact not_small_of_isDigit hdigit
    · decide
  obtain rfl : quad = back := (eq_of_map_toLowerAscii hback hsmall).symm
  rw [hstarts] at hfront
  simp only [List.map_eq_cons_iff, List.map_eq_nil_iff] at hfront
  obtain ⟨c₁, -, rfl, h₁, c₂, -, rfl, h₂, a, -, rfl, ha, b, -, rfl, hb, c, -, rfl, hc, d, -, rfl, hd, c₃, -, rfl, h₃, rfl⟩ :=
    hfront
  obtain rfl := eq_of_toLowerAscii h₁ (by decide)
  obtain rfl := eq_of_toLowerAscii h₂ (by decide)
  obtain rfl := eq_of_toLowerAscii h₃ (by decide)
  have hnot : ∀ u, toLowerAscii u ≠ unit 'f' → u ∉ [a, b, c, d] := by
    intro u hu hm
    simp only [List.mem_cons, List.not_mem_nil, or_false] at hm
    rcases hm with rfl | rfl | rfl | rfl
    · exact hu ha
    · exact hu hb
    · exact hu hc
    · exact hu hd
  have hright : [unit ':', unit ':', a, b, c, d, unit ':'] ++ quad =
      unit ':' :: unit ':' :: ([a, b, c, d] ++ unit ':' :: quad) := rfl
  have hzone : unit '%' ∉ [a, b, c, d] ++ unit ':' :: quad := by
    intro h
    rcases List.mem_append.mp h with h | h
    · exact hnot _ (by decide) h
    · rcases List.mem_cons.mp h with h | h
      · exact absurd h (by decide)
      · exact not_mem_quad hquad (by decide) (by decide) h
  have hparts : parts ([a, b, c, d] ++ unit ':' :: quad) = [[a, b, c, d], quad] := by
    have hne : [a, b, c, d] ++ unit ':' :: quad ≠ [] := List.cons_ne_nil _ _
    rw [parts, if_neg hne, split, List.splitOn_append_cons_self_of_not_mem (hnot _ (by decide)),
      List.splitOn_eq_singleton (not_mem_quad hquad (by decide) (by decide))]
  rw [hright, readIPv6_of_double hzone, hparts, readGroups, hexGroup_ffff ha hb hc hd]
  simp only [readGroups, hquad]
  rfl

/-- The spellings on which the prefix tests agree with the address: the first group is
written with four digits if it begins like a local one, and a forbidden IPv4 address is
embedded as `::`, as `::1` or as `::ffff:` with the dotted address. -/
def PlainlySpelled (ip : Text) : Address → Prop
  | .v4 _ => True
  | .v6 groups =>
      (hasLocalPrefix (ip.map toLowerAscii) = true → (firstPart ip).length = 4) ∧
        (∀ hi lo, groups = [0, 0, 0, 0, 0, 0, hi, lo] → ForbiddenV4 (hi * 65536 + lo) →
          ip = text "::" ∨ ip = text "::1") ∧
        (∀ hi lo, groups = [0, 0, 0, 0, 0, 0xffff, hi, lo] → ForbiddenV4 (hi * 65536 + lo) →
          ∃ quad v, ip.map toLowerAscii = mappedPrefix ++ quad ∧ readIPv4 quad = some v)

theorem forbiddenV4_of_lt {v : Nat} (hv : v < 2) : ForbiddenV4 v := by
  have hlt : v < 2 ^ 24 := Nat.lt_trans hv (by decide)
  exact ⟨(0, 8), List.mem_cons_self, Nat.div_eq_of_lt hlt⟩

theorem forbiddenV6_iff {groups : List Nat} :
    ForbiddenV6 groups ↔ (∃ x, groups.head? = some x ∧ LocalGroup x) ∨
      (∃ hi lo, groups = [0, 0, 0, 0, 0, 0, hi, lo] ∧ ForbiddenV4 (hi * 65536 + lo)) ∨
      ∃ hi lo, groups = [0, 0, 0, 0, 0, 0xffff, hi, lo] ∧ ForbiddenV4 (hi * 65536 + lo) := by
  constructor
  · intro h
    cases h with
    | linkLocal rest hle hlt => exact .inl ⟨_, rfl, .inl ⟨hle, hlt⟩⟩
    | uniqueLocal rest hle hlt => exact .inl ⟨_, rfl, .inr ⟨hle, hlt⟩⟩
    | unspecified => exact .inr (.inl ⟨0, 0, rfl, forbiddenV4_of_lt (by decide)⟩)
    | loopback => exact .inr (.inl ⟨0, 1, rfl, forbiddenV4_of_lt (by decide)⟩)
    | compatible h => exact .inr (.inl ⟨_, _, rfl, h⟩)
    | mapped h => exact .inr (.inr ⟨_, _, rfl, h⟩)
  · rintro (⟨x, hx, hlocal⟩ | ⟨hi, lo, rfl, h⟩ | ⟨hi, lo, rfl, h⟩)
    · obtain ⟨rest, rfl⟩ := List.head?_eq_some_iff.mp hx
      rcases hlocal with ⟨hle, hlt⟩ | ⟨hle, hlt⟩
      · exact .linkLocal rest hle hlt
      · exact .uniqueLocal rest hle hlt
    · exact .compatible h
    · exact .mapped h

theorem isForbiddenIp_v6 {ip : Text} {groups : List Nat} (h4 : readIPv4 ip = none) (h6 : readIPv6 ip = some groups) :
    isForbiddenIp ip = true ↔ (ip = text "::" ∨ ip = text "::1") ∨ hasLocalPrefix (ip.map toLowerAscii) = true ∨
      ∃ quad v, ip.map toLowerAscii = mappedPrefix ++ quad ∧ readIPv4 quad = some v ∧ ForbiddenV4 v := by
  have hversion : isIP ip = 6 := by
    rw [isIP, h4, h6]
    rfl
  have hlower : ∀ s, s.any (between 'a' 'z') = false → s.map toLowerAscii = s →
      (ip.map toLowerAscii = s ↔ ip = s) := fun s hs hself =>
    ⟨fun h => eq_of_map_toLowerAscii h (fun v hv => Bool.eq_false_iff.mpr (List.any_eq_false.mp hs v hv)),
      fun h => by rw [h, hself]⟩
  rw [← mapped_iff, isForbiddenIp, hversion, if_neg (by decide), if_pos rfl]
  simp only [hlower (text "::1") (by decide) (by decide), hlower (text "::") (by decide) (by decide)]
  split
  next h => exact iff_of_true rfl (.inl h.symm)
  next h =>
    rw [or_iff_right (fun h' => h h'.symm)]
    split
    next hpre => exact iff_of_true rfl (.inl hpre)
    next hpre => rw [or_iff_right hpre]

theorem groups_of_short {ip : Text} {groups : List Nat} (h6 : readIPv6 ip = some groups)
    (hip : ip = text "::" ∨ ip = text "::1") : ∃ lo < 2, groups = [0, 0, 0, 0, 0, 0, 0, lo] := by
  have hzero : readIPv6 (text "::") = some [0, 0, 0, 0, 0, 0, 0, 0] := by decide
  have hone : readIPv6 (text "::1") = some [0, 0, 0, 0, 0, 0, 0, 1] := by decide
  rcases hip with rfl | rfl
  · exact ⟨0, by decide, Option.some.inj (h6.symm.trans hzero)⟩
  · exact ⟨1, by decide, Option.some.inj (h6.symm.trans hone)⟩

theorem groups_of_mapped {ip quad : Text} {groups : List Nat} {v : Nat} (h6 : readIPv6 ip = some groups)
    (hmap : ip.map toLowerAscii = mappedPrefix ++ quad) (hquad : readIPv4 quad = some v) :
    groups = [0, 0, 0, 0, 0, 0xffff, v / 65536, v % 65536] :=
  Option.some.inj (h6.symm.trans (readIPv6_mapped hmap hquad))

/-- Only a first part that begins like a local one and has fewer digits is refused wrongly. -/
theorem sound_iff {ip : Text} {groups : List Nat} (h4 : readIPv4 ip = none) (h6 : readIPv6 ip = some groups) :
    (isForbiddenIp ip = true → ForbiddenV6 groups) ↔
      (hasLocalPrefix (ip.map toLowerAscii) = true → (firstPart ip).length = 4) := by
  obtain ⟨hnonzero, hlocal⟩ := hasLocalPrefix_firstGroup (firstGroup_readIPv6 h6).2
  rw [isForbiddenIp_v6 h4 h6, forbiddenV6_iff, hlocal]
  constructor
  · intro hsound hpre
    rcases hsound (.inr (.inl hpre)) with ⟨-, hlength⟩ | ⟨hi, lo, rfl, -⟩ | ⟨hi, lo, rfl, -⟩
    · exact hlength
    · exact absurd rfl (hnonzero hpre)
    · exact absurd rfl (hnonzero hpre)
  · rintro hfour (hshort | hpre | ⟨quad, v, hmap, hquad, hforbidden⟩)
    · obtain ⟨n, hn, hgroups⟩ := groups_of_short h6 hshort
      refine .inr (.inl ⟨0, n, hgroups, ?_⟩)
      rw [Nat.zero_mul, Nat.zero_add]
      exact forbiddenV4_of_lt hn
    · exact .inl ⟨hpre, hfour hpre⟩
    · refine .inr (.inr ⟨_, _, groups_of_mapped h6 hmap hquad, ?_⟩)
      rw [Nat.div_add_mod']
      exact hforbidden

/-- An embedded address is found in the spellings that the guard knows only. -/
theorem complete_iff {ip : Text} {groups : List Nat} (h4 : readIPv4 ip = none) (h6 : readIPv6 ip = some groups) :
    (ForbiddenV6 groups → isForbiddenIp ip = true) ↔
      (∀ hi lo, groups = [0, 0, 0, 0, 0, 0, hi, lo] → ForbiddenV4 (hi * 65536 + lo) →
        ip = text "::" ∨ ip = text "::1") ∧
      (∀ hi lo, groups = [0, 0, 0, 0, 0, 0xffff, hi, lo] → ForbiddenV4 (hi * 65536 + lo) →
        ∃ quad v, ip.map toLowerAscii = mappedPrefix ++ quad ∧ readIPv4 quad = some v) := by
  obtain ⟨hnonzero, hlocal⟩ := hasLocalPrefix_firstGroup (firstGroup_readIPv6 h6).2
  rw [isForbiddenIp_v6 h4 h6, forbiddenV6_iff, hlocal]
  constructor
  · intro hcomplete
    refine ⟨fun hi lo hgroups hforbidden => ?_, fun hi lo hgroups hforbidden => ?_⟩
    · rcases hcomplete (.inr (.inl ⟨hi, lo, hgroups, hforbidden⟩)) with hshort | hpre | ⟨quad, v, hmap, hquad, -⟩
      · exact hshort
      · exact absurd (by rw [hgroups]; rfl) (hnonzero hpre)
      · exact absurd (hgroups.symm.trans (groups_of_mapped h6 hmap hquad)) (by simp)
    · rcases hcomplete (.inr (.inr ⟨hi, lo, hgroups, hforbidden⟩)) with hshort | hpre | ⟨quad, v, hmap, hquad, -⟩
      · obtain ⟨n, -, hn⟩ := groups_of_short h6 hshort
        exact absurd (hgroups.symm.trans hn) (by simp)
      · exact absurd (by rw [hgroups]; rfl) (hnonzero hpre)
      · exact ⟨quad, v, hmap, hquad⟩
  · rintro ⟨hcompatible, hquads⟩ (⟨hpre, -⟩ | ⟨hi, lo, hgroups, hforbidden⟩ | ⟨hi, lo, hgroups, hforbidden⟩)
    · exact .inr (.inl hpre)
    · exact .inl (hcompatible hi lo hgroups hforbidden)
    · obtain ⟨quad, v, hmap, hquad⟩ := hquads hi lo hgroups hforbidden
      refine .inr (.inr ⟨quad, v, hmap, hquad, ?_⟩)
      have hsame := hgroups.symm.trans (groups_of_mapped h6 hmap hquad)
      simp only [List.cons.injEq, and_true, true_and] at hsame
      rw [hsame.1, hsame.2, Nat.div_add_mod'] at hforbidden
      exact hforbidden

/-- The guard tells the forbidden addresses exactly for the plain spellings. -/
theorem isForbiddenIp_exact_iff (ip : Text) (address : Address) (hip : denotes ip = some address) :
    (isForbiddenIp ip = true ↔ Forbidden address) ↔ PlainlySpelled ip address := by
  rw [denotes] at hip
  split at hip
  next v hv =>
    obtain rfl := Option.some.inj hip
    have hversion : isIP ip = 4 := isIP_eq_four.mpr ⟨v, hv⟩
    rw [isForbiddenIp, if_pos hversion]
    exact iff_of_true (isForbiddenIpv4_iff hv) trivial
  next h4 =>
    obtain ⟨groups, h6, rfl⟩ := Option.map_eq_some_iff.mp hip
    rw [Forbidden, PlainlySpelled]
    exact iff_def.trans (and_congr (sound_iff h4 h6) (complete_iff h4 h6))

theorem isForbiddenIp_exact_iff_linkLocal :
    isForbiddenIp (text "FE80::1") = true ↔ Forbidden (.v6 [0xfe80, 0, 0, 0, 0, 0, 0, 1]) :=
  (isForbiddenIp_exact_iff (text "FE80::1") _ (by decide)).mpr
    ⟨by decide, fun _ _ h => by simp at h, fun _ _ h => by simp at h⟩

/-- The loopback address is not refused when it is written out. -/
theorem not_isForbiddenIp_exact :
    ¬∀ ip address, denotes ip = some address → (isForbiddenIp ip = true ↔ Forbidden address) := by
  intro h
  have hiff := h (text "0:0:0:0:0:0:0:1") (.v6 [0, 0, 0, 0, 0, 0, 0, 1]) (by decide)
  exact absurd (hiff.mpr .loopback) (by decide)

end Savitools.Common.SsrfAddresses
