import Savitools.Common.SsrfGuard
import Savitools.Sep24.SafeTargets

namespace Savitools.Sep24.PrivateAddresses

open Strings.CodeUnits Strings.Decimals Net.Addresses Common.SsrfGuard Common.SsrfAddresses SafeTargets

/-- The IPv4 ranges that the list of the debugger knows: the first address and the number of leading bits that count. -/
def privateRanges : List (Nat × Nat) :=
  [(0, 32), (dotted 10 0 0 0, 8), (dotted 127 0 0 0, 8), (dotted 169 254 0 0, 16), (dotted 172 16 0 0, 12),
    (dotted 192 168 0 0, 16)]

def PrivateV4 (v : Nat) : Prop := ∃ range ∈ privateRanges, Within v range

/-- The spellings of IPv6 addresses that the list knows. -/
def PrivateV6 (ip : Text) : Prop :=
  ip = text "::1" ∨ text "fc00:" <+: ip.map toLowerAscii ∨ text "fd00:" <+: ip.map toLowerAscii

/-- An address that the list of the debugger knows. -/
def Known (ip : Text) : Prop := (∃ v, readIPv4 ip = some v ∧ PrivateV4 v) ∨ PrivateV6 ip

end Savitools.Sep24.PrivateAddresses
