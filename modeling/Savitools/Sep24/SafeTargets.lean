import Savitools.Common.Exceptions
import Savitools.Net.Addresses
import Savitools.Net.Urls

namespace Savitools.Sep24.SafeTargets

open Strings.CodeUnits Net.Addresses Net.Urls Common.Exceptions

/-- The patterns of `PRIVATE_HOST_PATTERNS` that are the start of an IPv4 address. -/
def privatePrefixes : List Text :=
  [text "127.", text "10.", text "172.16.", text "172.17.", text "172.18.", text "172.19.", text "172.20.",
    text "172.21.", text "172.22.", text "172.23.", text "172.24.", text "172.25.", text "172.26.", text "172.27.",
    text "172.28.", text "172.29.", text "172.30.", text "172.31.", text "192.168.", text "169.254."]

def privatePrefixesIPv6 : List Text := [text "fc00:", text "fd00:"]

/-- The patterns that are the whole of a host. -/
def privateHosts : List Text := [text "0.0.0.0", text "::1", text "[::1]"]

/-- `/^0x[0-9a-f]+$/i` -/
def isHexHost (ip : Text) : Bool :=
  (text "0x").isPrefixOf (ip.map toLowerAscii) && ip.drop 2 != [] && (ip.drop 2).all isHexDigit

def isPrivateIP (ip : Text) : Bool :=
  ip.map toLowerAscii == text "localhost" || privatePrefixes.any (·.isPrefixOf ip) ||
    privatePrefixesIPv6.any (·.isPrefixOf (ip.map toLowerAscii)) || privateHosts.contains ip || isHexHost ip

def httpProtocols : List Text := [text "https:", text "http:"]

def allowedSchemes : List Text := [text "stellar:"]

variable {Url : Type} (urls : Urls Url)

def assertSafeExternalUrl (urlString : Text) : Except Exception Url :=
  match urls.parse urlString with
  | none => .error (.badRequest (text "Invalid URL: " ++ urlString))
  | some url =>
      if urls.protocol url ∉ httpProtocols ++ allowedSchemes then
        .error (.badRequest (text "Unsupported URL scheme '" ++ urls.protocol url ++
          text "'. Only http, https, and stellar are allowed."))
      else .ok url

/-- `lookup` gives all addresses of a name, or the message of its error. -/
def addressesOf (lookup : Text → Except Text (List Text)) (hostname : Text) : Except Exception (List Text) :=
  if isIP hostname ≠ 0 then .ok [hostname]
  else
    match lookup hostname with
    | .error message =>
        .error (.badRequest (text "Could not resolve host '" ++ hostname ++ text "': " ++ message))
    | .ok addresses => .ok addresses

def assertSafeServerTarget (lookup : Text → Except Text (List Text)) (urlString : Text) : Except Exception Url :=
  (assertSafeExternalUrl urls urlString).bind fun url =>
    let hostname := urls.hostname url
    if urls.protocol url ∉ httpProtocols then
      .error (.badRequest (text "Server fetches only support http/https targets."))
    else if isPrivateIP hostname then
      .error (.badRequest (text "Refusing to fetch private/loopback host '" ++ hostname ++ text "'."))
    else
      (addressesOf lookup hostname).bind fun addresses =>
        if addresses = [] then .error (.badRequest (text "Could not resolve host '" ++ hostname ++ text "'."))
        else
          match addresses.find? isPrivateIP with
          | some address =>
              .error (.badRequest (text "Refusing to fetch '" ++ hostname ++
                text "' which resolves to private address '" ++ address ++ text "'."))
          | none => .ok url

end Savitools.Sep24.SafeTargets
