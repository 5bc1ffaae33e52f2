import LintHub.Url.Reading

/-!
# Texts that are no addresses

* `UrlFault` is why `Url.parse?` refuses a text, `Url.fault` finds it.
-/

namespace LintHub

inductive UrlFault where
  | noScheme
  | emptyHost
  | badPort
  | badIPv4
  | badIPv6
  | badName
deriving DecidableEq, Inhabited

def UrlFault.message : UrlFault → String
  | noScheme => "relative URL without a base"
  | emptyHost => "empty host"
  | badPort => "invalid port number"
  | badIPv4 => "invalid IPv4 address"
  | badIPv6 => "invalid IPv6 address"
  | badName => "invalid international domain name"

namespace Url

/-- What is wrong with a host that cannot be read, or with the port after it. -/
def hostFault (special : Bool) (host : List Char) : UrlFault :=
  match host with
  | [] => .emptyHost
  | '[' :: _ => if (Host.parse? host).isNone then .badIPv6 else .badPort
  | _ =>
    if ((if special then Host.parse? host else Host.parseForeign? host)).isSome then .badPort
    else if special && Host.endsInNumber host then .badIPv4
    else .badName

def fault (text : String) : UrlFault :=
  match scheme? (strip text.toList) with
  | none => .noScheme
  | some (scheme, rest) =>
    let special := isSpecial scheme
    let place := (rest.dropWhile isSlash).takeWhile fun c => !(c == '/' || c == '?' || c == '#' || (special && c == '\\'))
    hostFault special (cutPort (cutUser place).2).1

end Url

end LintHub
