import Pmbah.Js.Parse
import Pmbah.Library.Positional
import Pmbah.Library.Splitting

/-!
# The address of a client

Limits apply to an address: the one of the socket, or of a trusted header.  IPv6 clients are
grouped by the first 64 bits, which are read from the text of the address.
-/

namespace Pmbah.Admission

open Js Library

inductive HeaderValue where
  | text (value : JsString)
  | list (values : List JsString)

structure ClientRequest where
  headers : JsString → Option HeaderValue
  remoteAddress : Option JsString

/-- The white space and line terminators that `trim` removes. -/
def isTrimmed (unit : UInt16) : Bool :=
  (9 ≤ unit.toNat ∧ unit.toNat ≤ 13) ∨ unit = 32 ∨ unit = 0xA0 ∨ unit = 0x1680 ∨
    (0x2000 ≤ unit.toNat ∧ unit.toNat ≤ 0x200A) ∨ unit = 0x2028 ∨ unit = 0x2029 ∨
    unit = 0x202F ∨ unit = 0x205F ∨ unit = 0x3000 ∨ unit = 0xFEFF

def trim (text : JsString) : JsString :=
  ((text.dropWhile isTrimmed).reverse.dropWhile isTrimmed).reverse

/-- `\d+\.\d+\.\d+\.\d+` -/
def isDottedDigits (text : JsString) : Bool :=
  let parts := split (js ".") text
  parts.length = 4 && parts.all fun part => part ≠ [] && part.all fun unit => isDigitUnit unit

/-- Removes `::ffff:` before a dotted address. -/
def withoutMapped (candidate : JsString) : JsString :=
  if toLowerCase (candidate.take 7) = js "::ffff:" && isDottedDigits (candidate.drop 7) then
    candidate.drop 7
  else candidate

/-- The hexadecimal digits that a text starts with. -/
def hexDigits : JsString → List Nat
  | [] => []
  | unit :: rest =>
      match hexValue unit with
      | some digit => digit :: hexDigits rest
      | none => []

/-- `parseInt(group, 16)` of a text without white space, sign or `0x` in front. -/
def parseHex (group : JsString) : Option Nat :=
  match hexDigits group with
  | [] => none
  | digit :: digits => some (positional 16 (digit :: digits))

def hexUnit (digit : Nat) : UInt16 := UInt16.ofNat (if digit < 10 then 48 + digit else 87 + digit)

/-- `toString(16)` -/
def hexText : Option Nat → JsString
  | none => js "NaN"
  | some value =>
      if value = 0 then js "0" else (Nat.digits 16 value).reverse.map hexUnit

/-- The list that `Array(8 - head - tail)` is filled for; a negative length throws. -/
def expandedGroups (headGroups tailGroups : List JsString) : Option (List JsString) :=
  if 8 < headGroups.length + tailGroups.length then none
  else some (headGroups ++ List.replicate (8 - headGroups.length - tailGroups.length) (js "0") ++
    tailGroups)

def ipv6Prefix64 (address : JsString) : Option JsString := do
  let parts := split (js "::") (toLowerCase ((split (js "%") address).headD []))
  let head := parts.headD []
  let headGroups := if head = [] then [] else split (js ":") head
  let groups ← match parts[1]? with
    | none => some headGroups
    | some tail => expandedGroups headGroups (if tail = [] then [] else split (js ":") tail)
  return joinWith (js ":") ((groups.take 4).map fun group => hexText (parseHex group)) ++
    js "::/64"

/-- The forwarded address where a trusted header holds exactly one, else that of the socket. -/
def candidateAddress (isIP : JsString → Nat) (request : ClientRequest)
    (trustedHeader : Option JsString) : Option JsString :=
  let forwarded := match trustedHeader with
    | none | some [] => none
    | some name => request.headers (toLowerCase name)
  match forwarded with
  | some (.text value) =>
      if isIP (trim value) ≠ 0 then some (trim value) else request.remoteAddress
  | _ => request.remoteAddress

/-- `none` where an exception is thrown. -/
def clientAddress (isIP : JsString → Nat) (request : ClientRequest)
    (trustedHeader : Option JsString) : Option JsString :=
  match candidateAddress isIP request trustedHeader with
  | none | some [] => some (js "unknown")
  | some candidate =>
      let address := withoutMapped candidate
      if isIP address = 6 then ipv6Prefix64 address else some address

example : ipv6Prefix64 (js "2001:DB8:1:2:aaaa::1%eth0") = some (js "2001:db8:1:2::/64") := by
  decide +kernel

end Pmbah.Admission
