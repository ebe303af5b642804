import HttpServer.Text.Number
import HttpServer.Text.Split

/-!
# Addresses to listen on

A server listens on an IPv4 address in four decimal parts, or on an IPv6 address in brackets.  Host names are
not looked up.
-/

namespace HttpServer.Address

/-- One part of an IPv4 address: no leading zeros, and at most 255. -/
def isOctet (cs : List Char) : Bool :=
  (readDecimal? 255 cs).isSome && (cs.length == 1 || !(['0'].isPrefixOf cs)) && cs.length ≤ 3

/-- An IPv4 address. -/
def isIPv4 (cs : List Char) : Bool :=
  let parts := splitOn '.' cs
  parts.length == 4 && parts.all isOctet

/-- One part of an IPv6 address. -/
def isGroup (cs : List Char) : Bool :=
  1 ≤ cs.length && cs.length ≤ 4 && cs.all fun c => c.toNat < 128 && (hexValue? (UInt8.ofNat c.toNat)).isSome

/-- How many groups a text between double colons stands for; an IPv4 address at its end stands for two, where
one is allowed. -/
def groupCount? (allowIPv4 : Bool) (cs : List Char) : Option Nat :=
  if cs.isEmpty then some 0
  else
    let parts := splitOn ':' cs
    let last := parts.getLastD []
    if parts.all isGroup then some parts.length
    else if allowIPv4 && parts.dropLast.all isGroup && isIPv4 last then some (parts.length + 1)
    else none

/-- What stands before and after the first double colon. -/
def cutGap : List Char → Option (List Char × List Char)
  | ':' :: ':' :: rest => some ([], rest)
  | c :: rest => (cutGap rest).map fun (front, back) => (c :: front, back)
  | [] => none

/-- An IPv6 address: eight groups, or fewer with a double colon in place of the missing ones. -/
def isIPv6 (cs : List Char) : Bool :=
  match cutGap cs with
  | none => groupCount? true cs == some 8
  | some (front, back) =>
    match groupCount? false front, groupCount? true back with
    | some m, some n => m + n ≤ 7
    | _, _ => false

/-- The number of a scope. -/
def isScope (cs : List Char) : Bool :=
  (readDecimal? (UInt32.size - 1) cs).isSome

/-- Whether a server can listen on this host. -/
def isHost (host : String) : Bool :=
  match host.toList with
  | '[' :: rest =>
    match cutFirst ']' rest with
    | some (inner, []) =>
      match cutFirst '%' inner with
      | some (address, scope) => isIPv6 address && isScope scope
      | none => isIPv6 inner
    | _ => false
  | cs => isIPv4 cs

end HttpServer.Address
