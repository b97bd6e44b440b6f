import CompletionServer.Text.Blank
import CompletionServer.Text.Digit

/-!
# Hosts in brackets

An authority may name a host in brackets: an IPv6 address, or an address of a later version, which
starts with `v`. This module says which texts are addresses.
-/

namespace CompletionServer.Uri

open Text

/-- The text before the first `c` and, if there is one, the text after it. -/
def cutAt (c : Char) (s : List Char) : List Char × Option (List Char) :=
  match s.dropWhile (· != c) with
  | [] => (s, none)
  | _ :: rest => (s.takeWhile (· != c), some rest)

/-- A number of an IPv4 address: up to 255, without needless zeros. -/
def isOctet (s : List Char) : Bool :=
  s.all isDigit && s.length ≤ 3 && (s == ['0'] || s.head? != some '0')
    && (match readDigits 10 asciiDigit? s with
      | some n => n ≤ 255 && !s.isEmpty
      | none => false)

/-- Four numbers between points. -/
def isIPv4 (s : List Char) : Bool :=
  let parts := splitWhere (· == '.') s
  parts.length == 4 && parts.all isOctet

/-- Up to four hexadecimal digits. -/
def isHextet (s : List Char) : Bool := !s.isEmpty && s.length ≤ 4 && s.all isHexDigit

/-- The positions of empty parts other than the first and the last. -/
def innerGaps (parts : List (List Char)) : List Nat :=
  (List.range parts.length).filter fun i ↦
    0 < i && i + 1 < parts.length && (parts[i]?.getD []).isEmpty

/-- The parts of an IPv6 address, of which an IPv4 address at the end makes two. One `::` may stand
for a run of zeros; it may touch an end, and only there an end may be empty. -/
def areIPv6Parts (parts : List (List Char)) : Bool :=
  if parts.length < 3 || 9 < parts.length then false
  else match innerGaps parts with
    | [] => parts.length == 8 && parts.all isHextet
    | [gap] =>
      let before := parts.take gap
      let after := parts.drop (gap + 1)
      let front := if before.head? == some [] then before.drop 1 else before
      let back := if after.getLast? == some [] then after.dropLast else after
      (before.head? != some [] || front.isEmpty) && (after.getLast? != some [] || back.isEmpty)
        && front.length + back.length < 8 && front.all isHextet && back.all isHextet
    | _ => false

/-- An IPv6 address, with a zone after `%` or without one. -/
def isIPv6 (s : List Char) : Bool :=
  let (address, zone) := cutAt '%' s
  let zoneFits := match zone with
    | none => true
    | some zone => !zone.isEmpty && !zone.contains '%'
  let parts := splitWhere (· == ':') address
  let last := parts.getLast?.getD []
  let shaped :=
    if parts.length < 3 then false
    else if last.contains '.' then isIPv4 last && areIPv6Parts (parts.dropLast ++ [['0'], ['0']])
    else areIPv6Parts parts
  !s.contains '/' && zoneFits && shaped

/-- An address of a later version: `v`, hexadecimal digits, a point and more. -/
def isLaterAddress (s : List Char) : Bool :=
  match s with
  | 'v' :: rest =>
    match rest.dropWhile isHexDigit with
    | '.' :: more => (rest.head?.map isHexDigit).getD false && !more.isEmpty && !more.contains '\n'
    | _ => false
  | _ => false

end CompletionServer.Uri
