import Parley.Text.Digit
import Parley.Text.Blank
import Parley.Text.Hex

/-!
# Addresses

An address is a host, a colon and the number of a door. Hosts are numbers of
the fourth or the sixth version of the protocol, or names; the one name that is
known is that of the machine itself. A server can listen where its machine is
meant, and on addresses that mean many machines.
-/

namespace Parley
namespace Startup

/-!
# Doors
-/

def door? (cs : List Char) : Option Nat :=
  (Text.natOfDigits? cs).filter (· < 65536)

def signedDoor? (cs : List Char) : Option Nat :=
  match cs with
  | '+' :: rest => door? rest
  | _ => door? cs

/-!
# Hosts of the fourth version
-/

/-- A number with its base: sixteen after `0x`, eight after `0`, else ten. -/
def basedNumber? (cs : List Char) : Option Nat :=
  let read (base : Nat) (cs : List Char) : Option Nat :=
    (cs.mapM fun c => (Text.Hex.value? c).filter (· < base)).map
      (List.foldl (fun n d => base * n + d) 0)
  match cs with
  | [] => none
  | '0' :: x :: rest =>
    if x = 'x' || x = 'X' then if rest.isEmpty then none else read 16 rest
    else read 8 (x :: rest)
  | _ => read 10 cs

/-- One to four numbers: one byte each, and the last one fills what is left of the four. -/
def joinNumbers? : (room : Nat) → List Nat → Option Nat
  | 0, _ => none
  | _, [] => none
  | room, [n] => if n < Nat.pow 256 room then some n else none
  | room + 1, n :: rest =>
    if n < 256 then (joinNumbers? room rest).map (n * Nat.pow 256 room + ·) else none

def hostNumber? (cs : List Char) : Option Nat :=
  ((Text.splitOn '.' cs).mapM basedNumber?).bind (joinNumbers? 4)

def quad? (cs : List Char) : Option Nat :=
  let parts := Text.splitOn '.' cs
  let plain (ds : List Char) : Option Nat :=
    if 1 < ds.length && ds.head? = some '0' then none else Text.natOfDigits? ds
  if parts.length = 4 then (parts.mapM plain).bind (joinNumbers? 4) else none

def isOpenNumber (n : Nat) : Bool :=
  let first := n / 16777216
  n == 0 || n == 4294967295 || first == 127 || (224 ≤ first && first < 240)

/-!
# Hosts of the sixth version
-/

def group? (cs : List Char) : Option Nat :=
  if cs.isEmpty || 4 < cs.length then none
  else (cs.mapM Text.Hex.value?).map (List.foldl (fun n d => 16 * n + d) 0)

def groups? (cs : List Char) : Option (List Nat) :=
  if cs.isEmpty then some []
  else
    let parts := Text.splitOn ':' cs
    match parts.getLast?.bind quad? with
    | some n => (parts.dropLast.mapM group?).map (· ++ [n / 65536, n % 65536])
    | none => parts.mapM group?

def aroundGap? : List Char → Option (List Char × List Char)
  | ':' :: ':' :: rest => some ([], rest)
  | c :: rest => (aroundGap? rest).map fun p => (c :: p.1, p.2)
  | [] => none

/-- The eight groups of a host; two colons stand for one or more groups of zero. -/
def longHost? (cs : List Char) : Option (List Nat) :=
  match aroundGap? cs with
  | none => (groups? cs).filter fun gs => gs.length == 8
  | some (before, after) =>
    if (before.contains '.') then none
    else
      match groups? before, groups? after with
      | some front, some back =>
        if front.length + back.length ≤ 7 then
          some (front ++ List.replicate (8 - front.length - back.length) 0 ++ back)
        else none
      | _, _ => none

def areOpenGroups : List Nat → Bool
  | [0, 0, 0, 0, 0, 0, 0, n] => n ≤ 1
  | [0, 0, 0, 0, 0, 65535, high, low] => isOpenNumber (high * 65536 + low)
  | _ => false

/-!
# Listening
-/

def aroundLastColon? (cs : List Char) : Option (List Char × List Char) :=
  let after := (cs.reverse.takeWhile (· != ':')).reverse
  if after.length < cs.length then some (cs.take (cs.length - after.length - 1), after) else none

def bracketed? (cs : List Char) : Option (List Char) :=
  match cs, cs.getLast? with
  | '[' :: rest, some ']' =>
    let inner := rest.dropLast
    match inner.dropWhile (· != '%') with
    | [] => some inner
    | _ :: link =>
      ((Text.natOfDigits? link).filter (· < 4294967296)).map fun _ => inner.takeWhile (· != '%')
  | _, _ => none

def isOpenHost (cs : List Char) : Bool :=
  Text.eqIgnoreCase (String.ofList cs) "localhost" ||
    (hostNumber? cs).any isOpenNumber || (longHost? cs).any areOpenGroups

/-- Whether a server can listen at an address. Long hosts stand in brackets, and the number
of the door after them has no sign. -/
def canListen (address : String) : Bool :=
  match aroundLastColon? address.toList with
  | none => false
  | some (host, door) =>
    match bracketed? host with
    | some inner => (door? door).isSome && (longHost? inner).any areOpenGroups
    | none => (signedDoor? door).isSome && isOpenHost host

end Startup
end Parley
