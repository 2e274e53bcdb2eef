import Parley.Html.Named

/-!
# Character references

A reference stands for characters that are awkward to write: by number or by
name, after an ampersand and up to a semicolon. Readers forgive a missing
semicolon, except that in an attribute a name without one that runs on, into a
letter, a digit or an equals sign, is no reference.
-/

namespace Parley
namespace Html

structure Reference where
  chars : List Char
  closed : Bool
  rest : List Char

/-!
# By number
-/

/-- What the numbers 128 to 159 mean to readers; zero where they mean themselves. -/
def controlMeanings : List Nat :=
  [0x20AC, 0, 0x201A, 0x0192, 0x201E, 0x2026, 0x2020, 0x2021, 0x02C6, 0x2030, 0x0160, 0x2039,
   0x0152, 0, 0x017D, 0, 0, 0x2018, 0x2019, 0x201C, 0x201D, 0x2022, 0x2013, 0x2014, 0x02DC,
   0x2122, 0x0161, 0x203A, 0x0153, 0, 0x017E, 0x0178]

def replacement : Char := Char.ofNat 0xFFFD

def charOfNumber (n : Nat) : Char :=
  if n = 0 || 0x10FFFF < n || (0xD800 ≤ n && n ≤ 0xDFFF) then replacement
  else if 0x80 ≤ n && n ≤ 0x9F then
    let meaning := controlMeanings.getD (n - 0x80) 0
    Char.ofNat (if meaning = 0 then n else meaning)
  else Char.ofNat n

def numbered (base : Nat) (cs : List Char) : Option Reference :=
  let isDigit c := match Text.Hex.value? c with
    | some d => decide (d < base)
    | none => false
  let digits := cs.takeWhile isDigit
  let after := cs.dropWhile isDigit
  if digits.isEmpty then none
  else
    let n := digits.foldl (fun n d => base * n + (Text.Hex.value? d).getD 0) 0
    match after with
    | ';' :: rest => some ⟨[charOfNumber n], true, rest⟩
    | _ => some ⟨[charOfNumber n], false, after⟩

/-!
# By name
-/

/-- A character that keeps a name without a semicolon going in an attribute. -/
def runsOn (c : Char) : Bool :=
  c.isAlphanum || c == '='

def loose (inAttribute : Bool) (letters cs : List Char) : Option Reference :=
  match looseName? letters (min letters.length longestLooseName) with
  | none => none
  | some (chars, n) =>
    let rest := cs.drop n
    if inAttribute && (rest.head?.map runsOn).getD false then none
    else some ⟨chars, false, rest⟩

def named (inAttribute : Bool) (cs : List Char) : Option Reference :=
  let letters := cs.takeWhile Char.isAlphanum
  match cs.dropWhile Char.isAlphanum with
  | ';' :: rest =>
    match namedTable[String.ofList letters]? with
    | some found => some ⟨found.chars, true, rest⟩
    | none => loose inAttribute letters cs
  | _ => loose inAttribute letters cs

/-!
# Reading
-/

def reference? (inAttribute : Bool) : List Char → Option Reference
  | '#' :: 'x' :: rest => numbered 16 rest
  | '#' :: 'X' :: rest => numbered 16 rest
  | '#' :: rest => numbered 10 rest
  | cs => named inAttribute cs

def decodeValueWithin (n : Nat) (cs : List Char) : List Char :=
  match n, cs with
  | 0, _ => []
  | _, [] => []
  | n + 1, c :: rest =>
    if c = '&' then
      match reference? true rest with
      | some r => r.chars ++ decodeValueWithin n r.rest
      | none => c :: decodeValueWithin n rest
    else if c = Char.ofNat 0 then replacement :: decodeValueWithin n rest
    else c :: decodeValueWithin n rest

def decodeValue (cs : List Char) : String :=
  String.ofList (decodeValueWithin cs.length cs)

end Html
end Parley
