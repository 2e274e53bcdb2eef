/-!
# Blank characters

The characters with the Unicode property `White_Space`, and trimming by them.
Trimming removes the longest blank run at an end and nothing else.
-/

namespace Parley
namespace Text

def isBlank (c : Char) : Bool :=
  let n := c.toNat
  (9 ≤ n && n ≤ 13) || n == 0x20 || n == 0x85 || n == 0xA0 || n == 0x1680 ||
    (0x2000 ≤ n && n ≤ 0x200A) || n == 0x2028 || n == 0x2029 || n == 0x202F ||
    n == 0x205F || n == 0x3000

def trimStart (cs : List Char) : List Char :=
  cs.dropWhile isBlank

def trimEnd (cs : List Char) : List Char :=
  (cs.reverse.dropWhile isBlank).reverse

def trim (cs : List Char) : List Char :=
  trimEnd (trimStart cs)

def trimmed (s : String) : String :=
  String.ofList (trim s.toList)

def isAllBlank (s : String) : Bool :=
  s.toList.all isBlank

/-!
# ASCII case

Case folding of the letters A to Z alone; every other character is itself.
-/

def lowerAscii (s : String) : String :=
  String.ofList (s.toList.map Char.toLower)

def eqIgnoreCase (s t : String) : Bool :=
  lowerAscii s == lowerAscii t

/-!
# Searching and replacing
-/

def after? (lead : List Char) : List Char → Option (List Char)
  | cs =>
    match lead, cs with
    | [], rest => some rest
    | _ :: _, [] => none
    | a :: as, c :: rest => if a = c then after? as rest else none

def startsWith (lead cs : List Char) : Bool :=
  (after? lead cs).isSome

def containsList (needle : List Char) : List Char → Bool
  | [] => needle.isEmpty
  | c :: cs => startsWith needle (c :: cs) || containsList needle cs

def contains (needle s : String) : Bool :=
  containsList needle.toList s.toList

/-- The pieces between single separator characters; never empty. -/
def splitOn (sep : Char) (cs : List Char) : List (List Char) :=
  cs.foldr
    (fun c pieces =>
      if c = sep then [] :: pieces
      else
        match pieces with
        | [] => [[c]]
        | p :: ps => (c :: p) :: ps)
    [[]]

end Text
end Parley
