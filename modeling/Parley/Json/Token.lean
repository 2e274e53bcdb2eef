import Parley.Text.Blank
import Parley.Text.Digit
import Parley.Text.Hex

/-!
# JSON tokens

The lexemes of a JSON text, up to and including the first place where none can
be read, which is marked `fault`. A string that pairs its surrogates wrongly is
still a lexeme: it has no content, and only who needs the content refuses it.
-/

namespace Parley
namespace Json

structure Literal where
  negative : Bool
  whole : List Char
  fraction : List Char
  exponent : Option (Bool × List Char)
  deriving DecidableEq, Repr

inductive Token where
  | beginArray
  | endArray
  | beginObject
  | endObject
  | colon
  | comma
  | null
  | bool (b : Bool)
  | number (l : Literal)
  | string (s : Option String)
  | fault
  deriving DecidableEq, Repr

namespace Token

def isSpace (c : Char) : Bool :=
  c == ' ' || c == '\t' || c == '\n' || c == '\r'

def ofChar? (c : Char) : Option Token :=
  if c = '[' then some .beginArray
  else if c = ']' then some .endArray
  else if c = '\x7b' then some .beginObject
  else if c = '\x7d' then some .endObject
  else if c = ':' then some .colon
  else if c = ',' then some .comma
  else none

/-!
# Strings
-/

def escaped? (c : Char) : Option Char :=
  if c = '"' then some '"'
  else if c = '\\' then some '\\'
  else if c = '/' then some '/'
  else if c = 'b' then some '\x08'
  else if c = 'f' then some '\x0c'
  else if c = 'n' then some '\n'
  else if c = 'r' then some '\r'
  else if c = 't' then some '\t'
  else none

def codeUnit? (a b c d : Char) : Option Nat :=
  match Text.Hex.value? a, Text.Hex.value? b, Text.Hex.value? c, Text.Hex.value? d with
  | some w, some x, some y, some z => some (((w * 16 + x) * 16 + y) * 16 + z)
  | _, _, _, _ => none

/-- A string under way: characters in reverse, a leading surrogate that waits for its
partner, and whether the pairs so far are right. -/
structure Content where
  chars : List Char
  leading : Option Nat
  sound : Bool

namespace Content

def empty : Content :=
  ⟨[], none, true⟩

def push (s : Content) (c : Char) : Content :=
  ⟨c :: s.chars, none, s.sound && s.leading.isNone⟩

def pushUnit (s : Content) (n : Nat) : Content :=
  match s.leading with
  | some h =>
    if 0xDC00 ≤ n ∧ n ≤ 0xDFFF then
      ⟨Char.ofNat ((h - 0xD800) * 1024 + (n - 0xDC00) + 0x10000) :: s.chars, none, s.sound⟩
    else ⟨s.chars, none, false⟩
  | none =>
    if 0xD800 ≤ n ∧ n ≤ 0xDBFF then ⟨s.chars, some n, s.sound⟩
    else if 0xDC00 ≤ n ∧ n ≤ 0xDFFF then ⟨s.chars, none, false⟩
    else ⟨Char.ofNat n :: s.chars, none, s.sound⟩

def close (s : Content) : Option String :=
  if s.sound && s.leading.isNone then some (String.ofList s.chars.reverse) else none

end Content

def stringBody (s : Content) : List Char → Option (Option String × List Char)
  | [] => none
  | c :: rest =>
    if c = '"' then some (s.close, rest)
    else if c = '\\' then
      match rest with
      | [] => none
      | e :: more =>
        if e = 'u' then
          match more with
          | w :: x :: y :: z :: tail =>
            match codeUnit? w x y z with
            | some n => stringBody (s.pushUnit n) tail
            | none => none
          | _ => none
        else
          match escaped? e with
          | some d => stringBody (s.push d) more
          | none => none
    else if c.toNat < 0x20 then none
    else stringBody (s.push c) rest

theorem stringBody_length (s : Content) (cs : List Char) {r : Option String × List Char}
    (h : stringBody s cs = some r) : r.2.length < cs.length := by
  fun_induction stringBody s cs with
  | case1 => cases h
  | case2 s rest =>
    cases h
    simp
  | case3 => cases h
  | case4 s w x y z tail hc n hn ih =>
    have := ih h
    simp only [List.length_cons]
    omega
  | case5 => cases h
  | case6 => cases h
  | case7 s e more hc he d hd ih =>
    have := ih h
    simp only [List.length_cons]
    omega
  | case8 => cases h
  | case9 => cases h
  | case10 s c rest hq hb hl ih =>
    have := ih h
    simp only [List.length_cons]
    omega

/-!
# Numbers
-/

def isWhole (ds : List Char) : Bool :=
  match ds with
  | [] => false
  | d :: more => more.isEmpty || d != '0'

def sign (cs : List Char) : Bool × List Char :=
  match cs with
  | [] => (false, [])
  | c :: rest => if c = '-' then (true, rest) else (false, cs)

def fraction? (cs : List Char) : Option (List Char × List Char) :=
  match cs with
  | [] => some ([], [])
  | c :: rest =>
    if c = '.' then
      let ds := rest.takeWhile Text.isAsciiDigit
      if ds.isEmpty then none else some (ds, rest.dropWhile Text.isAsciiDigit)
    else some ([], cs)

def exponentSign (cs : List Char) : Bool × List Char :=
  match cs with
  | [] => (false, [])
  | c :: rest =>
    if c = '-' then (true, rest) else if c = '+' then (false, rest) else (false, cs)

def exponent? (cs : List Char) : Option (Option (Bool × List Char) × List Char) :=
  match cs with
  | [] => some (none, [])
  | c :: rest =>
    if c = 'e' ∨ c = 'E' then
      let signed := exponentSign rest
      let ds := signed.2.takeWhile Text.isAsciiDigit
      if ds.isEmpty then none
      else some (some (signed.1, ds), signed.2.dropWhile Text.isAsciiDigit)
    else some (none, cs)

def number? (cs : List Char) : Option (Literal × List Char) :=
  let (negative, afterSign) := sign cs
  let whole := afterSign.takeWhile Text.isAsciiDigit
  if isWhole whole then
    match fraction? (afterSign.dropWhile Text.isAsciiDigit) with
    | none => none
    | some (fraction, afterFraction) =>
      match exponent? afterFraction with
      | none => none
      | some (exponent, rest) => some (⟨negative, whole, fraction, exponent⟩, rest)
  else none

theorem dropWhile_length_le (p : Char → Bool) (cs : List Char) :
    (cs.dropWhile p).length ≤ cs.length :=
  (List.dropWhile_sublist p).length_le

theorem dropWhile_length_lt {p : Char → Bool} {cs : List Char}
    (h : (cs.takeWhile p).isEmpty = false) : (cs.dropWhile p).length < cs.length := by
  have hsplit := congrArg List.length (List.takeWhile_append_dropWhile (p := p) (l := cs))
  have hpos : 0 < (cs.takeWhile p).length := by
    cases hw : cs.takeWhile p with
    | nil => simp [hw] at h
    | cons c rest => simp
  simp only [List.length_append] at hsplit
  omega

theorem fraction?_length {cs : List Char} {r : List Char × List Char}
    (h : fraction? cs = some r) : r.2.length ≤ cs.length := by
  unfold fraction? at h
  split at h
  · cases h
    simp
  · split at h
    · dsimp only at h
      split at h
      · cases h
      · cases h
        have := dropWhile_length_le Text.isAsciiDigit ‹List Char›
        simp only [List.length_cons]
        omega
    · cases h
      simp

theorem exponentSign_length (cs : List Char) : (exponentSign cs).2.length ≤ cs.length := by
  unfold exponentSign
  split
  · simp
  · split
    · simp
    · split <;> simp

theorem exponent?_length {cs : List Char} {r : Option (Bool × List Char) × List Char}
    (h : exponent? cs = some r) : r.2.length ≤ cs.length := by
  unfold exponent? at h
  split at h
  · cases h
    simp
  · rename_i c rest
    split at h
    · dsimp only at h
      split at h
      · cases h
      · cases h
        have hs := exponentSign_length rest
        have hd := dropWhile_length_le Text.isAsciiDigit (exponentSign rest).2
        simp only [List.length_cons]
        omega
    · cases h
      simp

theorem sign_length (cs : List Char) : (sign cs).2.length ≤ cs.length := by
  unfold sign
  split
  · simp
  · split <;> simp

theorem number?_length {cs : List Char} {r : Literal × List Char}
    (h : number? cs = some r) : r.2.length < cs.length := by
  unfold number? at h
  have hs := sign_length cs
  generalize sign cs = s at h hs
  obtain ⟨negative, afterSign⟩ := s
  dsimp only at h hs
  split at h
  · rename_i hw
    have hne : (afterSign.takeWhile Text.isAsciiDigit).isEmpty = false := by
      cases ht : afterSign.takeWhile Text.isAsciiDigit with
      | nil => simp [ht, isWhole] at hw
      | cons d more => rfl
    have hlt := dropWhile_length_lt hne
    split at h
    · cases h
    · rename_i fraction afterFraction hf
      have hfl := fraction?_length hf
      split at h
      · cases h
      · rename_i exponent rest he
        have hel := exponent?_length he
        cases h
        dsimp only at hfl hel ⊢
        omega
  · cases h

/-!
# Lexemes
-/

def lexeme? (cs : List Char) : Option (Token × List Char) :=
  match cs with
  | [] => none
  | c :: rest =>
    if c = '"' then
      (stringBody .empty rest).map fun r => (.string r.1, r.2)
    else if c = 'n' then (Text.after? ['u', 'l', 'l'] rest).map fun r => (.null, r)
    else if c = 't' then (Text.after? ['r', 'u', 'e'] rest).map fun r => (.bool true, r)
    else if c = 'f' then (Text.after? ['a', 'l', 's', 'e'] rest).map fun r => (.bool false, r)
    else (number? cs).map fun r => (.number r.1, r.2)

theorem after?_length {lead cs rest : List Char} (h : Text.after? lead cs = some rest) :
    rest.length ≤ cs.length := by
  induction lead generalizing cs with
  | nil =>
    cases cs <;> simp [Text.after?] at h <;> simp [← h]
  | cons a as ih =>
    cases cs with
    | nil => simp [Text.after?] at h
    | cons c more =>
      simp only [Text.after?] at h
      split at h
      · have := ih h
        simp only [List.length_cons]
        omega
      · cases h

theorem lexeme?_length {cs : List Char} {r : Token × List Char}
    (h : lexeme? cs = some r) : r.2.length < cs.length := by
  unfold lexeme? at h
  split at h
  · cases h
  · rename_i c rest
    split at h
    · obtain ⟨x, hx, rfl⟩ := Option.map_eq_some_iff.1 h
      have := stringBody_length _ _ hx
      simp only [List.length_cons]
      omega
    · split at h
      · obtain ⟨x, hx, rfl⟩ := Option.map_eq_some_iff.1 h
        have := after?_length hx
        simp only [List.length_cons]
        omega
      · split at h
        · obtain ⟨x, hx, rfl⟩ := Option.map_eq_some_iff.1 h
          have := after?_length hx
          simp only [List.length_cons]
          omega
        · split at h
          · obtain ⟨x, hx, rfl⟩ := Option.map_eq_some_iff.1 h
            have := after?_length hx
            simp only [List.length_cons]
            omega
          · obtain ⟨x, hx, rfl⟩ := Option.map_eq_some_iff.1 h
            exact number?_length hx

def lex (cs : List Char) : List Token :=
  match cs with
  | [] => []
  | c :: rest =>
    if isSpace c then lex rest
    else
      match ofChar? c with
      | some t => t :: lex rest
      | none =>
        match _h : lexeme? (c :: rest) with
        | none => [.fault]
        | some (t, more) => t :: lex more
termination_by cs.length
decreasing_by
  all_goals simp_wf
  have := lexeme?_length _h
  simp only [List.length_cons] at this
  omega

end Token
end Json
end Parley
