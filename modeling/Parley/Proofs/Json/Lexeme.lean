import Mathlib.Data.List.Chain
import Parley.Proofs.Json.Literal
import Parley.Proofs.Naming.Content

/-!
# Written tokens

Each token is read back from its written form, and a text in which blanks stand
anywhere between written tokens is read as those tokens. Brackets, colons and
commas may touch anything; a word, a string or a number is followed by one of
them, by a blank or by the end of the text.
-/

namespace Parley
namespace Json

inductive Lexeme where
  | beginArray
  | endArray
  | beginObject
  | endObject
  | colon
  | comma
  | null
  | bool (b : Bool)
  | number (n : Number)
  | string (s : String)

namespace Lexeme

def text : Lexeme → List Char
  | .beginArray => ['[']
  | .endArray => [']']
  | .beginObject => ['\x7b']
  | .endObject => ['\x7d']
  | .colon => [':']
  | .comma => [',']
  | .null => ['n', 'u', 'l', 'l']
  | .bool true => ['t', 'r', 'u', 'e']
  | .bool false => ['f', 'a', 'l', 's', 'e']
  | .number n => Write.number n
  | .string s => Write.string s

def token : Lexeme → Token
  | .beginArray => .beginArray
  | .endArray => .endArray
  | .beginObject => .beginObject
  | .endObject => .endObject
  | .colon => .colon
  | .comma => .comma
  | .null => .null
  | .bool b => .bool b
  | .number n =>
    match n.literal? with
    | some l => .number l
    | none => .null
  | .string s => .string (some s)

def isMark : Lexeme → Bool
  | .beginArray | .endArray | .beginObject | .endObject | .colon | .comma => true
  | _ => false

end Lexeme

/-!
# Strings
-/

namespace Write

def named : List (Char × Char) :=
  [('"', '"'), ('\\', '\\'), ('\x08', 'b'), ('\x0c', 'f'), ('\n', 'n'), ('\r', 'r'), ('\t', 't')]

theorem escape_of_named {c e : Char} (h : (c, e) ∈ named) :
    escape c = ['\\', e] ∧ e ≠ 'u' ∧ Token.escaped? e = some c := by
  simp only [named, List.mem_cons, List.not_mem_nil, or_false, Prod.mk.injEq] at h
  rcases h with ⟨rfl, rfl⟩ | ⟨rfl, rfl⟩ | ⟨rfl, rfl⟩ | ⟨rfl, rfl⟩ | ⟨rfl, rfl⟩ | ⟨rfl, rfl⟩ |
    ⟨rfl, rfl⟩ <;> decide

theorem escape_of_not_named {c : Char} (h : ∀ e, (c, e) ∉ named) :
    escape c =
      if c.toNat < 0x20 then
        ['\\', 'u', '0', '0', Text.Hex.digit (c.toNat / 16), Text.Hex.digit (c.toNat % 16)]
      else [c] := by
  have hne : ∀ d e, (d, e) ∈ named → c ≠ d := by
    rintro d e hmem rfl
    exact h e hmem
  rw [escape, if_neg (hne '"' '"' (by simp [named])), if_neg (hne '\\' '\\' (by simp [named])),
    if_neg (hne '\x08' 'b' (by simp [named])), if_neg (hne '\x0c' 'f' (by simp [named])),
    if_neg (hne '\n' 'n' (by simp [named])), if_neg (hne '\r' 'r' (by simp [named])),
    if_neg (hne '\t' 't' (by simp [named]))]

end Write

namespace Token

theorem stringBody_quote (s : Content) (rest : List Char) :
    stringBody s ('"' :: rest) = some (s.close, rest) := by
  unfold stringBody
  exact if_pos rfl

theorem stringBody_plain (s : Content) {c : Char} (hquote : c ≠ '"') (hslash : c ≠ '\\')
    (hlow : ¬ c.toNat < 0x20) (rest : List Char) :
    stringBody s (c :: rest) = stringBody (s.push c) rest := by
  rw [stringBody.eq_def]
  simp only [if_neg hquote, if_neg hslash, if_neg hlow]

theorem stringBody_escaped (s : Content) {e d : Char} (he : e ≠ 'u') (hd : escaped? e = some d)
    (rest : List Char) :
    stringBody s ('\\' :: e :: rest) = stringBody (s.push d) rest := by
  rw [stringBody.eq_def]
  simp [he, hd]

theorem stringBody_unit (s : Content) {w x y z : Char} {n : Nat}
    (hn : codeUnit? w x y z = some n) (rest : List Char) :
    stringBody s ('\\' :: 'u' :: w :: x :: y :: z :: rest) = stringBody (s.pushUnit n) rest := by
  rw [stringBody.eq_def]
  simp [hn]

theorem codeUnit?_digits {n : Nat} (h : n < 0x20) :
    codeUnit? '0' '0' (Text.Hex.digit (n / 16)) (Text.Hex.digit (n % 16)) = some n := by
  have hzero : Text.Hex.value? '0' = some 0 := by decide
  have hhigh : Text.Hex.value? (Text.Hex.digit (n / 16)) = some (n / 16) :=
    Text.Hex.value?_digit (by omega)
  have hlow : Text.Hex.value? (Text.Hex.digit (n % 16)) = some (n % 16) :=
    Text.Hex.value?_digit (by omega)
  have hsum : n / 16 * 16 + n % 16 = n := Nat.div_add_mod' n 16
  simp [codeUnit?, hzero, hhigh, hlow, hsum]

theorem pushUnit_of_low {s : Content} (hs : s.leading = none) {c : Char} (h : c.toNat < 0x20) :
    s.pushUnit c.toNat = s.push c := by
  have hlead : ¬ (0xD800 ≤ c.toNat ∧ c.toNat ≤ 0xDBFF) := by omega
  have htrail : ¬ (0xDC00 ≤ c.toNat ∧ c.toNat ≤ 0xDFFF) := by omega
  simp [Content.pushUnit, Content.push, hs, hlead, htrail, Char.ofNat_toNat]

theorem stringBody_escape {s : Content} (hs : s.leading = none) (c : Char) (rest : List Char) :
    stringBody s (Write.escape c ++ rest) = stringBody (s.push c) rest := by
  by_cases hnamed : ∃ e, (c, e) ∈ Write.named
  · obtain ⟨e, he⟩ := hnamed
    obtain ⟨hescape, hletter, hvalue⟩ := Write.escape_of_named he
    rw [hescape]
    exact stringBody_escaped s hletter hvalue rest
  · have hother : ∀ e, (c, e) ∉ Write.named := not_exists.mp hnamed
    rw [Write.escape_of_not_named hother]
    by_cases hlow : c.toNat < 0x20
    · rw [if_pos hlow, ← pushUnit_of_low hs hlow]
      exact stringBody_unit s (codeUnit?_digits hlow) rest
    · rw [if_neg hlow]
      have hquote : c ≠ '"' := by
        rintro rfl
        exact hother '"' (by simp [Write.named])
      have hslash : c ≠ '\\' := by
        rintro rfl
        exact hother '\\' (by simp [Write.named])
      exact stringBody_plain s hquote hslash hlow rest

theorem stringBody_text {s : Content} (hs : s.leading = none) (cs rest : List Char) :
    stringBody s (cs.flatMap Write.escape ++ '"' :: rest) =
      some ((cs.foldl Content.push s).close, rest) := by
  induction cs generalizing s with
  | nil => exact stringBody_quote s rest
  | cons c cs ih =>
      have hpush : (s.push c).leading = none := rfl
      rw [List.flatMap_cons, List.append_assoc, stringBody_escape hs, ih hpush]
      rfl

theorem foldl_push {s : Content} (hs : s.leading = none) (cs : List Char) :
    cs.foldl Content.push s = ⟨cs.reverse ++ s.chars, none, s.sound⟩ := by
  induction cs generalizing s with
  | nil =>
      cases s
      cases hs
      rfl
  | cons c cs ih =>
      rw [List.foldl_cons, ih (by rfl)]
      simp [Content.push, hs]

theorem stringBody_write (s : String) (rest : List Char) :
    stringBody .empty (s.toList.flatMap Write.escape ++ '"' :: rest) = some (some s, rest) := by
  rw [stringBody_text rfl, foldl_push rfl]
  simp [Content.close, Content.empty]

/-!
# One token
-/

theorem lex_nil : lex [] = [] := by
  rw [lex]

theorem lex_space {c : Char} (hc : isSpace c = true) (rest : List Char) :
    lex (c :: rest) = lex rest := by
  rw [lex, if_pos hc]

theorem lex_mark {c : Char} {t : Token} (hspace : isSpace c = false) (hc : ofChar? c = some t)
    (rest : List Char) : lex (c :: rest) = t :: lex rest := by
  rw [lex]
  simp [hspace, hc]

theorem lex_lexeme {c : Char} {rest more : List Char} {t : Token} (hspace : isSpace c = false)
    (hc : ofChar? c = none) (h : lexeme? (c :: rest) = some (t, more)) :
    lex (c :: rest) = t :: lex more := by
  rw [lex]
  simp only [hspace, hc, Bool.false_eq_true, if_false]
  split
  · rename_i hnone
    rw [h] at hnone
    cases hnone
  · rename_i hsome
    rw [h] at hsome
    cases hsome
    rfl

theorem lex_of_number? {c : Char} {rest more : List Char} {l : Literal}
    (hc : c = '-' ∨ Text.isAsciiDigit c = true) (h : number? (c :: rest) = some (l, more)) :
    lex (c :: rest) = .number l :: lex more := by
  have hne : ∀ d, Text.isAsciiDigit d = false → d ≠ '-' → c ≠ d := by
    rintro d hd hminus rfl
    rcases hc with hc | hc
    · exact hminus hc
    · rw [hd] at hc
      cases hc
  have hspace : isSpace c = false := by
    simp [isSpace, hne ' ' (by decide), hne '\t' (by decide), hne '\n' (by decide),
      hne '\r' (by decide)]
  have hmark : ofChar? c = none := by
    simp [ofChar?, hne '[' (by decide), hne ']' (by decide), hne '\x7b' (by decide),
      hne '\x7d' (by decide), hne ':' (by decide), hne ',' (by decide)]
  have hread : lexeme? (c :: rest) = some (.number l, more) := by
    simp [lexeme?, hne '"' (by decide), hne 'n' (by decide), hne 't' (by decide),
      hne 'f' (by decide), h]
  exact lex_lexeme hspace hmark hread

theorem lex_text (l : Lexeme) {rest : List Char} (h : l.isMark = true ∨ EndsNumber rest) :
    lex (l.text ++ rest) = l.token :: lex rest := by
  cases l with
  | beginArray => exact lex_mark (by decide) (by decide) rest
  | endArray => exact lex_mark (by decide) (by decide) rest
  | beginObject => exact lex_mark (by decide) (by decide) rest
  | endObject => exact lex_mark (by decide) (by decide) rest
  | colon => exact lex_mark (by decide) (by decide) rest
  | comma => exact lex_mark (by decide) (by decide) rest
  | null => exact lex_lexeme (by decide) (by decide) (by simp [lexeme?, Text.after?, Lexeme.token])
  | bool b =>
      cases b with
      | false =>
          exact lex_lexeme (by decide) (by decide) (by simp [lexeme?, Text.after?, Lexeme.token])
      | true =>
          exact lex_lexeme (by decide) (by decide) (by simp [lexeme?, Text.after?, Lexeme.token])
  | number n =>
      have hrest : EndsNumber rest := h.resolve_left Bool.false_ne_true
      show lex (Write.number n ++ rest) = _
      rw [Number.write_eq]
      cases hl : n.literal? with
      | none =>
          simp only [Lexeme.token, hl]
          exact lex_lexeme (by decide) (by decide) (by simp [lexeme?, Text.after?])
      | some l =>
          simp only [Lexeme.token, hl]
          have hproper : l.IsProper := Number.isProper_of_literal? hl
          have hread : number? (l.text ++ rest) = some (l, rest) :=
            Literal.number?_text hproper hrest
          obtain ⟨c, more, htext, hc⟩ := Literal.exists_text_eq_cons hproper
          rw [Option.map_some, Option.getD_some, htext, List.cons_append]
          rw [htext, List.cons_append] at hread
          exact lex_of_number? hc hread
  | string s =>
      have hbody := stringBody_write s rest
      have htext : (Lexeme.string s).text ++ rest =
          '"' :: (s.toList.flatMap Write.escape ++ '"' :: rest) := by
        simp [Lexeme.text, Write.string]
      rw [htext]
      exact lex_lexeme (by decide) (by decide) (by simp [lexeme?, hbody, Lexeme.token])

end Token

/-!
# Tokens with blanks between them
-/

/-- Some text in which these tokens stand in order, with nothing but blanks between them. -/
inductive IsLaidOut : List Lexeme → List Char → Prop where
  | nil {blanks : List Char} (h : ∀ c ∈ blanks, Token.isSpace c = true) : IsLaidOut [] blanks
  | cons {blanks : List Char} (l : Lexeme) {ls : List Lexeme} {cs : List Char}
      (h : ∀ c ∈ blanks, Token.isSpace c = true) (more : IsLaidOut ls cs) :
      IsLaidOut (l :: ls) (blanks ++ (l.text ++ cs))

/-- Of two neighbours, one is a bracket, a colon or a comma. -/
def IsParted (ls : List Lexeme) : Prop :=
  ls.IsChain fun l m => l.isMark = true ∨ m.isMark = true

theorem endsNumber_of_isSpace {c : Char} (h : Token.isSpace c = true) (rest : List Char) :
    EndsNumber (c :: rest) := by
  have hc : ((c = ' ' ∨ c = '\t') ∨ c = '\n') ∨ c = '\r' := by
    simpa [Token.isSpace] using h
  apply endsNumber_cons
  rcases hc with ((rfl | rfl) | rfl) | rfl <;> decide

theorem endsNumber_of_isMark {l : Lexeme} (h : l.isMark = true) (rest : List Char) :
    EndsNumber (l.text ++ rest) := by
  cases l <;> cases h <;> exact endsNumber_cons (by decide)

theorem endsNumber_blanks {blanks rest : List Char} (h : ∀ c ∈ blanks, Token.isSpace c = true)
    (hrest : EndsNumber rest) : EndsNumber (blanks ++ rest) := by
  cases blanks with
  | nil => exact hrest
  | cons c more => exact endsNumber_of_isSpace (h c (by simp)) _

theorem endsNumber_of_isLaidOut {ls : List Lexeme} {cs : List Char} (h : IsLaidOut ls cs)
    (hfirst : ∀ l ∈ ls.head?, l.isMark = true) : EndsNumber cs := by
  cases h with
  | nil hblanks =>
      rw [← List.append_nil cs]
      exact endsNumber_blanks hblanks endsNumber_nil
  | cons l hblanks more =>
      exact endsNumber_blanks hblanks (endsNumber_of_isMark (hfirst l rfl) _)

namespace Token

theorem lex_blanks {blanks : List Char} (h : ∀ c ∈ blanks, isSpace c = true)
    (rest : List Char) : lex (blanks ++ rest) = lex rest := by
  induction blanks with
  | nil => rfl
  | cons c blanks ih =>
      rw [List.cons_append, lex_space (h c (by simp))]
      exact ih fun d hd => h d (List.mem_cons_of_mem c hd)

/-- However written tokens are laid out, they are what is read. -/
theorem lex_of_isLaidOut {ls : List Lexeme} {cs : List Char} (h : IsLaidOut ls cs)
    (hparted : IsParted ls) : lex cs = ls.map Lexeme.token := by
  induction h with
  | nil hblanks =>
      rename_i blanks
      rw [← List.append_nil blanks, lex_blanks hblanks, lex_nil]
      rfl
  | cons l hblanks more ih =>
      rename_i ls cs
      have htail : IsParted ls := hparted.tail
      have hend : l.isMark = true ∨ EndsNumber cs := by
        by_cases hl : l.isMark = true
        · exact Or.inl hl
        · refine Or.inr (endsNumber_of_isLaidOut more ?_)
          intro m hm
          cases ls with
          | nil => cases hm
          | cons n ls =>
              cases hm
              exact (List.isChain_cons_cons.mp hparted).1.resolve_left hl
      rw [lex_blanks hblanks, lex_text l hend, ih htail]
      rfl

end Token
end Json
end Parley
