import Parley.Text.Blank
import Parley.Text.Digit
import Parley.Text.Letter

/-!
# Log filters

A filter says what is logged, as directives with commas between them. A
directive is a level, or names the source of an entry by what its name begins
with, a span around the entry, or fields of it, and gives a level to those. Of
the directives that fit an entry the most specific one decides; if none fits,
the entry is not logged.
-/

namespace Parley
namespace Log

inductive Level where
  | off
  | error
  | warning
  | info
  | debug
  | trace
  deriving DecidableEq, Repr

def Level.reach : Level → Nat
  | .off => 0
  | .error => 1
  | .warning => 2
  | .info => 3
  | .debug => 4
  | .trace => 5

def Level.all : List Level :=
  [.off, .error, .warning, .info, .debug, .trace]

def Level.name : Level → String
  | .off => "off"
  | .error => "error"
  | .warning => "warn"
  | .info => "info"
  | .debug => "debug"
  | .trace => "trace"

/-- A level by its number, which may have a plus sign, or by its name in any case. -/
def Level.ofText? (cs : List Char) : Option Level :=
  let digits := match cs with
    | '+' :: rest => rest
    | _ => cs
  match Text.natOfDigits? digits with
  | some n => Level.all.find? fun level => level.reach == n
  | none => Level.all.find? fun level => Text.eqIgnoreCase level.name (String.ofList cs)

structure Directive where
  source : Option String
  /-- The span that the entry has to be in. -/
  span : Option String
  /-- Names of fields, and values that they have to have. -/
  fields : List (String × Option String)
  level : Level
  deriving DecidableEq, Repr

namespace Directive

/-!
# Reading

A directive is measured without the blanks around it, and cut by that measure
from the text as it is.
-/

/-- The level after an equals sign; without a name it is the finest. -/
def levelAfter? (cs : List Char) : Option Level :=
  if cs.isEmpty then some .trace else Level.ofText? cs

def ofWord (cs : List Char) : Directive :=
  match Level.ofText? cs with
  | some level => ⟨none, none, [], level⟩
  | none => ⟨some (String.ofList cs), none, [], .trace⟩

def withLevel? (d : Directive) : (measured cs : List Char) → Option Directive
  | [], _ => some d
  | '=' :: _, cs => (levelAfter? (cs.drop 1)).map fun level => { d with level := level }
  | _, _ => none

def field? (cs : List Char) : Option (String × Option String) :=
  if cs.isEmpty then none
  else
    match Text.splitOn '=' cs with
    | name :: value :: _ => some (String.ofList name, some (String.ofList value))
    | _ => some (String.ofList cs, none)

def withSpan? (d : Directive) (measured cs : List Char) : Option Directive :=
  let n := (measured.takeWhile fun c => c != ']' && c != '\x7b').length
  let name := String.ofList (cs.take n)
  match measured.drop n with
  | ']' :: rest => withLevel? { d with span := some name } rest (cs.drop (n + 1))
  | '\x7b' :: inner =>
    let k := (inner.takeWhile (· != '\x7d')).length
    match inner.drop k, field? ((cs.drop (n + 1)).take k) with
    | '\x7d' :: ']' :: rest, some field =>
      let span := if name.isEmpty then none else some name
      withLevel? { d with span := span, fields := [field] } rest (cs.drop (n + k + 3))
    | _, _ => none
  | _ => none

def beginsWord (c : Char) : Bool :=
  Text.isLetterOrNumber c || c == '-' || c == ':' || c == '_'

def ofChars? (cs : List Char) : Option Directive :=
  match Text.trim cs with
  | [] => none
  | '[' :: rest => withSpan? ⟨none, none, [], .trace⟩ rest (cs.drop 1)
  | c :: rest =>
    if !beginsWord c then none
    else
      let n := (rest.takeWhile fun c => c != '=' && c != '[').length + 1
      let d : Directive := ⟨some (String.ofList (cs.take n)), none, [], .trace⟩
      match rest.drop (n - 1) with
      | '=' :: _ => withLevel? d ['='] (cs.drop n)
      | '[' :: rest => withSpan? d rest (cs.drop (n + 1))
      | _ => some (ofWord cs)

/-!
# Entries
-/

/-- Whether a directive may decide on an entry that is in no span. -/
def isPlain (d : Directive) : Bool :=
  d.span.isNone && d.fields.all fun f => f.2.isNone

def fits (d : Directive) (source : String) : Bool :=
  d.isPlain && d.fields.all (fun f => f.1 == "message") &&
    match d.source with
    | none => true
    | some head => Text.startsWith head.toList source.toList

def weight (d : Directive) : Nat × Nat :=
  (match d.source with
    | none => 0
    | some head => head.utf8ByteSize + 1,
    d.fields.length)

/-- Whether a later directive of the same source is decided on before this one. -/
def yieldsTo (d later : Directive) : Bool :=
  d.weight.1 < later.weight.1 || (d.weight.1 == later.weight.1 && d.weight.2 ≤ later.weight.2)

end Directive

/-!
# Filters
-/

structure Filter where
  directives : List Directive
  deriving DecidableEq, Repr

namespace Filter

def ofString? (s : String) : Option Filter :=
  let parts := (Text.splitOn ',' s.toList).filter fun cs => !cs.isEmpty
  match parts.mapM Directive.ofChars? with
  | none => none
  | some [] => some ⟨[⟨none, none, [], .error⟩]⟩
  | some directives => some ⟨directives⟩

/-- The directive that decides on an entry of the source: the most specific, and the last of those
that are alike. -/
def deciding? (f : Filter) (source : String) : Option Directive :=
  (f.directives.filter fun d => d.fits source).foldl
    (fun best d =>
      match best with
      | none => some d
      | some b => if b.yieldsTo d then some d else some b)
    none

def lets (f : Filter) (level : Level) (source : String) : Bool :=
  match f.deciding? source with
  | some d => level.reach ≤ d.level.reach
  | none => false

end Filter
end Log
end Parley
