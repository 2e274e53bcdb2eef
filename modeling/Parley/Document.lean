import Parley.Document.Fragment
import Parley.Document.Link
import Parley.Document.Packing
import Parley.Document.Section
import Parley.Naming.Markup

/-!
# Documents

A text in chunks that can be translated one by one, and what it takes to make
one text of the translated chunks. A text with markup is cut where its markup
allows; a plain text is one chunk.
-/

namespace Parley

structure Document where
  markup : Markup
  chunks : List String
  /-- The targets of the links that were numbered in the chunks. -/
  links : List String
  deriving DecidableEq, Repr

namespace Document

def ofMarkdown (window : Nat) (text : String) : Document :=
  let (numbered, links) := numberLinks text
  ⟨.markdown, pack window (sections numbered), links⟩

def ofHtml (window : Nat) (text : String) : Document :=
  ⟨.html, pack window (fragments text), []⟩

def ofPlain (text : String) : Document :=
  ⟨.plain, if text.isEmpty then [] else [text], []⟩

/-- A text in chunks of at most `window` characters, as far as its markup allows. -/
def ofText (markup : Markup) (window : Nat) (text : String) : Document :=
  match markup with
  | .markdown => ofMarkdown window text
  | .html => ofHtml window text
  | .plain => ofPlain text

def reassemble (d : Document) (outputs : List String) : String :=
  let joined := String.join outputs
  match d.markup with
  | .markdown => restoreLinks d.links joined
  | .html => joined
  | .plain => joined

end Document
end Parley
