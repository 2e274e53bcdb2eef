import Parley.Html.Tag
import Parley.Text.Blank

/-!
# Document types

All that a document type decides here is whether the page is laid out by the
rules of old: then a table does not end the paragraph it stands in. A page of
the old kind has no document type, a broken one, one of another name, or a
public identifier of the early versions of the language.
-/

namespace Parley
namespace Html

def oldIdentifiers : List String :=
  ["-//w3o//dtd w3 html strict 3.0//en//", "-/w3c/dtd html 4.0 transitional/en", "html"]

def oldIdentifierHeads : List String :=
  ["-//advasoft ltd//dtd html 3.0 aswedit + extensions//",
   "-//as//dtd html 3.0 aswedit + extensions//",
   "-//ietf//dtd html 2.0 level 1//", "-//ietf//dtd html 2.0 level 2//",
   "-//ietf//dtd html 2.0 strict level 1//", "-//ietf//dtd html 2.0 strict level 2//",
   "-//ietf//dtd html 2.0 strict//", "-//ietf//dtd html 2.0//", "-//ietf//dtd html 2.1e//",
   "-//ietf//dtd html 3.0//", "-//ietf//dtd html 3.2 final//", "-//ietf//dtd html 3.2//",
   "-//ietf//dtd html 3//", "-//ietf//dtd html level 0//", "-//ietf//dtd html level 1//",
   "-//ietf//dtd html level 2//", "-//ietf//dtd html level 3//",
   "-//ietf//dtd html strict level 0//", "-//ietf//dtd html strict level 1//",
   "-//ietf//dtd html strict level 2//", "-//ietf//dtd html strict level 3//",
   "-//ietf//dtd html strict//", "-//ietf//dtd html//",
   "-//metrius//dtd metrius presentational//",
   "-//microsoft//dtd internet explorer 2.0 html strict//",
   "-//microsoft//dtd internet explorer 2.0 html//",
   "-//microsoft//dtd internet explorer 2.0 tables//",
   "-//microsoft//dtd internet explorer 3.0 html strict//",
   "-//microsoft//dtd internet explorer 3.0 html//",
   "-//microsoft//dtd internet explorer 3.0 tables//",
   "-//netscape comm. corp.//dtd html//", "-//netscape comm. corp.//dtd strict html//",
   "-//o'reilly and associates//dtd html 2.0//",
   "-//o'reilly and associates//dtd html extended 1.0//",
   "-//o'reilly and associates//dtd html extended relaxed 1.0//",
   "-//softquad software//dtd hotmetal pro 6.0::19990601::extensions to html 4.0//",
   "-//softquad//dtd hotmetal pro 4.0::19971010::extensions to html 4.0//",
   "-//spyglass//dtd html 2.0 extended//", "-//sq//dtd html 2.0 hotmetal + extensions//",
   "-//sun microsystems corp.//dtd hotjava html//",
   "-//sun microsystems corp.//dtd hotjava strict html//", "-//w3c//dtd html 3 1995-03-24//",
   "-//w3c//dtd html 3.2 draft//", "-//w3c//dtd html 3.2 final//", "-//w3c//dtd html 3.2//",
   "-//w3c//dtd html 3.2s draft//", "-//w3c//dtd html 4.0 frameset//",
   "-//w3c//dtd html 4.0 transitional//", "-//w3c//dtd html experimental 19960712//",
   "-//w3c//dtd html experimental 970421//", "-//w3c//dtd w3 html//", "-//w3o//dtd w3 html 3.0//",
   "-//webtechs//dtd mozilla html 2.0//", "-//webtechs//dtd mozilla html//"]

/-- What the public identifiers start with that are old unless a system identifier follows. -/
def agingIdentifierHeads : List String :=
  ["-//w3c//dtd html 4.01 frameset//", "-//w3c//dtd html 4.01 transitional//"]

def oldSystemIdentifier : String :=
  "/".intercalate
    ["http:", "", "www.ibm.com", "data", "dtd", "v11", "ibmxhtml1-transitional.dtd"]

def startsWithAny (heads : List String) (text : String) : Bool :=
  heads.any fun head => Text.startsWith head.toList text.toList

def isOld (publicId systemId : Option String) : Bool :=
  systemId.any (fun s => Text.lowerAscii s = oldSystemIdentifier) ||
    match publicId with
    | none => false
    | some p =>
      let p := Text.lowerAscii p
      oldIdentifiers.contains p || startsWithAny oldIdentifierHeads p ||
        (systemId.isNone && startsWithAny agingIdentifierHeads p)

def quoted? : List Char → Option (String × List Char)
  | [] => none
  | c :: rest =>
    if c = '"' || c = '\'' then
      match rest.dropWhile (· != c) with
      | [] => none
      | _ :: after => some (String.ofList (rest.takeWhile (· != c)), after)
    else none

def afterWord? (word : String) (cs : List Char) : Option (List Char) :=
  let n := word.toList.length
  if (cs.take n).map Char.toLower = word.toList then some (cs.drop n) else none

/-- Whether the identifiers make the page old; `cs` is what stands after the name. -/
def identifiersAreOld (cs : List Char) : Bool :=
  match afterWord? "public" cs with
  | some cs =>
    match quoted? (dropSpaces cs) with
    | none => true
    | some (publicId, cs) =>
      match dropSpaces cs with
      | [] => isOld (some publicId) none
      | cs =>
        match quoted? cs with
        | none => true
        | some (systemId, _) => isOld (some publicId) (some systemId)
  | none =>
    match afterWord? "system" cs with
    | some cs =>
      match quoted? (dropSpaces cs) with
      | none => true
      | some (systemId, _) => isOld none (some systemId)
    | none => !cs.isEmpty

def doctypeIsOld (cs : List Char) : Bool :=
  let cs := dropSpaces cs
  let inName c := !isSpace c
  if nameOf (cs.takeWhile inName) = "html" then
    identifiersAreOld (dropSpaces (cs.dropWhile inName))
  else true

end Html
end Parley
