import Parley.Http.Inquiry
import Parley.Http.Language
import Parley.Translation.Request

/-!
# Answers

What an inquiry is answered. The locale is the one it names, or else the one
that its sender prefers; texts that are wanted in their own language need no
translation. All else is asked for, and is there or is not there yet.
-/

namespace Parley
namespace Http
namespace Answer

open Translation

/-- The locale that is wanted: blanks around it do not count, and neither does a blank one. -/
def locale? (r : Http.Request) (q : Inquiry) : Option String :=
  match (q.locale.map Text.trimmed).filter fun l => !l.isEmpty with
  | some l => some l
  | none => (r.plainValue? "accept-language").bind Language.preferred?

def request? (r : Http.Request) (q : Inquiry) : Except Response Translation.Request :=
  match locale? r q with
  | none => .error (.failure 400 "invalid_request" "No language specified")
  | some locale =>
    if Text.isAllBlank q.text then
      .error (.failure 400 "invalid_request" "No text specified")
    else if Language.isSource locale then .error (.bare 204)
    else .ok ⟨q.text, locale, q.markup.getD .markdown, q.part.getD default⟩

/-- A translation that is there may be kept for a day. It has the markup it was stored with. -/
def ofStatus (locale : String) : Except StoreError Status → Response
  | .ok (.ready content markup) =>
    ((Response.typed 200 markup.mime content).withField "cache-control"
      "public, max-age=86400").withFieldIfAllowed "content-language" locale
  | .ok .pending => .bare 202
  | .error e => .failure 500 "storage_error" e.message

def give (d : Desk) (now : Int) (r : Http.Request) : Response × Desk :=
  match (Inquiry.ofRequest r).bind (request? r) with
  | .error response => (response, d)
  | .ok request =>
    let (status, d) := d.ask now request
    (ofStatus request.locale status, d)

end Answer
end Http
end Parley
