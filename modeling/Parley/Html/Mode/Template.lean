import Parley.Html.Mode.Choice

/-!
# Templates

The first tag that says so decides what a template is read as: a part of a
table, or ordinary content.
-/

namespace Parley
namespace Html

def templateMode (name : String) : Mode :=
  if ["caption", "colgroup", "tbody", "tfoot", "thead"].contains name then .inTable
  else if name = "col" then .inColumns
  else if name = "tr" then .inTableBody
  else if name = "td" || name = "th" then .inRow
  else .inBody

def readInTemplate (token : Token) : Build Outcome := do
  match token with
  | .startTag tag =>
    if metadataNames.contains tag.name then headElement tag
    else
      let mode := templateMode tag.name
      modify fun b => { b with templates := mode :: b.templates.tail }
      return .again mode
  | .endTag name => if name = "template" then endTemplate else return .done
  | .char _ => readInBody token
  | .comment _ => readInBody token
  | _ => return .done

end Html
end Parley
