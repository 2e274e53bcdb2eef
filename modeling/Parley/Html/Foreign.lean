import Parley.Html.Element

/-!
# Drawings and formulas

Tags are read in lowercase, but some names in drawings and one in formulas
carry capitals.
-/

namespace Parley
namespace Html

def drawingNames : List String :=
  ["altGlyph", "altGlyphDef", "altGlyphItem", "animateColor", "animateMotion", "animateTransform",
   "clipPath", "feBlend", "feColorMatrix", "feComponentTransfer", "feComposite",
   "feConvolveMatrix", "feDiffuseLighting", "feDisplacementMap", "feDistantLight", "feDropShadow",
   "feFlood", "feFuncA", "feFuncB", "feFuncG", "feFuncR", "feGaussianBlur", "feImage", "feMerge",
   "feMergeNode", "feMorphology", "feOffset", "fePointLight", "feSpecularLighting", "feSpotLight",
   "feTile", "feTurbulence", "foreignObject", "glyphRef", "linearGradient", "radialGradient",
   "textPath"]

def drawingAttributes : List String :=
  ["attributeName", "attributeType", "baseFrequency", "baseProfile", "calcMode", "clipPathUnits",
   "diffuseConstant", "edgeMode", "filterUnits", "glyphRef", "gradientTransform", "gradientUnits",
   "kernelMatrix", "kernelUnitLength", "keyPoints", "keySplines", "keyTimes", "lengthAdjust",
   "limitingConeAngle", "markerHeight", "markerUnits", "markerWidth", "maskContentUnits",
   "maskUnits", "numOctaves", "pathLength", "patternContentUnits", "patternTransform",
   "patternUnits", "pointsAtX", "pointsAtY", "pointsAtZ", "preserveAlpha", "preserveAspectRatio",
   "primitiveUnits", "refX", "refY", "repeatCount", "repeatDur", "requiredExtensions",
   "requiredFeatures", "specularConstant", "specularExponent", "spreadMethod", "startOffset",
   "stdDeviation", "stitchTiles", "surfaceScale", "systemLanguage", "tableValues", "targetX",
   "targetY", "textLength", "viewBox", "viewTarget", "xChannelSelector", "yChannelSelector",
   "zoomAndPan"]

def withCapitals (names : List String) (name : String) : String :=
  (names.find? fun n => Text.lowerAscii n == name).getD name

def renameAttributes (names : List String) (attributes : List Attribute) : List Attribute :=
  attributes.map fun a => { a with name := withCapitals names a.name }

def attributesIn : Language → List Attribute → List Attribute
  | .page, attributes => attributes
  | .drawing, attributes => renameAttributes drawingAttributes attributes
  | .formula, attributes => renameAttributes ["definitionURL"] attributes

def nameIn : Language → String → String
  | .drawing, name => withCapitals drawingNames name
  | _, name => name

/-- Start tags that end a drawing or a formula. -/
def breaksOutNames : List String :=
  ["b", "big", "blockquote", "body", "br", "center", "code", "dd", "div", "dl", "dt", "em",
   "embed", "h1", "h2", "h3", "h4", "h5", "h6", "head", "hr", "i", "img", "li", "listing", "menu",
   "meta", "nobr", "ol", "p", "pre", "ruby", "s", "small", "span", "strong", "strike", "sub",
   "sup", "table", "tt", "u", "ul", "var"]

def breaksOut (t : Tag) : Bool :=
  breaksOutNames.contains t.name ||
    (t.name == "font" && t.attributes.any fun a => ["color", "face", "size"].contains a.name)

end Html
end Parley
