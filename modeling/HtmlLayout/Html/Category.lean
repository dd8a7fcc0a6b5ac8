import HtmlLayout.Html.Token
import HtmlLayout.Dom.Attr
import HtmlLayout.Text.Ascii

/-!
# Kinds of elements in tree construction

Elements belong to a vocabulary: that of markup itself or one of two foreign ones. Tree construction
asks of an element whether it is special, whether it bounds a scope, and whether foreign content
gives way to markup in it. The names of foreign elements and attributes get the case they have in
their vocabulary, since tags are read in lower case.
-/

namespace HtmlLayout.Html

/-- The vocabulary of an element. -/
inductive Vocabulary where
  | html
  | mathml
  | svg
  deriving DecidableEq, Repr, Inhabited

/-- The name of an element with its vocabulary. -/
structure Kind where
  vocabulary : Vocabulary
  name : String
  deriving DecidableEq, Repr, Inhabited

namespace Kind

def html (name : String) : Kind := ⟨.html, name⟩

def isHtml (kind : Kind) : Bool := kind.vocabulary == .html

/-- Elements that the end tag of another element does not reach across. -/
def specialNames : List String :=
  ["address", "applet", "area", "article", "aside", "base", "basefont", "bgsound", "blockquote", "body", "br",
    "button", "caption", "center", "col", "colgroup", "command", "dd", "details", "dir", "div", "dl", "dt", "embed",
    "fieldset", "figure", "footer", "form", "frame", "frameset", "h1", "h2", "h3", "h4", "h5", "h6", "head", "header",
    "hr", "html", "iframe", "image", "img", "input", "isindex", "li", "link", "listing", "marquee", "menu", "meta",
    "nav", "noembed", "noframes", "noscript", "object", "ol", "p", "param", "plaintext", "pre", "script", "section",
    "select", "style", "table", "tbody", "td", "textarea", "tfoot", "th", "thead", "title", "tr", "ul", "wbr", "xmp"]

def isSpecial (kind : Kind) : Bool :=
  match kind.vocabulary with
  | .html => specialNames.contains kind.name
  | .svg => kind.name == "foreignObject"
  | .mathml => false

/-- Elements that bound every ordinary scope. -/
def isScoping (kind : Kind) : Bool :=
  match kind.vocabulary with
  | .html => ["applet", "caption", "html", "marquee", "object", "table", "td", "th"].contains kind.name
  | .mathml => ["mi", "mo", "mn", "ms", "mtext", "annotation-xml"].contains kind.name
  | .svg => ["foreignObject", "desc", "title"].contains kind.name

/-- Foreign elements in which text is text of markup. -/
def isTextPoint (kind : Kind) : Bool :=
  kind.vocabulary == .mathml && ["mi", "mo", "mn", "ms", "mtext"].contains kind.name

/-- Foreign elements in which the content is markup. -/
def isMarkupPoint (kind : Kind) : Bool :=
  kind.vocabulary == .svg && ["foreignObject", "desc", "title"].contains kind.name

end Kind

/-- How far a search for an open element goes. -/
inductive Scope where
  | ordinary
  | button
  | listItem
  | table
  | select
  deriving DecidableEq, Repr, Inhabited

namespace Scope

def bounds (scope : Scope) (kind : Kind) : Bool :=
  match scope with
  | ordinary => kind.isScoping
  | button => kind.isScoping || kind == .html "button"
  | listItem => kind.isScoping || kind == .html "ol" || kind == .html "ul"
  | table => kind == .html "html" || kind == .html "table"
  | select => !(kind == .html "optgroup" || kind == .html "option")

end Scope

def headings : List String := ["h1", "h2", "h3", "h4", "h5", "h6"]

/-- Elements that end of themselves. -/
def impliedEnds : List String := ["dd", "dt", "li", "option", "optgroup", "p", "rp", "rt"]

/-- Elements that only hold the parts of a table: what does not belong there is put before the table. -/
def tableFrames : List String := ["table", "tbody", "tfoot", "thead", "tr"]

/-! ### Foreign names -/

def breakouts : List String :=
  ["b", "big", "blockquote", "body", "br", "center", "code", "dd", "div", "dl", "dt", "em", "embed", "h1", "h2", "h3",
    "h4", "h5", "h6", "head", "hr", "i", "img", "li", "listing", "menu", "meta", "nobr", "ol", "p", "pre", "ruby", "s",
    "small", "span", "strong", "strike", "sub", "sup", "table", "tt", "u", "ul", "var"]

/-- Element names of vector graphics that are not all lower case. -/
def svgTags : List String :=
  ["altGlyph", "altGlyphDef", "altGlyphItem", "animateColor", "animateMotion", "animateTransform", "clipPath", "feBlend",
    "feColorMatrix", "feComponentTransfer", "feComposite", "feConvolveMatrix", "feDiffuseLighting", "feDisplacementMap",
    "feDistantLight", "feFlood", "feFuncA", "feFuncB", "feFuncG", "feFuncR", "feGaussianBlur", "feImage", "feMerge",
    "feMergeNode", "feMorphology", "feOffset", "fePointLight", "feSpecularLighting", "feSpotLight", "feTile",
    "feTurbulence", "foreignObject", "glyphRef", "linearGradient", "radialGradient", "textPath"]

/-- Attribute names of vector graphics that are not all lower case. -/
def svgAttrs : List String :=
  ["attributeName", "attributeType", "baseFrequency", "baseProfile", "calcMode", "clipPathUnits", "contentScriptType",
    "contentStyleType", "diffuseConstant", "edgeMode", "externalResourcesRequired", "filterRes", "filterUnits",
    "glyphRef", "gradientTransform", "gradientUnits", "kernelMatrix", "kernelUnitLength", "keyPoints", "keySplines",
    "keyTimes", "lengthAdjust", "limitingConeAngle", "markerHeight", "markerUnits", "markerWidth", "maskContentUnits",
    "maskUnits", "numOctaves", "pathLength", "patternContentUnits", "patternTransform", "patternUnits", "pointsAtX",
    "pointsAtY", "pointsAtZ", "preserveAlpha", "preserveAspectRatio", "primitiveUnits", "refX", "refY", "repeatCount",
    "repeatDur", "requiredExtensions", "requiredFeatures", "specularConstant", "specularExponent", "spreadMethod",
    "startOffset", "stdDeviation", "stitchTiles", "surfaceScale", "systemLanguage", "tableValues", "targetX", "targetY",
    "textLength", "viewBox", "viewTarget", "xChannelSelector", "yChannelSelector", "zoomAndPan"]

/-- Attribute names of formulas that are not all lower case. -/
def mathmlAttrs : List String := ["definitionURL"]

/-- The spelling of a name in a list of names, by its lower-case form. -/
def spelling (names : List String) (name : String) : String :=
  (names.find? fun known => Text.lower known == name).getD name

def xlinkSpace : String := "http://www.w3.org/1999/xlink"

def xmlSpace : String := "http://www.w3.org/XML/1998/namespace"

def xmlnsSpace : String := "http://www.w3.org/2000/xmlns/"

/-- The namespace of a foreign attribute that is known by a qualified name. -/
def attributeSpace (name : String) : Option String :=
  if ["xlink:actuate", "xlink:arcrole", "xlink:href", "xlink:role", "xlink:show", "xlink:title", "xlink:type"].contains name then
    some xlinkSpace
  else if ["xml:base", "xml:lang", "xml:space"].contains name then some xmlSpace
  else if ["xmlns", "xmlns:xlink"].contains name then some xmlnsSpace
  else none

def plainAttrs (attrs : List (String × String)) : List Dom.Attr :=
  attrs.foldl (fun done entry => Dom.Attr.set done entry.1 entry.2) []

def foreignAttrs (vocabulary : Vocabulary) (attrs : List (String × String)) : List Dom.Attr :=
  attrs.foldl (fun done entry =>
    let name := match vocabulary with
      | .html => entry.1
      | .mathml => spelling mathmlAttrs entry.1
      | .svg => spelling svgAttrs entry.1
    match attributeSpace name with
    | some space => Dom.Attr.setQualified done (some space) name entry.2
    | none => Dom.Attr.set done name entry.2) []

end HtmlLayout.Html
