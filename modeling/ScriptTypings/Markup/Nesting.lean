import ScriptTypings.NameMap

/-!
# Rules of nesting

Which elements have no content, which start tags close which open elements, and how strongly an
open element resists the end tag of another.
-/

namespace ScriptTypings.Markup

/-- Elements without content and end tag. -/
def isVoid (tag : String) : Bool :=
  ["area", "base", "basefont", "br", "col", "frame", "hr", "img", "input", "isindex", "link",
    "meta", "param"].contains tag

/-- Elements that belong into the head of a page. -/
def belongsInHead (tag : String) : Bool :=
  ["base", "link", "meta", "script", "style", "title"].contains tag

/-- Elements that stand in place of a body. -/
def replacesBody (tag : String) : Bool :=
  tag = "frame" || tag = "frameset" || tag = "noframes"

/-- For each open element the start tags that close it, where it is the innermost one. -/
def closingTags : NameMap (List String) :=
  [("a", ["a", "fieldset", "table", "td", "th"]),
   ("address", ["dd", "dl", "dt", "form", "li", "ul"]),
   ("b", ["center", "p", "td", "th"]),
   ("big", ["p"]),
   ("caption", ["col", "colgroup", "tbody", "tfoot", "thead", "tr"]),
   ("col", ["col", "colgroup", "tbody", "tfoot", "thead", "tr"]),
   ("colgroup", ["colgroup", "tbody", "tfoot", "thead", "tr"]),
   ("dd", ["dt"]),
   ("dir", ["dd", "dl", "dt", "form", "ul"]),
   ("dl", ["form", "li"]),
   ("dt", ["dd", "dl"]),
   ("font", ["center", "td", "th"]),
   ("form", ["form"]),
   ("h1", ["fieldset", "form", "li", "p", "table"]),
   ("h2", ["fieldset", "form", "li", "p", "table"]),
   ("h3", ["fieldset", "form", "li", "p", "table"]),
   ("h4", ["fieldset", "form", "li", "p", "table"]),
   ("h5", ["fieldset", "form", "li", "p", "table"]),
   ("h6", ["fieldset", "form", "li", "p", "table"]),
   ("head",
    ["a", "abbr", "acronym", "address", "b", "bdo", "big", "blockquote", "body", "br", "center",
     "cite", "code", "dd", "dfn", "dir", "div", "dl", "dt", "em", "fieldset", "font", "form",
     "frameset", "h1", "h2", "h3", "h4", "h5", "h6", "hr", "i", "iframe", "img", "kbd", "li",
     "listing", "map", "menu", "ol", "p", "pre", "q", "s", "samp", "small", "span", "strike",
     "strong", "sub", "sup", "table", "tt", "u", "ul", "var", "xmp"]),
   ("hr", ["form"]),
   ("i", ["center", "p", "td", "th"]),
   ("legend", ["fieldset"]),
   ("li", ["li"]),
   ("link", ["body", "frameset"]),
   ("listing", ["dd", "dl", "dt", "fieldset", "form", "li", "table", "ul"]),
   ("menu", ["dd", "dl", "dt", "form", "ul"]),
   ("ol", ["form"]),
   ("option", ["optgroup", "option"]),
   ("p",
    ["address", "blockquote", "body", "caption", "center", "col", "colgroup", "dd", "dir", "div",
     "dl", "dt", "fieldset", "form", "frameset", "h1", "h2", "h3", "h4", "h5", "h6", "head", "hr",
     "li", "listing", "menu", "ol", "p", "pre", "table", "tbody", "td", "tfoot", "th", "title",
     "tr", "ul", "xmp"]),
   ("pre", ["dd", "dl", "dt", "fieldset", "form", "li", "table", "ul"]),
   ("s", ["p"]),
   ("script", ["noscript"]),
   ("small", ["p"]),
   ("span", ["td", "th"]),
   ("strike", ["p"]),
   ("style", ["body", "frameset"]),
   ("tbody", ["tbody", "tfoot"]),
   ("td", ["tbody", "td", "tfoot", "th", "tr"]),
   ("tfoot", ["tbody"]),
   ("th", ["tbody", "td", "tfoot", "th", "tr"]),
   ("thead", ["tbody", "tfoot"]),
   ("title", ["body", "frameset"]),
   ("tr", ["tbody", "tfoot", "tr"]),
   ("tt", ["p"]),
   ("u", ["p", "td", "th"]),
   ("ul", ["address", "form", "menu", "pre"]),
   ("xmp", ["dd", "dl", "dt", "fieldset", "form", "li", "table", "ul"])]

/-- Whether a start tag closes the innermost open element. -/
def closes (new inner : String) : Bool :=
  ((closingTags.find? inner).getD []).contains new

/-- How strongly an element resists being closed by the end tag of another. -/
def closingRank (tag : String) : Nat :=
  match tag with
  | "div" => 150
  | "td" => 160
  | "th" => 160
  | "tr" => 170
  | "thead" => 180
  | "tbody" => 180
  | "tfoot" => 180
  | "table" => 190
  | "head" => 200
  | "body" => 200
  | "html" => 220
  | _ => 100

end ScriptTypings.Markup
