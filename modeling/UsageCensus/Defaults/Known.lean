import UsageCensus.Text.Class
import UsageCensus.Text.Reader

/-!
# Known defaults

Which values are known to be the default of a prop, which element a component is rendered as
when nothing is said, and which props never have a default. Values are aggregation keys: texts
are in double quotes.
-/

namespace UsageCensus.Defaults

open UsageCensus.Text

/-- A text as an aggregation key. -/
def text (s : String) : String := "\"" ++ s ++ "\""

/-- The element that a component is rendered as by default. -/
def elementOf? (component : String) : Option String :=
  [("Box", "div"), ("Flex", "div"), ("Grid", "div"), ("Stack", "div"), ("Inline", "div"),
   ("Container", "div"), ("Card", "div"), ("Button", "button"), ("Tab", "button"),
   ("MenuItem", "button"), ("Text", "span"), ("Badge", "span"), ("Label", "label"),
   ("Heading", "h2"), ("Code", "code")].lookup component

/-- Values that are known defaults of a prop, most telling first. -/
def knownValues (prop : String) : List String :=
  ([("mode", [text "default"]),
    ("tone", [text "default"]),
    ("as", [text "div", text "span", text "button", text "a", text "label", text "h2",
      text "code"]),
    ("type", [text "button", text "text"]),
    ("direction", [text "row"]),
    ("align", [text "stretch"]),
    ("justify", [text "flex-start"]),
    ("wrap", [text "nowrap"]),
    ("weight", [text "regular"]),
    ("placement", [text "top", text "bottom"]),
    ("position", [text "fixed", text "relative"]),
    ("size", [text "2", text "0", "0", "2"]),
    ("animated", ["true"]),
    ("overflow", [text "visible"]),
    ("display", [text "block", text "flex"])].lookup prop).getD []

/-- The value that calls itself the default. -/
def literalDefault : String := text "default"

/-- Values that call themselves the default. -/
def namesItself (value : String) : Bool := [literalDefault, text "regular"].contains value

/-- Values that many components have as a default. -/
def looksLikeDefault (value : String) : Bool :=
  [literalDefault, text "regular", text "normal", text "none", text "inherit",
   "true", "false", "0"].contains value

/-- Event handlers, the props of the rendering itself, and `data-` and `aria-` attributes have
no default. -/
def isSkipped (prop : String) : Bool :=
  let chars := prop.toList
  let isHandler := match chars with
    | 'o' :: 'n' :: c :: _ => isUpper c
    | _ => false
  isHandler || ["key", "ref", "children"].contains prop
    || (after? ['d', 'a', 't', 'a', '-'] chars).isSome
    || (after? ['a', 'r', 'i', 'a', '-'] chars).isSome

end UsageCensus.Defaults
