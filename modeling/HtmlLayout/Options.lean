import HtmlLayout.Failure
import HtmlLayout.Layout

/-!
# Options of a format run

There are four options: whether the source is a fragment, the element a fragment is read in, the
margin, and the indent. They come from outside, so they arrive as values of any kind under any
name. Names that mean nothing are passed over, a null leaves an option at its default, and
`validate` finds the first option that has a value of the wrong kind.
-/

namespace HtmlLayout

/-- A value as it comes from outside. -/
inductive Setting where
  | null
  | truth (value : Bool)
  | integer (value : Int)
  /-- A fraction: `mantissa` divided by ten to the power of `exponent`. -/
  | fraction (mantissa : Int) (exponent : Nat)
  | text (value : String)
  | bytes (value : List UInt8)
  | list (items : List Setting)
  | table (entries : List (String × Setting))
  deriving Inhabited

namespace Setting

def kind : Setting → String
  | null => "NoneType"
  | truth _ => "bool"
  | integer _ => "int"
  | fraction _ _ => "float"
  | text _ => "str"
  | bytes _ => "bytes"
  | list _ => "list"
  | table _ => "dict"

/-- Whether a value counts as a yes: all do but null, no, zero, and whatever is empty. -/
def holds : Setting → Bool
  | null => false
  | truth value => value
  | integer value => value != 0
  | fraction mantissa _ => mantissa != 0
  | text value => value != ""
  | bytes value => !value.isEmpty
  | list items => !items.isEmpty
  | table entries => !entries.isEmpty

def isNull : Setting → Bool
  | null => true
  | _ => false

end Setting

/-- The element a fragment is read in when none is named. -/
def defaultContainer : String := "div"

/-- The four options with values of any kind. -/
structure Options where
  margin : Setting := .text ""
  indent : Setting := .text ""
  fragment : Setting := .truth false
  container : Setting := .text defaultContainer
  deriving Inhabited

/-- The four options with values that fit. -/
structure Format where
  style : Style := {}
  fragment : Bool := false
  container : String := defaultContainer
  deriving DecidableEq, Repr, Inhabited

namespace Options

/-- Sets an option by the name it has outside; other names change nothing. -/
def set (options : Options) (name : String) (value : Setting) : Options :=
  if name == "prefix" then { options with margin := value }
  else if name == "indent" then { options with indent := value }
  else if name == "fragment" then { options with fragment := value }
  else if name == "container" then { options with container := value }
  else options

/-- Options from named values, a null for an option being no different from any other value. -/
def ofEntries (entries : List (String × Setting)) : Options :=
  entries.foldl (fun options (name, value) => options.set name value) {}

/-- The text of an option that has to be one. -/
def requireText (option : String) : Setting → Except OptionError String
  | .text value => .ok value
  | other => .error { option, detail := "expected a string, got " ++ other.kind }

/-- The name of the containing element, which must not be empty. -/
def requireContainer : Setting → Except OptionError String
  | .text value =>
      if value == "" then .error { option := "container", detail := "expected a non-empty tag name" } else .ok value
  | _ => .error { option := "container", detail := "expected a non-empty tag name" }

/-- The options as a format, or the first option that does not fit: margin, then indent, then container. -/
def validate (options : Options) : Except OptionError Format := do
  let margin ← requireText "prefix" options.margin
  let indent ← requireText "indent" options.indent
  let container ← requireContainer options.container
  return { style := { margin, indent }, fragment := options.fragment.holds, container }

/-- Options from named values where a null leaves the default. -/
def ofTable (entries : List (String × Setting)) : Options :=
  ofEntries (entries.filter fun entry => !entry.2.isNull)

end Options

namespace Format

def ofTable (entries : List (String × Setting)) : Except OptionError Format :=
  (Options.ofTable entries).validate

end Format

end HtmlLayout
