/-!
# Attributes of a document tree

An attribute is set in one of two ways. Set plainly, its name is taken whole, even if it holds a
colon. Set in a namespace, its qualified name is split at the first colon into a prefix and a local
name. Either way it also has a local name, and an element keeps one attribute for each namespace
and local name: a new one drives out the one it collides with and goes to the end.
-/

namespace HtmlLayout.Dom

/-- The text before the first colon, if there is a colon, and the text after it. -/
def splitName (name : String) : Option String × String :=
  let cs := name.toList
  match cs.dropWhile (· != ':') with
  | [] => (none, name)
  | _ :: rest => (some (String.ofList (cs.takeWhile (· != ':'))), String.ofList rest)

/-- A qualified name without its prefix. -/
def localPart (name : String) : String := (splitName name).2

/-- An attribute as an element holds it. -/
structure Attr where
  /-- The qualified name. -/
  name : String
  value : String
  /-- The namespace, if the attribute was set in one. -/
  space : Option String := none
  /-- The prefix, which only an attribute set in a namespace has. -/
  lead : Option String := none
  /-- The local name. -/
  leaf : String
  deriving DecidableEq, Repr, Inhabited

namespace Attr

/-- An attribute set by its whole name. -/
def plain (name value : String) : Attr :=
  { name, value, leaf := localPart name }

/-- An attribute set in a namespace, or in none, by a qualified name. -/
def qualified (space : Option String) (name value : String) : Attr :=
  let (lead, leaf) := splitName name
  { name, value, space, lead, leaf }

/-- Whether two attributes have the same namespace and local name. -/
def collides (a b : Attr) : Bool :=
  a.space == b.space && a.leaf == b.leaf

/-- Puts an attribute at the end and drops those of its name and those it collides with. -/
def push (attrs : List Attr) (attr : Attr) : List Attr :=
  (attrs.filter fun old => !(old.name == attr.name || old.collides attr)) ++ [attr]

/-- Sets an attribute by its whole name; one that is there gets the new value in its place. -/
def set (attrs : List Attr) (name value : String) : List Attr :=
  if attrs.any (·.name == name) then
    attrs.map fun old => if old.name == name then { old with value } else old
  else
    push attrs (plain name value)

/-- Gives an attribute the value of a fresh one, and its prefix with its qualified name if the prefix is another one. -/
def renew (old fresh : Attr) : Attr :=
  if old.lead == fresh.lead then { old with value := fresh.value }
  else { old with value := fresh.value, name := fresh.name, lead := fresh.lead }

/-- Sets an attribute in a namespace; one that is there is renewed in its place. -/
def setQualified (attrs : List Attr) (space : Option String) (name value : String) : List Attr :=
  let fresh := qualified space name value
  if attrs.any (·.collides fresh) then
    attrs.map fun old => if old.collides fresh then old.renew fresh else old
  else
    push attrs fresh

/-- Adds an attribute at the end unless one of its name is there. -/
def addMissing (attrs : List Attr) (name value : String) : List Attr :=
  if attrs.any (·.name == name) then attrs else attrs ++ [plain name value]

/-- The attributes of a copy of an element: each is set anew by its namespace and qualified name. -/
def copied (attrs : List Attr) : List Attr :=
  attrs.foldl (fun done attr => setQualified done attr.space attr.name attr.value) []

end Attr

end HtmlLayout.Dom
