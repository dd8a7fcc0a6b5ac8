import HtmlLayout.Dom.Attr

/-!
# Document trees

What a reader of markup delivers: elements, texts, sections of character data, comments, document
types, and nodes of other kinds that only carry the number of their kind. The reader may split a
run of text into any number of text nodes, so a tree is put in normal form before it is used: no
text node is empty and no two of them stand side by side. Sections of character data are left as
they are.
-/

namespace HtmlLayout

/-- A node of a document tree. -/
inductive Dom where
  | element (tag : String) (attrs : List Dom.Attr) (children : List Dom)
  | text (data : String)
  | cdata (data : String)
  | comment (data : String)
  /-- A document type with its local name. Identifiers may be missing or empty. -/
  | doctype (name : String) (publicId systemId : Option String)
  /-- A node of another kind, by the number of the kind. -/
  | other (kind : Nat)
  deriving Inhabited

namespace Dom

/-- The kind of a processing instruction. -/
def instructionKind : Nat := 7

/-- A document type by its qualified name, of which only the local part is kept. -/
def doctypeNamed (name : String) (publicId systemId : Option String) : Dom :=
  doctype (localPart name) publicId systemId

/-- Puts a text before nodes in normal form, joining it with a text that stands first. -/
def joinText (data : String) (rest : List Dom) : List Dom :=
  if data == "" then rest
  else
    match rest with
    | text next :: others => text (data ++ next) :: others
    | _ => text data :: rest

mutual

/-- A node with everything below it in normal form. -/
def normalize : Dom → Dom
  | element tag attrs children => element tag attrs (normalizeAll children)
  | leaf => leaf

/-- A list of siblings in normal form: empty texts go and adjacent texts are joined. -/
def normalizeAll : List Dom → List Dom
  | [] => []
  | text data :: rest => joinText data (normalizeAll rest)
  | node :: rest => normalize node :: normalizeAll rest

end

mutual

/-- How many elements lie on the longest way down from a node, the node itself included. -/
def nesting : Dom → Nat
  | element _ _ children => nestingAll children + 1
  | _ => 0

def nestingAll : List Dom → Nat
  | [] => 0
  | node :: rest => max (nesting node) (nestingAll rest)

end

end Dom

end HtmlLayout
