import HtmlLayout.Encoding.Declared
import HtmlLayout.Encoding.Label

/-!
# Looking ahead for a declared encoding

Before bytes are read as text, their start is searched for a tag that declares the encoding. The
search knows comments and tags and nothing else: it sees no difference between a tag and text that
looks like one. Bytes count as characters of the same number, in lower case.
-/

namespace HtmlLayout.Encoding

open Text

def prescanLength : Nat := 1024

/-- What a search for an attribute finds. -/
inductive FoundAttr where
  /-- The bytes are over. -/
  | over
  /-- The tag ends, at the first of the bytes. -/
  | none (rest : List Char)
  | some (name value : List Char) (rest : List Char)
  deriving Inhabited

/-- Blanks and the brackets of tags. -/
def endsBare (c : Char) : Bool := isMarkupSpace c || c == '<' || c == '>'

def attrValue (name : List Char) (text : List Char) : FoundAttr :=
  match text with
  | [] => .over
  | _ :: _ =>
      match text.dropWhile isMarkupSpace with
      | [] => .over
      | c :: rest =>
          if c == '"' || c == '\'' then
            match rest.dropWhile (· != c) with
            | _ :: next :: more => .some name (rest.takeWhile (· != c)) (next :: more)
            | _ => .over
          else if c == '>' then .some name [] (c :: rest)
          else
            match rest.dropWhile fun d => !endsBare d with
            | [] => .over
            | next :: more => .some name (c :: rest.takeWhile fun d => !endsBare d) (next :: more)

/-- The rest of an attribute of which part of the name is known, the last character first. -/
def attrName (name : List Char) : List Char → FoundAttr
  | [] => .over
  | c :: rest =>
      if c == '=' && !name.isEmpty then attrValue name.reverse rest
      else if isMarkupSpace c then
        match rest.dropWhile isMarkupSpace with
        | [] => .over
        | next :: more => if next == '=' then attrValue name.reverse more else .some name.reverse [] (next :: more)
      else if c == '/' || c == '>' then .some name.reverse [] (c :: rest)
      else attrName (c :: name) rest

def nextAttr (text : List Char) : FoundAttr :=
  match text.dropWhile fun c => isMarkupSpace c || c == '/' with
  | [] => .over
  | c :: rest => if c == '>' then .none (c :: rest) else attrName [] (c :: rest)

/-- Passes over the attributes of a tag; nothing is left when the bytes are over. -/
def skipAttrs : Nat → List Char → List Char
  | 0, _ => []
  | steps + 1, text =>
      match nextAttr text with
      | .over => []
      | .none rest => rest
      | .some _ _ rest => skipAttrs steps rest

def ofAscii? (label : List Char) : Option Encoding :=
  if label.all (·.toNat < 0x80) then ofLabel? (String.ofList label) else none

/-- Searches the attributes of a declaring tag. An encoding in the content counts once the tag says that the content is that of a header. -/
def metaAttrs : Nat → Bool → Option Encoding → List Char → Except Encoding (List Char)
  | 0, _, _, _ => .ok []
  | steps + 1, pragma, pending, text =>
      match nextAttr text with
      | .over => .ok []
      | .none rest => .ok rest
      | .some name value rest =>
          if name == "http-equiv".toList then
            let pragma := value == "content-type".toList
            match if pragma then pending else none with
            | some encoding => .error encoding
            | none => metaAttrs steps pragma pending rest
          else if name == "charset".toList then
            match ofAscii? value with
            | some encoding => .error encoding
            | none => metaAttrs steps pragma pending rest
          else if name == "content".toList then
            match (charsetIn (String.ofList value)).bind fun label => ofAscii? label.toList with
            | some encoding =>
                if pragma then .error encoding else metaAttrs steps pragma (some encoding) rest
            | none => metaAttrs steps pragma pending rest
          else metaAttrs steps pragma pending rest

def afterBracket (text : List Char) : List Char :=
  (text.dropWhile (· != '>')).drop 1

/-- Passes over a tag, of which `text` is the name and the rest. -/
def skipTag (text : List Char) : List Char :=
  match text.dropWhile fun c => !endsBare c with
  | [] => []
  | '<' :: rest => '<' :: rest
  | rest => (skipAttrs (rest.length + 1) rest).drop 1

/-- Searches for the first encoding that is declared. -/
def search : Nat → List Char → Option Encoding
  | 0, _ => none
  | steps + 1, text =>
      match text.dropWhile (· != '<') with
      | [] => none
      | _ :: rest =>
          if "!--".toList.isPrefixOf rest then
            match afterWord "-->".toList (rest.drop 3) with
            | some more => search steps more
            | none => none
          else if "meta".toList.isPrefixOf rest then
            match rest.drop 4 with
            | [] => none
            | c :: more =>
                if isMarkupSpace c then
                  match metaAttrs (more.length + 2) false none (c :: more) with
                  | .error encoding => some encoding
                  | .ok left => search steps (left.drop 1)
                else search steps more
          else
            match rest with
            | [] => none
            | '/' :: name =>
                match name.drop 1 with
                | [] => none
                | c :: more => search steps (if isLetter c then skipTag (c :: more) else afterBracket name)
            | '!' :: more => search steps (afterBracket more)
            | '?' :: more => search steps (afterBracket more)
            | c :: more => search steps (if isLetter c then skipTag (c :: more) else more)

/-- The encoding that the start of some bytes declares. One made of units of two bytes could not have been read like this, so it stands for UTF-8. -/
def prescan (bytes : List UInt8) : Option Encoding :=
  let text := (bytes.take prescanLength).map fun byte => lowerChar (Char.ofNat byte.toNat)
  if (afterWord "<meta".toList text).isNone then none
  else (search (text.length + 1) text).map fun encoding => if encoding.isUtf16 then utf8 else encoding

end HtmlLayout.Encoding
